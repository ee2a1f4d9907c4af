import Gitwork.Cli.Run
import Gitwork.Proofs.Ref.AllOrNothing
import Gitwork.Proofs.Ref.LifeCycle
import Gitwork.Proofs.Ref.Name

/-! # Edits in one transaction

    The body of the command that updates references locks the names of all
    edits and then queues all edits.  While it does so its transaction is the
    new one with some names locked and some edits queued, the last edit of a
    name counting (`Assigning`).

    * a name can be locked if its key is free and it can be read, whichever
      names are locked before it (`Assigning.lock`);
    * so the body succeeds exactly if every edit is feasible (`Feasible`), and
      what it leaves to the commit is in the edits up to their order
      (`Assigning.txn_unique`);
    * a commit that succeeds then gives each name the value that its last edit
      asks for, and leaves the other names alone (`Assigning.assigns`). -/

namespace Gitwork

/-- The object that a revision names has an id that is not null. -/
theorem Repo.revision_ne_zero {r : Repo} {spec : String} {d : Designated}
    (h : r.revision spec = .ok d) : d.id ≠ .zero := by
  intro hzero
  simp only [Repo.revision] at h
  obtain ⟨designated, -, hdesignated⟩ := bind_eq_ok_iff.mp h
  obtain ⟨o, hfind, hd⟩ := bind_eq_ok_iff.mp hdesignated
  obtain rfl : designated = d := Except.ok.inj hd
  rw [ObjectStore.find, ObjectStore.get?, hzero] at hfind
  cases hfind

namespace Cli

/-! ## What an edit asks for -/

namespace RefAction

/-- What a reference is to hold, if anything.  A revision is looked up in a
    repository. -/
def value (r : Repo) : RefAction → Except NativeError (Option RefValue)
  | point revision => (r.revision revision).map fun d => some (.direct d.id)
  | symbolic name => .ok (some (.symbolic name))
  | remove => .ok none

/-- The update that is queued for it. -/
def update (r : Repo) (message : Option String) : RefAction → Except NativeError Update
  | point revision => (r.revision revision).map fun d => ⟨.target d.id, none, message⟩
  | symbolic name => .ok ⟨.symbolic name, none, message⟩
  | remove => .ok ⟨.remove, none, none⟩

/-- The value an action sets is that of the update it queues. -/
theorem value_eq (r : Repo) (message : Option String) (a : RefAction) :
    a.value r = (a.update r message).map (·.mutation.value?) := by
  cases a with
  | point revision =>
      rw [value, update]
      cases r.revision revision with
      | error e => rfl
      | ok d => rfl
  | symbolic name => rfl
  | remove => rfl

/-- An action whose value can be read queues an update. -/
theorem update_ok {r : Repo} (message : Option String) {a : RefAction}
    (h : ∃ v, a.value r = .ok v) : ∃ u, a.update r message = .ok u := by
  obtain ⟨v, hv⟩ := h
  rw [a.value_eq r message] at hv
  cases hu : a.update r message with
  | error e =>
      rw [hu] at hv
      cases hv
  | ok u => exact ⟨u, rfl⟩

/-- The disk keeps the value as it is: it has no blanks at its end. -/
def Clean : RefAction → Prop
  | symbolic name => (RefValue.symbolic name).kept = .symbolic name
  | point _ | remove => True

/-- A value that is asked for is what there will be. -/
theorem lands {r : Repo} {message : Option String} {a : RefAction} (ha : a.Clean) {u : Update}
    (hu : a.update r message = .ok u) (current : Option RefValue) :
    RefStore.Lands current u.mutation.value? := by
  cases a with
  -- a revision never designates the null id
  | point revision =>
      cases hrevision : r.revision revision with
      | error e =>
          rw [update, hrevision] at hu
          cases hu
      | ok d =>
          rw [update, hrevision] at hu
          cases hu
          exact fun _ => Repo.revision_ne_zero hrevision
  | symbolic name =>
      cases hu
      exact Or.inr ha
  | remove =>
      cases hu
      trivial

end RefAction

/-- The last edit of a name. -/
def lastEdit (edits : List RefEdit) (name : String) : Option RefEdit :=
  (edits.filter (·.refname = name)).getLast?

/-- The edit that was added last wins for its own name. -/
theorem lastEdit_concat (edits : List RefEdit) (e : RefEdit) (name : String) :
    lastEdit (edits ++ [e]) name
      = if e.refname = name then some e else lastEdit edits name := by
  by_cases hname : e.refname = name
  · simp [lastEdit, List.filter_append, hname]
  · simp [lastEdit, List.filter_append, hname]

theorem lastEdit_eq_none {edits : List RefEdit} {name : String} :
    lastEdit edits name = none ↔ name ∉ edits.map (·.refname) := by
  simp [lastEdit]

theorem lastEdit_mem {edits : List RefEdit} {name : String} {e : RefEdit}
    (h : lastEdit edits name = some e) : e ∈ edits ∧ e.refname = name := by
  have hmem := List.mem_of_getLast? h
  rw [List.mem_filter, decide_eq_true_iff] at hmem
  exact hmem

/-- If every name has one edit, that is the last one. -/
theorem lastEdit_eq_some {edits : List RefEdit} (hnodup : (edits.map (·.refname)).Nodup)
    {name : String} {e : RefEdit} :
    lastEdit edits name = some e ↔ e ∈ edits ∧ e.refname = name := by
  refine ⟨lastEdit_mem, ?_⟩
  rintro ⟨hmem, hname⟩
  cases hlast : lastEdit edits name with
  | none =>
      rw [lastEdit_eq_none, ← hname] at hlast
      exact absurd (List.mem_map_of_mem hmem) hlast
  | some e' =>
      obtain ⟨hmem', hname'⟩ := lastEdit_mem hlast
      rw [List.inj_on_of_nodup_map hnodup hmem' hmem (hname'.trans hname.symm)]

end Cli

/-! ## Locking and queueing -/

namespace Session

variable {s : Session} {name : String}

/-- A name that can be locked: its key is free, and it can be read. -/
def Free (s : Session) (name : String) : Prop :=
  (s.guardOf name).key ∉ s.held ∧ ∃ v, s.refs.find? name = .ok v

/-- To lock a name that is locked already succeeds and changes nothing. -/
theorem lock_locked (hopen : s.txn.state = .opened) {locked : LockedRef}
    (hget : s.txn.refs.get? name = some locked) : s.lock s.txn.owner name = (.ok (), s) := by
  have hhas : s.txn.refs.has name = true := by rw [Table.has, hget]; rfl
  rw [lock, Transaction.check_owner hopen]
  simp only [hhas, if_true]

/-- To lock a free name guards it with the value it has now. -/
theorem lock_free (hopen : s.txn.state = .opened) (hnew : s.txn.refs.get? name = none)
    (hfree : s.Free name) :
    s.lock s.txn.owner name = (.ok (), s.withLocked name (s.refs.get? name)) := by
  obtain ⟨hkey, v, hfind⟩ := hfree
  have hhas : s.txn.refs.has name = false := by rw [Table.has, hnew]; rfl
  have hvalid : Transaction.checkName name = .ok () := if_pos (RefStore.valid_of_find? hfind)
  have hacquire : s.held.acquire s.txn.gitDir name
      = .ok (s.guardOf name, (s.guardOf name).key :: s.held) := LockTable.acquire_free hkey
  rw [lock, Transaction.check_owner hopen]
  simp only [hhas, hvalid, hacquire, hfind, RefStore.find?_ok hfind]
  rfl

/-- A name that is not locked and cannot be locked is refused. -/
theorem lock_not_free (hnew : s.txn.refs.get? name = none)
    (hfree : ¬ s.Free name) : ∃ e, s.call s.txn.owner (.lock name) = (.error e, s) := by
  have herror : ∃ e, (s.lock s.txn.owner name).1 = .error e := by
    rcases s.lock_cases s.txn.owner name with ⟨e, hlock⟩ | ⟨locked, hget, -⟩
      | ⟨-, -, hkey, ⟨e, -, hlock⟩ | ⟨v, hfind, -⟩⟩
    · exact ⟨e, by rw [hlock]⟩
    · rw [hnew] at hget
      cases hget
    · exact ⟨_, by rw [hlock]⟩
    · exact absurd ⟨hkey, v, hfind⟩ hfree
  obtain ⟨e, he⟩ := herror
  exact ⟨e, Prod.ext he (call_failed nofun he)⟩

/-- An update of a locked name is queued under the name. -/
theorem queue_locked (hopen : s.txn.state = .opened) {locked : LockedRef}
    (hget : s.txn.refs.get? name = some locked) (u : Update) :
    s.queue s.txn.owner name u = .ok (s.withUpdate name locked u) := by
  have hthread : s.txn.checkThread s.txn.owner = .ok () := if_pos rfl
  have hstate : s.txn.checkOpen = .ok () := if_pos hopen
  rw [queue, hthread, hstate]
  simp only [hget]
  rfl

end Session

namespace Cli

variable {r : Repo} {message : Option String} {start s : Session} {names : List String}
  {edits : List RefEdit}

/-- A session that was new at the start, after it has locked some names and queued
    some edits of them. -/
structure Assigning (r : Repo) (message : Option String) (start : Session) (names : List String)
    (edits : List RefEdit) (s : Session) : Prop where
  txn : s.txn = { start.txn with refs := s.txn.refs }
  refs : s.refs = start.refs
  ordered : s.txn.refs.Ordered
  /-- A name is with what it had at the start and with the update of its last edit. -/
  table : ∀ name, s.txn.refs.get? name = if name ∈ names then
      some ⟨start.guardOf name, start.refs.get? name,
        (lastEdit edits name).bind fun e => (e.action.update r message).toOption⟩
    else none
  held : ∀ k, k ∈ s.held ↔ k ∈ start.held ∨ ∃ name ∈ names, k = (start.guardOf name).key
  free : ∀ name ∈ names, start.Free name

/-- A session as a scope begins it. -/
structure Fresh (start : Session) : Prop where
  opened : start.txn.state = .opened
  owner : start.txn.owner = 1
  refs : start.txn.refs = []

/-- A scope begins with no name locked and no edit queued. -/
theorem Assigning.new (hfresh : Fresh start) : Assigning r message start [] [] start where
  txn := rfl
  refs := rfl
  ordered := by
    rw [hfresh.refs]
    exact .nil
  table := by
    intro name
    rw [hfresh.refs, if_neg List.not_mem_nil]
    rfl
  held := by simp
  free := fun _ hmem => absurd hmem List.not_mem_nil

namespace Assigning

/-- The first thread owns the transaction throughout. -/
theorem owner (h : Assigning r message start names edits s) (hfresh : Fresh start) :
    s.txn.owner = 1 := by
  rw [h.txn]
  exact hfresh.owner

theorem opened (h : Assigning r message start names edits s) (hfresh : Fresh start) :
    s.txn.state = .opened := by
  rw [h.txn]
  exact hfresh.opened

theorem guardOf (h : Assigning r message start names edits s) (name : String) :
    s.guardOf name = start.guardOf name := by
  rw [Session.guardOf, Session.guardOf, h.txn]

/-- A name that is not locked yet can be locked if it could be at the start. -/
theorem free_iff (h : Assigning r message start names edits s) {name : String}
    (hnew : name ∉ names) : s.Free name ↔ start.Free name := by
  rw [Session.Free, Session.Free, h.guardOf, h.refs, h.held]
  have hother : ¬ ∃ other ∈ names, (start.guardOf name).key = (start.guardOf other).key := by
    rintro ⟨other, hmem, hkey⟩
    have hname : name = other := congrArg LockKey.refname hkey
    exact hnew (hname ▸ hmem)
  rw [or_iff_left hother]

/-- To lock a name again changes nothing. -/
theorem again (h : Assigning r message start names edits s) {name : String}
    (hmem : name ∈ names) : Assigning r message start (names ++ [name]) edits s := by
  have hnames : ∀ other, other ∈ names ++ [name] ↔ other ∈ names := by
    intro other
    rw [List.mem_append, List.mem_singleton, or_iff_left_iff_imp]
    rintro rfl
    exact hmem
  refine ⟨h.txn, h.refs, h.ordered, ?_, ?_, ?_⟩
  · simpa only [hnames] using h.table
  · simpa only [hnames] using h.held
  · simpa only [hnames] using h.free

/-- Locking a free name adds it to the locked ones, with its value as it was at the start. -/
theorem withLocked (h : Assigning r message start names [] s) {name : String}
    (hfree : start.Free name) :
    Assigning r message start (names ++ [name]) [] (s.withLocked name (s.refs.get? name)) where
  txn := by
    show ({ s.txn with refs := _ } : Transaction) = _
    rw [h.txn]
    rfl
  refs := h.refs
  ordered := h.ordered.insert _ _
  table := by
    intro other
    show (Table.insert s.txn.refs name _).get? other = _
    rw [Table.get?_insert, h.guardOf, h.refs]
    by_cases hother : other = name
    · subst hother
      rw [if_pos rfl, if_pos (List.mem_append_right _ List.mem_cons_self)]
      rfl
    · rw [if_neg hother, h.table]
      have hmem : other ∈ names ++ [name] ↔ other ∈ names := by
        rw [List.mem_append, List.mem_singleton, or_iff_left hother]
      simp only [hmem]
  held := by
    intro k
    show k ∈ (s.guardOf name).key :: s.held ↔ _
    rw [List.mem_cons, h.held, h.guardOf]
    constructor
    · rintro (rfl | hold | ⟨other, hmem, rfl⟩)
      · exact Or.inr ⟨name, List.mem_append_right _ List.mem_cons_self, rfl⟩
      · exact Or.inl hold
      · exact Or.inr ⟨other, List.mem_append_left _ hmem, rfl⟩
    · rintro (hold | ⟨other, hmem, rfl⟩)
      · exact Or.inr (Or.inl hold)
      · rcases List.mem_append.mp hmem with hmem | hmem
        · exact Or.inr (Or.inr ⟨other, hmem, rfl⟩)
        · rw [List.mem_singleton.mp hmem]
          exact Or.inl rfl
  free := by
    intro other hmem
    rcases List.mem_append.mp hmem with hmem | hmem
    · exact h.free other hmem
    · rw [List.mem_singleton.mp hmem]
      exact hfree

/-- **One more name.** -/
theorem lock (h : Assigning r message start names [] s) (hfresh : Fresh start) (name : String) :
    (start.Free name ∧ ∃ s', s.call 1 (.lock name) = (.ok (), s')
      ∧ Assigning r message start (names ++ [name]) [] s')
    ∨ (¬ start.Free name ∧ ∃ e, s.call 1 (.lock name) = (.error e, s)) := by
  have howner := h.owner hfresh
  have hopen := h.opened hfresh
  -- a name that was locked by an earlier edit is not guarded a second time
  by_cases hmem : name ∈ names
  · have hget := h.table name
    rw [if_pos hmem] at hget
    have hlock := Session.lock_locked hopen hget
    rw [howner] at hlock
    exact Or.inl ⟨h.free name hmem, s, hlock, h.again hmem⟩
  · have hnew := h.table name
    rw [if_neg hmem] at hnew
    by_cases hfree : start.Free name
    · have hlock := Session.lock_free hopen hnew ((h.free_iff hmem).mpr hfree)
      rw [howner] at hlock
      exact Or.inl ⟨hfree, _, hlock, h.withLocked hfree⟩
    · have hlock := Session.lock_not_free hnew fun hs => hfree ((h.free_iff hmem).mp hs)
      rw [howner] at hlock
      exact Or.inr ⟨hfree, hlock⟩

/-- **One more edit.** -/
theorem queue (h : Assigning r message start names edits s) (hfresh : Fresh start) {e : RefEdit}
    (hmem : e.refname ∈ names) {u : Update} (hu : e.action.update r message = .ok u) :
    ∃ s', s.queue 1 e.refname u = .ok s'
      ∧ Assigning r message start names (edits ++ [e]) s' := by
  have hget := h.table e.refname
  rw [if_pos hmem] at hget
  have hqueue := Session.queue_locked (h.opened hfresh) hget u
  rw [h.owner hfresh] at hqueue
  refine ⟨_, hqueue, ?_, h.refs, h.ordered.insert _ _, ?_, h.held, h.free⟩
  · show ({ s.txn with refs := _ } : Transaction) = _
    rw [h.txn]
    rfl
  · intro other
    show (Table.insert s.txn.refs e.refname _).get? other = _
    rw [Table.get?_insert, lastEdit_concat]
    by_cases hother : other = e.refname
    · subst hother
      rw [if_pos rfl, if_pos hmem, if_pos rfl, Option.bind_some, hu]
      rfl
    · rw [if_neg hother, h.table, if_neg (Ne.symm hother)]

end Assigning

/-- What is locked and queued is in the names and in their last edits. -/
theorem Assigning.txn_unique (h : Assigning r message start names edits s) {names' : List String}
    {edits' : List RefEdit} {s' : Session} (h' : Assigning r message start names' edits' s')
    (hnames : ∀ name, name ∈ names' ↔ name ∈ names)
    (hlast : ∀ name, lastEdit edits' name = lastEdit edits name) : s'.txn = s.txn := by
  have htable : s'.txn.refs = s.txn.refs := by
    refine h'.ordered.ext h.ordered ?_
    intro name
    rw [h'.table, h.table]
    simp only [hnames, hlast]
  rw [h'.txn, h.txn, htable]

/-- **What a commit makes of the edits.** -/
theorem Assigning.assigns (h : Assigning r message start (edits.map (·.refname)) edits s)
    (hvalues : ∀ e ∈ edits, ∃ v, e.action.value r = .ok v) (hclean : ∀ e ∈ edits, e.action.Clean)
    {after : RefStore} (happly : s.txn.apply start.refs = (.ok (), after)) :
    (∀ name e, lastEdit edits name = some e → e.action.value r = .ok (after.get? name))
      ∧ (∀ name, lastEdit edits name = none → after.get? name = start.refs.get? name)
      ∧ after.locked = start.refs.locked := by
  rcases s.txn.apply_cases h.ordered start.refs with ⟨e, herror, -⟩
    | ⟨after', hok, -, hmade, hothers, hlocked⟩
  · rw [herror] at happly
    cases happly
  obtain rfl : after' = after := congrArg Prod.snd (hok.symm.trans happly)
  refine ⟨?_, ?_, hlocked⟩
  · intro name e hlast
    obtain ⟨hmem, hname⟩ := lastEdit_mem hlast
    obtain ⟨u, hu⟩ := RefAction.update_ok message (hvalues e hmem)
    have hget := h.table name
    rw [if_pos (hname ▸ List.mem_map_of_mem hmem), hlast, Option.bind_some, hu] at hget
    have hentry := h.ordered.mem_iff.mpr hget
    rw [e.action.value_eq r message, hu]
    show Except.ok u.mutation.value? = Except.ok (after'.get? name)
    by_cases hskip : u.mutation = .remove ∧ start.refs.get? name = none
    · -- there is nothing to remove, so nothing is written
      have hunwritten : name ∉ s.txn.pending.map (·.1) := by
        intro hpending
        obtain ⟨⟨_, locked, u'⟩, hp, rfl⟩ := List.mem_map.mp hpending
        obtain ⟨hentry', hupdate, hwritten⟩ := Transaction.mem_pending.mp hp
        have hlocked := hget.symm.trans (h.ordered.mem_iff.mp hentry')
        rw [← Option.some.inj hlocked] at hupdate hwritten
        rw [← Option.some.inj hupdate] at hwritten
        exact hwritten hskip
      rw [hothers name hunwritten, hskip.2, hskip.1]
      rfl
    · -- the update is pending, so it is written, and its value is one that stays
      have hp : (name, ⟨start.guardOf name, start.refs.get? name, some u⟩, u) ∈ s.txn.pending :=
        Transaction.mem_pending.mpr ⟨hentry, rfl, hskip⟩
      rw [hmade _ hp, (RefStore.settled_eq_iff _ _).mpr]
      exact RefAction.lands (hclean e hmem) hu _
  · intro name hlast
    refine hothers name (Transaction.not_mem_pending h.ordered ?_)
    rw [h.table, if_neg (lastEdit_eq_none.mp hlast)]
    rfl

/-! ## The body of the command -/

/-- An edit that can be made: its name can be locked, and its value is known. -/
def Feasible (r : Repo) (start : Session) (e : RefEdit) : Prop :=
  start.Free e.refname ∧ ∃ v, e.action.value r = .ok v

/-- All names are locked, or the first one that cannot be ends the body. -/
theorem Assigning.play_lockEdits (next : TxnBody Failure Unit) (rest : List RefEdit)
    (h : Assigning r message start names [] s) (hfresh : Fresh start) :
    ((∀ e ∈ rest, start.Free e.refname) ∧ ∃ s', s.play (Context.lockEdits next rest) = s'.play next
      ∧ Assigning r message start (names ++ rest.map (·.refname)) [] s')
    ∨ ((∃ e ∈ rest, ¬ start.Free e.refname)
      ∧ ∃ f s', s.play (Context.lockEdits next rest) = (.failed f, s') ∧ s'.refs = start.refs) := by
  induction rest generalizing names s with
  | nil =>
      left
      refine ⟨fun _ hmem => absurd hmem List.not_mem_nil, s, rfl, ?_⟩
      rw [List.map_nil, List.append_nil]
      exact h
  | cons e rest ih =>
      rcases h.lock hfresh e.refname with ⟨hfree, s', hcall, hs'⟩ | ⟨hfree, cause, hcall⟩
      · have hplay : s.play (Context.lockEdits next (e :: rest))
            = s'.play (Context.lockEdits next rest) := by
          rw [Context.lockEdits, Session.play, hcall]
        rw [hplay]
        rcases ih hs' with ⟨hall, s'', hrest, hs''⟩ | ⟨⟨e', hmem, hnot⟩, hfailed⟩
        · left
          refine ⟨List.forall_mem_cons.mpr ⟨hfree, hall⟩, s'', hrest, ?_⟩
          rw [List.map_cons, List.append_cons]
          exact hs''
        · exact Or.inr ⟨⟨e', List.mem_cons_of_mem _ hmem, hnot⟩, hfailed⟩
      · right
        -- the first name that cannot be locked ends the body
        have hplay : s.play (Context.lockEdits next (e :: rest)) = (.failed
            ((Failure.ofError cause).within ("Failed to lock '" ++ e.refname ++ "'")), s) := by
          rw [Context.lockEdits, Session.play, hcall]
          rfl
        exact ⟨⟨e, List.mem_cons_self, hfree⟩, _, s, hplay, h.refs⟩

/-- An edit whose value is known is queued before the others. -/
theorem play_queueEdits_ok (hrefs : s.refs = r.refs) {e : RefEdit} {u : Update} {s' : Session}
    (hu : e.action.update r message = .ok u) (hqueue : s.queue 1 e.refname u = .ok s')
    (rest : List RefEdit) : s.play (Context.queueEdits r message (e :: rest))
      = s'.play (Context.queueEdits r message rest) := by
  have hsettle : s.settle (s.queue 1 e.refname u) = (.ok (), s') := by
    rw [hqueue]
    rfl
  obtain ⟨refname, action⟩ := e
  -- an action queues one update, and only a revision has to be read first
  cases action with
  | point revision =>
      cases hrevision : r.revision revision with
      | error cause =>
          rw [RefAction.update, hrevision] at hu
          cases hu
      | ok d =>
          rw [RefAction.update, hrevision] at hu
          cases hu
          have hsettle : s.settle (s.queue 1 refname ⟨.target d.id, none, message⟩)
              = (.ok (), s') := hsettle
          simp only [Context.queueEdits, Session.play, hrefs, hrevision, Session.call, hsettle]
  | symbolic name =>
      cases hu
      simp only [Context.queueEdits, Session.play, Session.call, hsettle]
  | remove =>
      cases hu
      simp only [Context.queueEdits, Session.play, Session.call, hsettle]

/-- A revision that names no object ends the body. -/
theorem play_queueEdits_error (hrefs : s.refs = r.refs) {e : RefEdit} {cause : NativeError}
    (hu : e.action.update r message = .error cause) (rest : List RefEdit) :
    ∃ f, s.play (Context.queueEdits r message (e :: rest)) = (.failed f, s) := by
  obtain ⟨refname, action⟩ := e
  cases action with
  | symbolic name => cases hu
  | remove => cases hu
  | point revision =>
      cases hrevision : r.revision revision with
      | ok d =>
          rw [RefAction.update, hrevision] at hu
          cases hu
      | error cause =>
          simp only [Context.queueEdits, Session.play, hrefs, hrevision]
          exact ⟨_, rfl⟩

/-- All edits are queued, or the first one whose value is not known ends the body. -/
theorem Assigning.play_queueEdits (rest : List RefEdit)
    (h : Assigning r message start names edits s) (hfresh : Fresh start)
    (hrefs : start.refs = r.refs) (hnames : ∀ e ∈ rest, e.refname ∈ names) :
    ((∀ e ∈ rest, ∃ v, e.action.value r = .ok v)
      ∧ ∃ s', s.play (Context.queueEdits r message rest) = (.returned (), s')
        ∧ Assigning r message start names (edits ++ rest) s')
    ∨ ((∃ e ∈ rest, ¬ ∃ v, e.action.value r = .ok v)
      ∧ ∃ f s', s.play (Context.queueEdits r message rest) = (.failed f, s')
        ∧ s'.refs = start.refs) := by
  induction rest generalizing edits s with
  | nil =>
      left
      refine ⟨fun _ hmem => absurd hmem List.not_mem_nil, s, rfl, ?_⟩
      rw [List.append_nil]
      exact h
  | cons e rest ih =>
      obtain ⟨hname, hnames⟩ := List.forall_mem_cons.mp hnames
      have hvalue := e.action.value_eq r message
      have hsame : s.refs = r.refs := h.refs.trans hrefs
      cases hu : e.action.update r message with
      | error cause =>
          right
          rw [hu] at hvalue
          obtain ⟨f, hplay⟩ := play_queueEdits_error hsame hu rest
          refine ⟨⟨e, List.mem_cons_self, ?_⟩, f, s, hplay, h.refs⟩
          rintro ⟨v, hv⟩
          rw [hvalue] at hv
          cases hv
      | ok u =>
          rw [hu] at hvalue
          obtain ⟨s', hqueue, hs'⟩ := h.queue hfresh hname hu
          rw [play_queueEdits_ok hsame hu hqueue rest]
          rcases ih hs' hnames with ⟨hall, s'', hrest, hs''⟩ | ⟨⟨e', hmem, hnot⟩, hfailed⟩
          · left
            refine ⟨List.forall_mem_cons.mpr ⟨⟨_, hvalue⟩, hall⟩, s'', hrest, ?_⟩
            rw [List.append_cons]
            exact hs''
          · exact Or.inr ⟨⟨e', List.mem_cons_of_mem _ hmem, hnot⟩, hfailed⟩

/-- **The body succeeds if every edit is feasible, and fails otherwise.** -/
theorem play_applyEdits (hfresh : Fresh start) (hrefs : start.refs = r.refs)
    (edits : List RefEdit) :
    ((∀ e ∈ edits, Feasible r start e)
      ∧ ∃ s, start.play (Context.applyEdits r message edits) = (.returned (), s)
        ∧ Assigning r message start (edits.map (·.refname)) edits s)
    ∨ ((∃ e ∈ edits, ¬ Feasible r start e)
      ∧ ∃ f s, start.play (Context.applyEdits r message edits) = (.failed f, s)
        ∧ s.refs = start.refs) := by
  rcases (Assigning.new hfresh).play_lockEdits (Context.queueEdits r message edits) edits hfresh
    with ⟨hfree, s, hlock, hs⟩ | ⟨⟨e, hmem, hnot⟩, hfailed⟩
  · have hnames : ∀ e ∈ edits, e.refname ∈ edits.map (·.refname) :=
      fun e hmem => List.mem_map_of_mem hmem
    rw [Context.applyEdits, hlock]
    rw [List.nil_append] at hs
    rcases hs.play_queueEdits edits hfresh hrefs hnames with ⟨hall, s', hqueue, hs'⟩
      | ⟨⟨e, hmem, hnot⟩, hfailed⟩
    · exact Or.inl ⟨fun e hmem => ⟨hfree e hmem, hall e hmem⟩, s', hqueue, hs'⟩
    · exact Or.inr ⟨⟨e, hmem, fun hfeasible => hnot hfeasible.2⟩, hfailed⟩
  · exact Or.inr ⟨⟨e, hmem, fun hfeasible => hnot hfeasible.1⟩, hfailed⟩

end Cli

/-! ## The scope -/

namespace Session

/-- A rollback writes no reference. -/
theorem rollback_refs (s : Session) (caller : ThreadId) :
    (s.settle (s.rollback caller)).2.refs = s.refs := by
  rcases s.rollback_cases caller with ⟨e, hrollback⟩ | hrollback
  · rw [hrollback]
    rfl
  · rw [hrollback]
    exact s.discard_refs

end Session

namespace Cli

variable {r : Repo} {message : Option String} {start : Session}

/-- **A scope with edits commits them together, or changes nothing.** -/
theorem run_applyEdits (message : Option String) (hfresh : Fresh start)
    (hrefs : start.refs = r.refs) (edits : List RefEdit) (ofError : Error → Failure) :
    (∃ f t, start.run 1 ofError (Context.applyEdits r message edits) = (.failed f, t)
        ∧ t.refs = start.refs ∧ ∃ e ∈ edits, ¬ Feasible r start e)
    ∨ (∀ e ∈ edits, Feasible r start e)
      ∧ ∃ s, Assigning r message start (edits.map (·.refname)) edits s
        ∧ ((∃ e t, s.txn.apply start.refs = (.error e, start.refs) ∧ t.refs = start.refs
            ∧ start.run 1 ofError (Context.applyEdits r message edits) = (.failed (ofError e), t))
          ∨ ∃ after t, s.txn.apply start.refs = (.ok (), after) ∧ t.refs = after
            ∧ start.run 1 ofError (Context.applyEdits r message edits) = (.returned (), t)) := by
  rcases play_applyEdits hfresh hrefs edits with ⟨hall, s, hplay, hs⟩
    | ⟨hnot, f, s, hplay, hsame⟩
  · right
    refine ⟨hall, s, hs, ?_⟩
    -- the body returned, so the transaction is committed: it writes all or nothing
    have hopen := hs.opened hfresh
    rcases s.txn.apply_cases hs.ordered start.refs with ⟨e, happly, -⟩ | ⟨after, happly, -⟩
    · left
      have happly' : s.txn.apply s.refs = (.error e, start.refs) := by rw [hs.refs, happly]
      have hcommit := Session.commit_failed hopen happly'
      rw [hs.owner hfresh] at hcommit
      refine ⟨e, ({ s with refs := start.refs }.close .failed).discard, happly, ?_, ?_⟩
      · exact Session.discard_refs _
      · simp only [Session.run, hplay, if_pos hopen, hcommit]
    · right
      have happly' : s.txn.apply s.refs = (.ok (), after) := by rw [hs.refs, happly]
      have hcommit := Session.commit_committed hopen happly'
      rw [hs.owner hfresh] at hcommit
      refine ⟨after, ({ s with refs := after }.close .committed).discard, happly, ?_, ?_⟩
      · exact Session.discard_refs _
      · simp only [Session.run, hplay, if_pos hopen, hcommit]
  · left
    -- the body failed, so the transaction is rolled back and nothing is written
    refine ⟨f, (s.settle (s.rollback 1)).2.discard, ?_, ?_, hnot⟩
    · simp only [Session.run, hplay]
    · rw [Session.discard_refs, Session.rollback_refs, hsame]

/-- Such a scope does not end by a panic. -/
theorem run_applyEdits_ended (message : Option String) (hfresh : Fresh start)
    (hrefs : start.refs = r.refs) (edits : List RefEdit) (ofError : Error → Failure) :
    (start.run 1 ofError (Context.applyEdits r message edits)).1 = .returned ()
      ∨ ∃ f, (start.run 1 ofError (Context.applyEdits r message edits)).1 = .failed f := by
  rcases run_applyEdits message hfresh hrefs edits ofError with ⟨f, t, hrun, -⟩
    | ⟨-, s, -, ⟨e, t, -, -, hrun⟩ | ⟨after, t, -, -, hrun⟩⟩
  · exact Or.inr ⟨f, by rw [hrun]⟩
  · exact Or.inr ⟨_, by rw [hrun]⟩
  · exact Or.inl (by rw [hrun])

/-- A scope that fails has written nothing. -/
theorem run_applyEdits_failed (hfresh : Fresh start) (hrefs : start.refs = r.refs)
    {edits : List RefEdit} {ofError : Error → Failure} {f : Failure}
    (h : (start.run 1 ofError (Context.applyEdits r message edits)).1 = .failed f) :
    (start.run 1 ofError (Context.applyEdits r message edits)).2.refs = start.refs := by
  rcases run_applyEdits message hfresh hrefs edits ofError with ⟨f, t, hrun, hsame, -⟩
    | ⟨-, s, -, ⟨e, t, -, hsame, hrun⟩ | ⟨after, t, -, -, hrun⟩⟩
  · rw [hrun]
    exact hsame
  · rw [hrun]
    exact hsame
  · rw [hrun] at h
    cases h

/-- A scope that returns has written the last edit of each name, and nothing else. -/
theorem run_applyEdits_returned (hfresh : Fresh start) (hrefs : start.refs = r.refs)
    {edits : List RefEdit} (hclean : ∀ e ∈ edits, e.action.Clean) {ofError : Error → Failure}
    (h : (start.run 1 ofError (Context.applyEdits r message edits)).1 = .returned ()) :
    let after := (start.run 1 ofError (Context.applyEdits r message edits)).2.refs
    (∀ name e, lastEdit edits name = some e → e.action.value r = .ok (after.get? name))
      ∧ (∀ name, lastEdit edits name = none → after.get? name = start.refs.get? name)
      ∧ after.locked = start.refs.locked := by
  rcases run_applyEdits message hfresh hrefs edits ofError with ⟨f, t, hrun, -⟩
    | ⟨hall, s, hs, ⟨e, t, -, -, hrun⟩ | ⟨after, t, happly, hsame, hrun⟩⟩
  · rw [hrun] at h
    cases h
  · rw [hrun] at h
    cases h
  · rw [hrun]
    show _ ∧ _ ∧ _
    rw [hsame]
    exact hs.assigns (fun e hmem => (hall e hmem).2) hclean happly

/-- The order of edits of different names does not matter. -/
theorem lastEdit_perm {edits edits' : List RefEdit} (hperm : edits'.Perm edits)
    (hnodup : (edits.map (·.refname)).Nodup) (name : String) :
    lastEdit edits' name = lastEdit edits name := by
  have hnodup' : (edits'.map (·.refname)).Nodup := (hperm.map _).nodup_iff.mpr hnodup
  apply Option.ext
  intro e
  rw [lastEdit_eq_some hnodup', lastEdit_eq_some hnodup, hperm.mem_iff]

/-- **Nor does it matter to a scope with them.** -/
theorem run_applyEdits_perm (hfresh : Fresh start) (hrefs : start.refs = r.refs)
    (ofError : Error → Failure) {edits edits' : List RefEdit} (hperm : edits'.Perm edits)
    (hnodup : (edits.map (·.refname)).Nodup) :
    let one := start.run 1 ofError (Context.applyEdits r message edits)
    let two := start.run 1 ofError (Context.applyEdits r message edits')
    two.2.refs = one.2.refs ∧ (two.1 = .returned () ↔ one.1 = .returned ()) := by
  rcases run_applyEdits message hfresh hrefs edits ofError with
    ⟨f, t, hrun, hsame, e, hmem, hnot⟩ | ⟨hall, s, hs, hcommit⟩
  · rcases run_applyEdits message hfresh hrefs edits' ofError with
      ⟨f', t', hrun', hsame', -⟩ | ⟨hall', -⟩
    · rw [hrun, hrun']
      exact ⟨hsame'.trans hsame.symm, by simp⟩
    · exact absurd (hall' e (hperm.mem_iff.mpr hmem)) hnot
  · rcases run_applyEdits message hfresh hrefs edits' ofError with
      ⟨f', t', -, -, e, hmem, hnot⟩ | ⟨-, s', hs', hcommit'⟩
    · exact absurd (hall e (hperm.mem_iff.mp hmem)) hnot
    -- both come to the commit of one transaction
    have hnames : ∀ name, name ∈ edits'.map (·.refname) ↔ name ∈ edits.map (·.refname) :=
      fun name => (hperm.map _).mem_iff
    rw [hs.txn_unique hs' hnames (lastEdit_perm hperm hnodup)] at hcommit'
    rcases hcommit with ⟨e, t, happly, hsame, hrun⟩ | ⟨after, t, happly, hsame, hrun⟩
    · rcases hcommit' with ⟨e', t', -, hsame', hrun'⟩ | ⟨after, t', happly', -, -⟩
      · rw [hrun, hrun']
        exact ⟨hsame'.trans hsame.symm, by simp⟩
      · rw [happly] at happly'
        cases happly'
    · rcases hcommit' with ⟨e', t', happly', -, -⟩ | ⟨after', t', happly', hsame', hrun'⟩
      · rw [happly] at happly'
        cases happly'
      · rw [happly] at happly'
        cases happly'
        rw [hrun, hrun']
        exact ⟨hsame'.trans hsame.symm, by simp⟩

end Cli

end Gitwork
