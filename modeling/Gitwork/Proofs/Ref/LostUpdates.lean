import Gitwork.Proofs.Ref.Calls
import Gitwork.Proofs.Ref.Progress

/-! # Committed updates are not lost

    An observer watches a session: it notes what a name has when it is locked,
    and the change that is asked for last.  While the transaction is open the
    session knows the same (`Watched.Faithful`), whatever others do to the
    references in between.

    So a commit that succeeds has found every name with a change as it was
    when it was locked, and has made each change, with two exceptions.  One is
    of the disk, which does not keep all values as they are
    (`RefStore.Lands`).  The other is the commit's own: it skips the removal
    of a name that was not there when it was locked, also when it is there now
    (`Watched.Skips`). -/

namespace Gitwork

/-! ## The observer -/

/-- A session with what an observer notes of it. -/
structure Watched where
  session : Session
  /-- What each locked name had when it was locked. -/
  seen : Table (Option RefValue)
  /-- The change of each name that was asked for last. -/
  wanted : Table Mutation

/-- What can happen to a session. -/
inductive SessionEvent
  | call (caller : ThreadId) (c : TxnCall)
  /-- Other transactions lock and release names, other programs write references. -/
  | others (held : LockTable) (refs : RefStore)

namespace Watched

/-- A new transaction, about which nothing is noted. -/
def new (gitDir : String) (owner : ThreadId) (message : String) (held : LockTable)
    (refs : RefStore) : Watched :=
  ⟨⟨.new gitDir owner message, held, refs⟩, [], []⟩

/-- Notes a call that succeeded.  A name that is locked again is locked as before. -/
def note (w : Watched) : TxnCall → Watched
  | .lock name =>
    if w.seen.has name then w
    else { w with seen := w.seen.insert name (w.session.refs.get? name) }
  | .set name id _ _ => { w with wanted := w.wanted.insert name (.target id) }
  | .symbolic name target _ _ => { w with wanted := w.wanted.insert name (.symbolic target) }
  | .remove name => { w with wanted := w.wanted.insert name .remove }
  | .commit | .rollback => w

def play (w : Watched) : SessionEvent → Watched
  | .call caller c =>
    match w.session.call caller c with
    | (.ok (), s) => { w.note c with session := s }
    | (.error _, s) => { w with session := s }
  | .others held refs => { w with session := { w.session with held, refs } }

def run (w : Watched) (events : List SessionEvent) : Watched := events.foldl play w

/-- The session knows what the observer noted. -/
structure Faithful (w : Watched) : Prop where
  ordered : w.session.txn.refs.Ordered
  seen : w.session.txn.state = .opened → ∀ name,
    w.seen.get? name = (w.session.txn.refs.get? name).map (·.observed)
  wanted : w.session.txn.state = .opened → ∀ name,
    w.wanted.get? name = (w.session.txn.refs.get? name).bind (·.update.map (·.mutation))

/-- Before the first call nothing was seen and nothing is wanted. -/
theorem Faithful.new (gitDir : String) (owner : ThreadId) (message : String) (held : LockTable)
    (refs : RefStore) : (new gitDir owner message held refs).Faithful where
  ordered := Table.Ordered.nil
  seen := fun _ _ => rfl
  wanted := fun _ _ => rfl

namespace Faithful

variable {w : Watched}

/-- A name that is locked is noted with what it has. -/
theorem lock (h : w.Faithful) (caller : ThreadId) (name : String) :
    (w.play (.call caller (.lock name))).Faithful := by
  rw [play, Session.call]
  rcases w.session.lock_cases caller name with ⟨e, hl⟩ | ⟨locked, hget, hl⟩
    | ⟨hopen, hnew, -, ⟨e, -, hl⟩ | ⟨observed, hfind, hl⟩⟩
  · rw [hl]
    exact h
  · rw [hl]
    -- the name is locked already, and what was noted of it stands
    have hwanted : (w.note (.lock name)).wanted = w.wanted := by
      simp only [note]
      split
      · rfl
      · rfl
    refine ⟨h.ordered, ?_, hwanted ▸ h.wanted⟩
    intro hopen other
    have hseen : w.seen.has name = true := by
      rw [Table.has, h.seen hopen name, hget]
      rfl
    simp only [note, if_pos hseen]
    exact h.seen hopen other
  · rw [hl]
    exact ⟨h.ordered, h.seen, h.wanted⟩
  · rw [hl]
    -- the session and the observer note the same value, that of the disk
    have hseen : w.seen.has name = false := by
      rw [Table.has, h.seen hopen name, hnew]
      rfl
    simp only [note, hseen, Bool.false_eq_true, if_false]
    refine ⟨h.ordered.insert _ _, ?_, ?_⟩
    · intro _ other
      rw [Session.withLocked, Table.get?_insert, Table.get?_insert]
      split
      · rw [← RefStore.find?_ok hfind]
        rfl
      · exact h.seen hopen other
    · intro _ other
      rw [Session.withLocked, Table.get?_insert]
      split
      · next heq =>
          subst heq
          rw [h.wanted hopen other, hnew]
          rfl
      · exact h.wanted hopen other

/-- A change that is queued is noted. -/
theorem queue (h : w.Faithful) (caller : ThreadId) {c : TxnCall} {name : String} {u : Update}
    (hcall : w.session.call caller c = w.session.settle (w.session.queue caller name u))
    (hnote : w.note c = { w with wanted := w.wanted.insert name u.mutation }) :
    (w.play (.call caller c)).Faithful := by
  rw [play, hcall]
  rcases w.session.queue_cases caller name u with ⟨e, hq⟩ | ⟨locked, hopen, hget, hq⟩
  · rw [hq]
    exact h
  · rw [hq, hnote]
    show Faithful ⟨w.session.withUpdate name locked u, w.seen, w.wanted.insert name u.mutation⟩
    refine ⟨h.ordered.insert _ _, ?_, ?_⟩
    · intro _ other
      show w.seen.get? other = _
      rw [h.seen hopen other, Session.withUpdate, Table.get?_insert]
      split
      · next heq =>
          subst heq
          rw [hget]
          rfl
      · rfl
    · intro _ other
      show (w.wanted.insert name u.mutation).get? other = _
      rw [Table.get?_insert, Session.withUpdate, Table.get?_insert]
      split
      · rfl
      · exact h.wanted hopen other

/-- After its end a transaction has nothing to be faithful to. -/
theorem close {s : Session} (w : Watched) (hs : s.txn.refs = []) (hover : s.txn.state ≠ .opened) :
    Faithful { w with session := s } where
  ordered := hs ▸ Table.Ordered.nil
  seen := fun hopen => absurd hopen hover
  wanted := fun hopen => absurd hopen hover

/-- Every event keeps the notes faithful. -/
theorem play (h : w.Faithful) (e : SessionEvent) : (w.play e).Faithful := by
  cases e with
  | others held refs => exact ⟨h.ordered, h.seen, h.wanted⟩
  | call caller c =>
      cases c with
      | lock name => exact h.lock caller name
      | set name id signature message => exact h.queue caller rfl rfl
      | symbolic name target signature message => exact h.queue caller rfl rfl
      | remove name => exact h.queue caller rfl rfl
      -- a commit closes the transaction, after which the notes bind no longer
      | commit =>
          rw [Watched.play, Session.call]
          rcases w.session.commit_cases caller with ⟨e, hc⟩ | ⟨-, ⟨refs, -, hc⟩ | ⟨e, refs, -, hc⟩⟩
          · rw [hc]
            exact h
          · rw [hc]
            exact close w rfl nofun
          · rw [hc]
            exact close w rfl nofun
      | rollback =>
          rw [Watched.play, Session.call]
          rcases w.session.rollback_cases caller with ⟨e, hr⟩ | hr
          · rw [hr]
            exact h
          · rw [hr]
            show Faithful { w with session := w.session.discard }
            by_cases hopen : w.session.txn.state = .opened
            · rw [Session.discard, if_pos hopen]
              exact close w rfl nofun
            · rw [Session.discard, if_neg hopen]
              exact h

theorem run (h : w.Faithful) (events : List SessionEvent) : (w.run events).Faithful := by
  induction events generalizing w with
  | nil => exact h
  | cons e rest ih => exact ih (h.play e)

end Faithful

/-! ## What a commit finds -/

/-- A removal that the commit skips: the name was not there when it was locked. -/
def Skips (w : Watched) (name : String) : Prop :=
  w.wanted.get? name = some .remove ∧ w.seen.get? name = some none

/-- A name with a change that has not what it had when it was locked. -/
def Moved (w : Watched) (refs : RefStore) (name : String) : Prop :=
  (∃ m, w.wanted.get? name = some m) ∧ w.seen.get? name ≠ some (refs.get? name)

variable {w : Watched} {name : String}

/-- Each change that the commit makes was noted, and is not one that it skips. -/
theorem Faithful.of_pending (h : w.Faithful) (hopen : w.session.txn.state = .opened)
    {p : Transaction.Pending} (hp : p ∈ w.session.txn.pending) :
    w.wanted.get? p.1 = some p.2.2.mutation ∧ w.seen.get? p.1 = some p.2.1.observed
      ∧ ¬ w.Skips p.1 := by
  obtain ⟨hmem, hupdate, hkept⟩ := Transaction.mem_pending.mp hp
  -- an entry that is pending was locked, so its value was seen
  have hget := h.ordered.mem_iff.mp hmem
  have hwanted : w.wanted.get? p.1 = some p.2.2.mutation := by
    rw [h.wanted hopen, hget, Option.bind_some, hupdate]
    rfl
  have hseen : w.seen.get? p.1 = some p.2.1.observed := by
    rw [h.seen hopen, hget]
    rfl
  refine ⟨hwanted, hseen, ?_⟩
  rintro ⟨hremove, hnone⟩
  rw [hwanted] at hremove
  rw [hseen] at hnone
  exact hkept ⟨Option.some.inj hremove, Option.some.inj hnone⟩

/-- Each change that was noted is one that the commit makes or skips. -/
theorem Faithful.to_pending (h : w.Faithful) (hopen : w.session.txn.state = .opened)
    {m : Mutation} (hm : w.wanted.get? name = some m) :
    w.Skips name ∨ ∃ p ∈ w.session.txn.pending, p.1 = name ∧ p.2.2.mutation = m := by
  have hwanted := h.wanted hopen name
  rw [hm] at hwanted
  cases hget : w.session.txn.refs.get? name with
  | none =>
      rw [hget] at hwanted
      exact nomatch hwanted
  | some locked =>
      rw [hget, Option.bind_some] at hwanted
      cases hupdate : locked.update with
      | none =>
          rw [hupdate] at hwanted
          exact nomatch hwanted
      | some u =>
          rw [hupdate] at hwanted
          have hmutation : u.mutation = m := (Option.some.inj hwanted).symm
          -- this is the filter of the commit, seen from outside
          by_cases hskipped : u.mutation = .remove ∧ locked.observed = none
          · left
            obtain ⟨hremove, hnone⟩ := hskipped
            refine ⟨?_, ?_⟩
            · rw [hm, ← hmutation, hremove]
            · rw [h.seen hopen, hget, Option.map_some, hnone]
          · right
            refine ⟨(name, locked, u), ?_, rfl, hmutation⟩
            exact Transaction.mem_pending.mpr ⟨h.ordered.mem_iff.mpr hget, hupdate, hskipped⟩

/-- A name that the commit skips has no change in it. -/
theorem Faithful.skips_not_mem (h : w.Faithful) (hopen : w.session.txn.state = .opened)
    (hskip : w.Skips name) : name ∉ w.session.txn.pending.map (·.1) := by
  intro hmem
  obtain ⟨p, hp, rfl⟩ := List.mem_map.mp hmem
  exact (h.of_pending hopen hp).2.2 hskip

/-- If nothing moved, only skipped names have moved. -/
theorem Faithful.unmoved (h : w.Faithful) (hopen : w.session.txn.state = .opened)
    {refs : RefStore} (hunmoved : w.session.txn.Unmoved refs) (hmoved : w.Moved refs name) :
    w.Skips name := by
  obtain ⟨⟨m, hm⟩, hother⟩ := hmoved
  rcases h.to_pending hopen hm with hskip | ⟨p, hp, rfl, -⟩
  · exact hskip
  · refine absurd ?_ hother
    rw [(h.of_pending hopen hp).2.1, hunmoved p hp]

section Last

variable {x : Transaction.Stage} {exit : Exit} {after : RefStore}

/-- A commit that reports a change has found one. -/
theorem Faithful.changed (h : w.Faithful) (hopen : w.session.txn.state = .opened)
    (hlast : w.session.txn.Ended x exit after) (hexit : exit = .changed name) :
    w.Moved x.refs name ∧ ¬ w.Skips name := by
  subst hexit
  cases hlast with
  | refused e he hlook => exact absurd trivial hlook
  | changed p hp hexit hmoved =>
      obtain rfl := Exit.changed.inj hexit
      obtain ⟨hwanted, hseen, hskip⟩ := h.of_pending hopen hp
      refine ⟨⟨⟨_, hwanted⟩, ?_⟩, hskip⟩
      rw [hseen]
      exact fun heq => hmoved (Option.some.inj heq).symm
  | failed e he hexit => exact absurd rfl (hexit name)
  | made hok => exact nomatch hok

/-- When a successful commit has found and made what it should. -/
theorem Faithful.made_iff (h : w.Faithful) (hopen : w.session.txn.state = .opened)
    (hlast : w.session.txn.Ended x exit after) (hok : exit.result = .ok ()) :
    (∀ name m, w.wanted.get? name = some m →
        w.seen.get? name = some (x.refs.get? name) ∧ after.get? name = m.value?)
      ↔ (∀ name, w.Skips name → x.refs.get? name = none)
        ∧ ∀ name m v, w.wanted.get? name = some m → w.seen.get? name = some v →
          RefStore.Lands v m.value? := by
  cases hlast with
  | refused e he => exact nomatch hok.symm.trans he
  | changed p hp hexit => exact nomatch (hexit ▸ hok : Exit.result (.changed p.1) = .ok ())
  | failed e he => exact nomatch hok.symm.trans he
  | made _ hunmoved hmade hother =>
      constructor
      · intro hgood
        refine ⟨?_, ?_⟩
        · rintro name ⟨hremove, hnone⟩
          obtain ⟨hseen, -⟩ := hgood name .remove hremove
          rw [hnone] at hseen
          exact (Option.some.inj hseen).symm
        · intro name m v hm hv
          rcases h.to_pending hopen hm with hskip | ⟨p, hp, rfl, hmutation⟩
          · -- what is to be absent can always be had
            have hremove := hskip.1
            rw [hm] at hremove
            rw [Option.some.inj hremove]
            trivial
          · obtain ⟨hseen, hafter⟩ := hgood p.1 m hm
            rw [hv] at hseen
            rw [← RefStore.settled_eq_iff, Option.some.inj hseen, ← hmutation, ← hmade p hp,
              hmutation]
            exact hafter
      · rintro ⟨hskips, hlands⟩ name m hm
        rcases h.to_pending hopen hm with hskip | ⟨p, hp, rfl, hmutation⟩
        · have hremove := hskip.1
          rw [hm] at hremove
          obtain rfl := Option.some.inj hremove
          -- a skipped removal writes nothing, so it is made exactly if nothing is there
          have hnone := hskips name hskip
          refine ⟨?_, ?_⟩
          · rw [hskip.2, hnone]
          · rw [hother name (h.skips_not_mem hopen hskip), hnone]
            rfl
        · have hseen := (h.of_pending hopen hp).2.1
          refine ⟨?_, ?_⟩
          · rw [hseen, hunmoved p hp]
          · rw [hmade p hp, hmutation, RefStore.settled_eq_iff, hunmoved p hp]
            exact hlands p.1 m _ hm hseen

end Last

end Watched

/-- The commit of an open transaction by its thread is what `apply` does. -/
theorem Session.commit_owner (s : Session) (hopen : s.txn.state = .opened) :
    (s.commit s.txn.owner).1 = (s.txn.apply s.refs).1
      ∧ (s.commit s.txn.owner).2.refs = (s.txn.apply s.refs).2 := by
  rw [commit, Transaction.check_owner hopen]
  cases s.txn.apply s.refs with
  | mk result refs =>
      cases result with
      | ok u => exact ⟨rfl, rfl⟩
      | error e => exact ⟨rfl, rfl⟩

/-- **What a successful commit has compared and made.**

    Take any transaction that is still open, after any calls and any doings of
    others, and any run of its commit, with others at work as the locks on
    disk allow.  If it succeeds, then every name with a change has had what it
    had when it was locked, and has what was asked for, exactly if each skipped
    removal still finds nothing and each value is one that lands.  If all names
    can be locked and read, the commit fails with `refChanged` exactly if a
    name that it does not skip has moved; and a commit that fails changes
    nothing. -/
theorem commit_compares (gitDir : String) (owner : ThreadId) (message : String) (held : LockTable)
    (refs : RefStore) (events : List SessionEvent) :
    let w := (Watched.new gitDir owner message held refs).run events
    let t := w.session.txn
    t.state = .opened →
    (∃ exit, t.Ends (.starting w.session.refs) exit (w.session.commit t.owner).2.refs
        ∧ exit.result = (w.session.commit t.owner).1)
      ∧ ∀ x exit after, t.Reaches (.starting w.session.refs) x → t.step x = .inr (exit, after) →
        (exit.result = .ok () →
          ((∀ name m, w.wanted.get? name = some m →
              w.seen.get? name = some (x.refs.get? name) ∧ after.get? name = m.value?)
            ↔ (∀ name, w.Skips name → x.refs.get? name = none)
              ∧ ∀ name m v, w.wanted.get? name = some m → w.seen.get? name = some v →
                RefStore.Lands v m.value?))
        ∧ (exit.Looked →
          ((∃ name, exit = .changed name) ↔ ∃ name, w.Moved x.refs name ∧ ¬ w.Skips name))
        ∧ (∀ name, exit = .changed name → w.Moved x.refs name)
        ∧ (exit.result ≠ .ok () → after.Same x.refs)
        ∧ ∀ y z, t.Reaches (.starting w.session.refs) y → t.step y = .inl z →
          z.refs.Same y.refs := by
  intro w t hopen
  have h : w.Faithful := (Watched.Faithful.new gitDir owner message held refs).run events
  refine ⟨?_, ?_⟩
  · -- there is such a run: the one that nobody disturbs
    obtain ⟨exit, hend, hresult⟩ := t.apply_ends w.session.refs
    obtain ⟨hfst, hsnd⟩ := w.session.commit_owner hopen
    exact ⟨exit, hsnd ▸ hend, hresult.trans hfst.symm⟩
  intro x exit after hreach hend
  have hlast := hreach.progress.ended h.ordered hend
  refine ⟨?_, ?_, ?_, ?_, fun y z _ hstep => Transaction.step_same hstep⟩
  · intro hok
    exact h.made_iff hopen hlast hok
  · intro hlooked
    constructor
    · rintro ⟨name, hexit⟩
      exact ⟨name, h.changed hopen hlast hexit⟩
    · rintro ⟨name, hmoved, hskip⟩
      -- a run that ended later has found nothing moved; one that looked ended at a moved name
      cases hlast with
      | refused e he hlook => exact absurd hlooked hlook
      | changed p hp hexit => exact ⟨p.1, hexit⟩
      | failed e he hexit hunmoved => exact absurd (h.unmoved hopen hunmoved hmoved) hskip
      | made hok hunmoved => exact absurd (h.unmoved hopen hunmoved hmoved) hskip
  · intro name hexit
    exact (h.changed hopen hlast hexit).1
  · intro hfail
    cases hlast with
    | refused e he hlook hsame => exact hsame
    | changed p hp hexit hmoved hsame => exact hsame
    | failed e he hexit hunmoved hsame => exact hsame
    | made hok => exact absurd hok hfail

/-- The id that a reference is set to. -/
def tip : Oid := ⟨"4b825dc642cb6eb9a060e54bf8d69288fbee4904"⟩

/-- A reference that is not there is locked and set. -/
def settingNew : Watched :=
  (Watched.new "/r" 1 "move" [] (RefStore.empty false default)).run
    [.call 1 (.lock "NEW"), .call 1 (.set "NEW" tip none none)]

/-- The commit finds nothing and makes the reference. -/
theorem commit_compares_settingNew :
    ∃ x exit after, settingNew.session.txn.Reaches (.starting settingNew.session.refs) x
      ∧ settingNew.session.txn.step x = .inr (exit, after) ∧ exit.result = .ok ()
      ∧ x.refs.get? "NEW" = none ∧ after.get? "NEW" = some (.direct tip) := by
  have hopen : settingNew.session.txn.state = .opened := rfl
  have hcommit : (settingNew.session.commit settingNew.session.txn.owner).1 = .ok () := rfl
  have hseen : settingNew.seen = [("NEW", none)] := rfl
  have hwanted : settingNew.wanted = [("NEW", .target tip)] := rfl
  obtain ⟨⟨exit, ⟨x, hreach, hend⟩, hresult⟩, hall⟩ := commit_compares "/r" 1 "move" []
    (RefStore.empty false default) [.call 1 (.lock "NEW"), .call 1 (.set "NEW" tip none none)] hopen
  have hok : exit.result = .ok () := hresult.trans hcommit
  have hset : ∀ name m, settingNew.wanted.get? name = some m → m = .target tip := by
    intro name m hm
    rw [hwanted, Table.get?_cons] at hm
    split at hm
    · exact (Option.some.inj hm).symm
    · cases hm
  have hskips : ∀ name, settingNew.Skips name → x.refs.get? name = none := by
    rintro name ⟨hremove, -⟩
    cases hset name .remove hremove
  have hlands : ∀ name m v, settingNew.wanted.get? name = some m →
      settingNew.seen.get? name = some v → RefStore.Lands v m.value? := by
    intro name m v hm _
    rw [hset name m hm]
    show v = none → tip ≠ .zero
    intro _
    decide
  obtain ⟨hfound, hafter⟩ := ((hall x exit _ hreach hend).1 hok).mpr ⟨hskips, hlands⟩ "NEW" _
    (congrArg (Table.get? · "NEW") hwanted)
  have hnone : settingNew.seen.get? "NEW" = some none := congrArg (Table.get? · "NEW") hseen
  have hbefore : none = x.refs.get? "NEW" := Option.some.inj (hnone.symm.trans hfound)
  exact ⟨x, exit, _, hreach, hend, hok, hbefore.symm, hafter⟩

/-- A reference that is not there is locked and queued for removal, and another
    program makes it. -/
def removingNew : Watched :=
  (Watched.new "/r" 1 "move" [] (RefStore.empty false default)).run
    [.call 1 (.lock "NEW"), .call 1 (.remove "NEW"),
      .others [.of "/r" "NEW"] ((RefStore.empty false default).put "NEW" (some (.direct tip)))]

/-- The commit succeeds, and the reference stays. -/
theorem removal_skipped :
    removingNew.wanted.get? "NEW" = some .remove ∧ removingNew.seen.get? "NEW" = some none
      ∧ removingNew.session.refs.get? "NEW" = some (.direct tip)
      ∧ (removingNew.session.commit 1).1 = .ok ()
      ∧ (removingNew.session.commit 1).2.refs.get? "NEW" = some (.direct tip) := by
  have hremoving : removingNew = ⟨⟨⟨"/r", 1, [("NEW", ⟨⟨"/r", "NEW"⟩, none,
        some ⟨.remove, none, none⟩⟩)], .opened, "move"⟩, [.of "/r" "NEW"],
      (RefStore.empty false default).put "NEW" (some (.direct tip))⟩,
      [("NEW", none)], [("NEW", .remove)]⟩ := by
    rfl
  rw [hremoving]
  refine ⟨rfl, rfl, rfl, rfl, rfl⟩

end Gitwork
