import Mathlib.Data.List.Forall2
import Gitwork.Proofs.Cli.RefEdit
import Gitwork.Proofs.Cli.UpdateRefs

/-! # What an accepted command line asks for

    The command that updates references reads its specifications and then asks
    the transaction for what the edits say: it locks the name of each, and then
    queues the value of each.

    * a specification that is accepted gives a canonical edit, unless it is bare:
      a mark without a name behind it (`RefEdit.parse_wellFormed`);
    * the calls of the command are those of its edits in their order, up to the
      first call that fails (`Cli.callsOf_applyEdits`).

    So the command asks for a symbolic reference to no name at all exactly if one
    of its specifications is bare. -/

namespace Gitwork

namespace Session

variable {s : Session} {caller : ThreadId} {name : String}

/-- A body goes on with the result of its call. -/
theorem play_call {ε α : Type} {c : TxnCall} {next : Except Error Unit → TxnBody ε α}
    {result : Except Error Unit} (h : (s.call caller c).1 = result) :
    s.play (.call caller c next) = (s.call caller c).2.play (next result) := by
  rw [← h]
  rfl

/-- A scope returns only if its body does. -/
theorem played_of_run {ε α : Type} {ofError : Error → ε} {body : TxnBody ε α} {v : α}
    (h : (s.run caller ofError body).1 = .returned v) : (s.play body).1 = .returned v := by
  have hresult := s.run_result caller ofError body
  generalize (s.play body).1 = ended at hresult ⊢
  rw [h] at hresult
  cases hresult with
  | returned v _ => rfl

/-- A lock writes no reference. -/
theorem lock_refs : (s.call caller (.lock name)).2.refs = s.refs := by
  show (s.lock caller name).2.refs = s.refs
  rcases s.lock_cases caller name with ⟨e, hlock⟩ | ⟨locked, -, hlock⟩
    | ⟨-, -, -, ⟨e, -, hlock⟩ | ⟨v, -, hlock⟩⟩
  · rw [hlock]
  · rw [hlock]
  · rw [hlock]
  · rw [hlock]
    rfl

/-- A queued update writes no reference. -/
theorem queue_refs (u : Update) : (s.settle (s.queue caller name u)).2.refs = s.refs := by
  rcases s.queue_cases caller name u with ⟨e, hqueue⟩ | ⟨locked, -, -, hqueue⟩
  · rw [hqueue]
    rfl
  · rw [hqueue]
    rfl

end Session

namespace Cli

/-! ## Accepted specifications -/

/-- A specification with a mark and no name behind it. -/
def Bare (spec : String) : Prop :=
  ∃ name p, Nameable name ∧ spec = RefEdit.written p ⟨name, .symbolic ""⟩

namespace RefEdit

/-- A symbolic edit without a target is not canonical. -/
theorem not_canonical_bare {name : String} : ¬ Canonical ⟨name, .symbolic ""⟩ := by
  rintro ⟨-, haction⟩
  cases haction with
  | symbolic hsome _ => exact hsome rfl

/-- **What is accepted is canonical, or it is bare.** -/
theorem parse_wellFormed {spec : String} {e : RefEdit} (h : parse spec = .ok e) :
    Nameable e.refname ∧ (e.Canonical ↔ ¬ Bare spec) ∧ (Bare spec → e.action = .symbolic "") := by
  obtain ⟨⟨hname, haction⟩, p, hspec⟩ := parse_eq_ok_iff.mp h
  -- a text is read in one way only
  have hbare : Bare spec → e.action = .symbolic "" := by
    rintro ⟨name, p', hname', hspec'⟩
    have hread := parse_eq_ok_iff.mpr ⟨⟨hname', Or.inr rfl⟩, p', hspec'⟩
    rw [← Except.ok.inj (hread.symm.trans h)]
  refine ⟨hname, ⟨?_, ?_⟩, hbare⟩
  · intro hcanonical hspec'
    have haction' := hcanonical.action
    rw [hbare hspec'] at haction'
    exact not_canonical_bare ⟨hname, haction'⟩
  · intro hnot
    refine ⟨hname, haction.resolve_right fun hempty => hnot ⟨e.refname, p, hname, ?_⟩⟩
    rw [← hempty]
    exact hspec

end RefEdit

/-- Where specifications are not all read, there is one that is not. -/
theorem exists_unread {updates : List String} {e : RefEditError}
    (h : updates.mapM RefEdit.parse = .error e) :
    ∃ spec ∈ updates, ∃ e, RefEdit.parse spec = .error e := by
  induction updates generalizing e with
  | nil => cases h
  | cons spec rest ih =>
      cases hspec : RefEdit.parse spec with
      | error e' => exact ⟨spec, List.mem_cons_self, e', hspec⟩
      | ok edit =>
          cases hrest : rest.mapM RefEdit.parse with
          | error e' =>
              obtain ⟨other, hmem, hother⟩ := ih hrest
              exact ⟨other, List.mem_cons_of_mem _ hmem, hother⟩
          | ok edits =>
              rw [List.mapM_cons, hspec, hrest] at h
              cases h

/-! ## The calls of the command -/

/-- The call that locks the name of an edit. -/
def RefEdit.lockCall (e : RefEdit) : ThreadId × TxnCall := (1, .lock e.refname)

/-- The call that queues the value of an edit.  A revision is looked up in a
    repository. -/
inductive RefEdit.Queues (r : Repo) (message : Option String) : RefEdit → ThreadId × TxnCall → Prop
  | point {name revision : String} {d : Designated} : r.revision revision = .ok d →
      Queues r message ⟨name, .point revision⟩ (1, .set name d.id none message)
  | symbolic (name target : String) :
      Queues r message ⟨name, .symbolic target⟩ (1, .symbolic name target none message)
  | remove (name : String) : Queues r message ⟨name, .remove⟩ (1, .remove name)

variable {r : Repo} {message : Option String}

/-- Some calls queue the values of the first edits, of all if the body returns. -/
structure QueuesFirst (r : Repo) (message : Option String) (edits : List RefEdit) (s : Session)
    (body : TxnBody Failure Unit) (done : List RefEdit) : Prop where
  first : done <+: edits
  calls : List.Forall₂ (RefEdit.Queues r message) done (s.callsOf body)
  all : (s.play body).1 = .returned () → done = edits

/-- One more call in front, if that is how the first edit is queued. -/
theorem QueuesFirst.call {s : Session} {e : RefEdit} {rest : List RefEdit} {c : TxnCall}
    {next : Except Error Unit → TxnBody Failure Unit}
    (hc : e.Queues r message (1, c))
    (hok : ∃ done, QueuesFirst r message rest (s.call 1 c).2 (next (.ok ())) done)
    (herror : ∀ cause, ∃ f, next (.error cause) = .fail f) :
    ∃ done, QueuesFirst r message (e :: rest) s (.call 1 c next) done := by
  cases hresult : (s.call 1 c).1 with
  | ok u =>
      obtain ⟨done, hfirst, hcalls, hall⟩ := hok
      refine ⟨e :: done, List.cons_prefix_cons.mpr ⟨rfl, hfirst⟩, ?_, ?_⟩
      · rw [Session.callsOf, hresult]
        exact .cons hc hcalls
      · intro hreturned
        rw [Session.play_call hresult] at hreturned
        rw [hall hreturned]
  | error cause =>
      obtain ⟨f, hf⟩ := herror cause
      refine ⟨[e], List.cons_prefix_cons.mpr ⟨rfl, List.nil_prefix⟩, ?_, ?_⟩
      · rw [Session.callsOf, hresult, hf]
        exact .cons hc .nil
      · -- a body that fails does not return, so nothing is claimed of the rest
        intro hreturned
        rw [Session.play_call hresult, hf] at hreturned
        cases hreturned

/-- A look makes no call. -/
theorem QueuesFirst.look {s : Session} {edits : List RefEdit}
    {next : RefStore → TxnBody Failure Unit}
    (h : ∃ done, QueuesFirst r message edits s (next s.refs) done) :
    ∃ done, QueuesFirst r message edits s (.look next) done := by
  obtain ⟨done, hfirst, hcalls, hall⟩ := h
  exact ⟨done, hfirst, hcalls, hall⟩

/-- A failure makes no call and does not return. -/
theorem QueuesFirst.fail {s : Session} {edits : List RefEdit} (f : Failure) :
    ∃ done, QueuesFirst r message edits s (.fail f) done := by
  refine ⟨[], List.nil_prefix, .nil, fun hreturned => ?_⟩
  cases hreturned

/-- Queueing asks one update for each edit, in their order, until one of them fails. -/
theorem callsOf_queueEdits (edits : List RefEdit) : ∀ s : Session, s.refs = r.refs →
    ∃ done, QueuesFirst r message edits s (Context.queueEdits r message edits) done := by
  induction edits with
  | nil => exact fun s _ => ⟨[], List.prefix_rfl, .nil, fun _ => rfl⟩
  | cons e rest ih =>
      intro s hrefs
      obtain ⟨name, action⟩ := e
      -- a revision is looked up before its update is queued; the others need no look
      cases action with
      | remove =>
          exact QueuesFirst.call (.remove name) (ih _ ((Session.queue_refs _).trans hrefs))
            fun cause => ⟨_, rfl⟩
      | symbolic target =>
          exact QueuesFirst.call (.symbolic name target)
            (ih _ ((Session.queue_refs _).trans hrefs)) fun cause => ⟨_, rfl⟩
      | point revision =>
          have hsame : { r with refs := s.refs } = r := by rw [hrefs]
          refine QueuesFirst.look ?_
          rw [hsame]
          cases hrevision : r.revision revision with
          | ok d =>
              exact QueuesFirst.call (.point hrevision) (ih _ ((Session.queue_refs _).trans hrefs))
                fun cause => ⟨_, rfl⟩
          | error cause => exact QueuesFirst.fail _

/-- The names are locked in a row in front of what follows. -/
theorem callsOf_lockEdits (next : TxnBody Failure Unit) (edits : List RefEdit) : ∀ s : Session,
    (∃ s' : Session, s'.refs = s.refs ∧ s.play (Context.lockEdits next edits) = s'.play next
      ∧ s.callsOf (Context.lockEdits next edits)
        = edits.map RefEdit.lockCall ++ s'.callsOf next)
    ∨ ∃ done, done <+: edits ∧ (s.play (Context.lockEdits next edits)).1 ≠ .returned ()
      ∧ s.callsOf (Context.lockEdits next edits) = done.map RefEdit.lockCall := by
  induction edits with
  | nil => exact fun s => Or.inl ⟨s, rfl, rfl, rfl⟩
  | cons e rest ih =>
      intro s
      cases hresult : (s.call 1 (.lock e.refname)).1 with
      | ok u =>
          have hplay : s.play (Context.lockEdits next (e :: rest))
              = (s.call 1 (.lock e.refname)).2.play (Context.lockEdits next rest) := by
            rw [Context.lockEdits, Session.play_call hresult]
          have hcalls : s.callsOf (Context.lockEdits next (e :: rest)) = e.lockCall
              :: (s.call 1 (.lock e.refname)).2.callsOf (Context.lockEdits next rest) := by
            rw [Context.lockEdits, Session.callsOf, hresult]
            rfl
          rw [hplay, hcalls]
          rcases ih (s.call 1 (.lock e.refname)).2 with ⟨s', hrefs, hend, hrest⟩
            | ⟨done, hfirst, hfailed, hrest⟩
          · refine Or.inl ⟨s', hrefs.trans Session.lock_refs, hend, ?_⟩
            rw [hrest, List.map_cons, List.cons_append]
          · refine Or.inr ⟨e :: done, List.cons_prefix_cons.mpr ⟨rfl, hfirst⟩, hfailed, ?_⟩
            rw [hrest, List.map_cons]
      | error cause =>
          refine Or.inr ⟨[e], List.cons_prefix_cons.mpr ⟨rfl, List.nil_prefix⟩, ?_, ?_⟩
          · rw [Context.lockEdits, Session.play_call hresult]
            intro hreturned
            cases hreturned
          · rw [Context.lockEdits, Session.callsOf, hresult]
            rfl

/-- The calls of a command: the names of its first edits are locked, and the values
    of its first edits are queued; both are all of them if it returns. -/
structure Conducted (r : Repo) (message : Option String) (edits : List RefEdit)
    (returned : Prop) (calls : List (ThreadId × TxnCall)) (locked done : List RefEdit) : Prop where
  firstLocked : locked <+: edits
  firstDone : done <+: edits
  calls : ∃ queued, List.Forall₂ (RefEdit.Queues r message) done queued
    ∧ calls = locked.map RefEdit.lockCall ++ queued
  all : returned → locked = edits ∧ done = edits

/-- What holds of the calls of a body that returned holds of a scope that ended well. -/
theorem Conducted.of_returned {edits locked done : List RefEdit} {returned ended : Prop}
    {calls : List (ThreadId × TxnCall)}
    (h : Conducted r message edits returned calls locked done) (himp : ended → returned) :
    Conducted r message edits ended calls locked done :=
  ⟨h.firstLocked, h.firstDone, h.calls, fun hended => h.all (himp hended)⟩

/-- **A command makes the calls of its edits, up to the first that fails.** -/
theorem callsOf_applyEdits (edits : List RefEdit) {s : Session} (hrefs : s.refs = r.refs) :
    ∃ locked done, Conducted r message edits
      ((s.play (Context.applyEdits r message edits)).1 = .returned ())
      (s.callsOf (Context.applyEdits r message edits)) locked done := by
  rw [Context.applyEdits]
  rcases callsOf_lockEdits (Context.queueEdits r message edits) edits s with
    ⟨s', hsame, hplay, hcalls⟩ | ⟨locked, hfirst, hfailed, hcalls⟩
  · -- all names are locked; queueing begins with the references unchanged
    obtain ⟨done, hdone, hqueued, hall⟩ : ∃ done, QueuesFirst r message edits s' _ done :=
      callsOf_queueEdits edits s' (hsame.trans hrefs)
    refine ⟨edits, done, List.prefix_rfl, hdone, ⟨_, hqueued, hcalls⟩, ?_⟩
    intro hreturned
    rw [hplay] at hreturned
    exact ⟨rfl, hall hreturned⟩
  · -- a name could not be locked, so no update was asked for
    refine ⟨locked, [], hfirst, List.nil_prefix, ⟨[], .nil, ?_⟩, fun h => absurd h hfailed⟩
    rw [hcalls, List.append_nil]

/-! ## No name at all -/

section Paired

variable {α β : Type} {R : α → β → Prop} {as : List α} {bs : List β}

/-- What is on the right stands beside something on the left. -/
theorem exists_of_forall₂_right (h : List.Forall₂ R as bs) : ∀ b ∈ bs, ∃ a ∈ as, R a b := by
  induction h with
  | nil => exact fun b hb => absurd hb List.not_mem_nil
  | cons hR _ ih =>
      refine List.forall_mem_cons.mpr ⟨⟨_, List.mem_cons_self, hR⟩, ?_⟩
      intro b hb
      obtain ⟨a, ha, hab⟩ := ih b hb
      exact ⟨a, List.mem_cons_of_mem _ ha, hab⟩

/-- What is on the left stands beside something on the right. -/
theorem exists_of_forall₂_left (h : List.Forall₂ R as bs) : ∀ a ∈ as, ∃ b ∈ bs, R a b :=
  exists_of_forall₂_right (R := flip R) h.flip

end Paired

namespace Conducted

variable {updates : List String} {edits locked done : List RefEdit} {returned : Prop}
  {calls : List (ThreadId × TxnCall)} {name : String}

/-- Only a bare specification makes the command ask for no name at all. -/
theorem exists_bare (h : Conducted r message edits returned calls locked done)
    (hread : List.Forall₂ (fun spec e => RefEdit.parse spec = .ok e) updates edits)
    (hmem : (1, .symbolic name "" none message) ∈ calls) : ∃ spec ∈ updates, Bare spec := by
  obtain ⟨queued, hqueued, hcalls⟩ := h.calls
  rw [hcalls, List.mem_append] at hmem
  rcases hmem with hlock | hqueue
  · obtain ⟨e, -, hlock⟩ := List.mem_map.mp hlock
    cases hlock
  · obtain ⟨e, hdone, hasked⟩ := exists_of_forall₂_right hqueued _ hqueue
    cases hasked
    obtain ⟨spec, hspec, hparse⟩ :=
      exists_of_forall₂_right hread _ (h.firstDone.subset hdone)
    refine ⟨spec, hspec, ?_⟩
    -- a canonical edit has a target
    by_contra hnot
    exact RefEdit.not_canonical_bare ((RefEdit.parse_wellFormed hparse).2.1.mpr hnot)

/-- Every bare specification makes it do so, unless a call fails before. -/
theorem exists_call (h : Conducted r message edits returned calls locked done)
    (hread : List.Forall₂ (fun spec e => RefEdit.parse spec = .ok e) updates edits)
    (hreturned : returned) {spec : String} (hspec : spec ∈ updates) (hbare : Bare spec) :
    ∃ name, (1, .symbolic name "" none message) ∈ calls := by
  obtain ⟨queued, hqueued, hcalls⟩ := h.calls
  obtain ⟨⟨name, action⟩, hedit, hparse⟩ := exists_of_forall₂_left hread _ hspec
  have hempty : action = .symbolic "" := (RefEdit.parse_wellFormed hparse).2.2 hbare
  subst hempty
  rw [← (h.all hreturned).2] at hedit
  obtain ⟨c, hc, hasked⟩ := exists_of_forall₂_left hqueued _ hedit
  cases hasked
  rw [hcalls]
  exact ⟨name, List.mem_append_right _ hc⟩

end Conducted

/-- What a command asks for that has read its specifications as edits. -/
structure Requested (r : Repo) (message : Option String) (updates : List String)
    (edits : List RefEdit) (returned : Prop) (calls : List (ThreadId × TxnCall)) : Prop where
  read : List.Forall₂ (fun spec e => RefEdit.parse spec = .ok e) updates edits
  conducted : ∃ locked done, Conducted r message edits returned calls locked done
  /-- Without a bare specification no reference is asked to follow no name. -/
  bare : (∃ name, (1, .symbolic name "" none message) ∈ calls) → ∃ spec ∈ updates, Bare spec
  asked : returned → (∃ spec ∈ updates, Bare spec) →
    ∃ name, (1, .symbolic name "" none message) ∈ calls

/-- What was asked for, read against the specifications. -/
theorem Conducted.requested {updates : List String} {edits locked done : List RefEdit}
    {returned : Prop} {calls : List (ThreadId × TxnCall)}
    (h : Conducted r message edits returned calls locked done)
    (hread : List.Forall₂ (fun spec e => RefEdit.parse spec = .ok e) updates edits) :
    Requested r message updates edits returned calls where
  read := hread
  conducted := ⟨locked, done, h⟩
  bare := by
    rintro ⟨name, hmem⟩
    exact h.exists_bare hread hmem
  asked := by
    rintro hreturned ⟨spec, hspec, hbare⟩
    exact h.exists_call hread hreturned hspec hbare

/-- **An accepted command line asks for canonical edits, as far as it is not bare.**

    The edit that is read from a specification has a name that is not empty, has no
    blanks at its ends and no equals sign in it.  It is canonical exactly if the
    specification is not bare, and a bare one makes a reference symbolic without a
    name to follow.

    The command, on whatever workbench: it finds no repository or no configuration,
    or a specification cannot be read, and then it does nothing; or all of them are
    read, and its scope makes the calls of the edits in their order up to the first
    that fails.  So it asks for a symbolic reference to no name at all only if a
    specification is bare, and if it succeeds, exactly then. -/
theorem accepted_specification (x : Context) (message : Option String) (w : Workbench)
    (console : Console) :
    (∀ spec e, RefEdit.parse spec = .ok e → Nameable e.refname
        ∧ (e.Canonical ↔ ¬ Bare spec) ∧ (Bare spec → e.action = .symbolic ""))
      ∧ ((∃ f, ∀ updates,
          (x.updateRefs updates message).run ⟨w, console⟩ = (.error f, ⟨w, console⟩))
        ∨ ∃ dir r c, x.Sees w.disk dir r c ∧ ∀ updates,
          let ended := (x.updateRefs updates message).run ⟨w, console⟩
          let start := scopeStart w r c.reflogMessage
          (∃ spec ∈ updates, ∃ e, RefEdit.parse spec = .error e)
              ∧ (∃ f, ended = (.error f, ⟨w, console⟩))
            ∨ ∃ edits, EndsWith w dir r
                (start.run 1 Failure.ofError (Context.applyEdits r message edits)) ended
              ∧ Requested r message updates edits (ended.1 = .ok ())
                (start.callsOf (Context.applyEdits r message edits))) := by
  refine ⟨fun spec e => RefEdit.parse_wellFormed, ?_⟩
  rcases x.updateRefs_cases message w console with hnever | ⟨dir, r, c, hsees, hrun⟩
  · exact Or.inl hnever
  right
  refine ⟨dir, r, c, hsees, fun updates => ?_⟩
  intro ended start
  cases hread : updates.mapM RefEdit.parse with
  | error e => exact Or.inl ⟨exists_unread hread, (hrun updates).1 e hread⟩
  | ok edits =>
      have hends : EndsWith w dir r _ ended := (hrun updates).2 edits hread
      have hstart : start.refs = r.refs := rfl
      obtain ⟨locked, done, hcalls⟩ : ∃ locked done, Conducted r message edits _ _ locked done :=
        callsOf_applyEdits edits hstart
      have hconducted : Conducted r message edits (ended.1 = .ok ()) _ locked done :=
        hcalls.of_returned fun hok => Session.played_of_run (hends.result.mp hok)
      exact Or.inr ⟨edits, hends, hconducted.requested (mapM_parse_eq_ok.mp hread)⟩

namespace Swap

theorem read_bare : RefEdit.parse "A=ref:" = .ok ⟨"A", .symbolic ""⟩ := rfl

theorem bare : Bare "A=ref:" := by
  refine ⟨"A", .none, ⟨by decide, .of_trim (by decide), by decide⟩, ?_⟩
  rw [RefEdit.written_none]
  rfl

theorem updateRefs_bare :
    ((context.updateRefs ["A=ref:"] none).run ⟨Workbench.run actions, .empty⟩).1 = .ok () := by
  decide +kernel

end Swap

/-- A specification with blanks is canonical; a bare one asks for no name. -/
theorem accepted_specification_swap :
    RefEdit.parse " A\t= ref: B " = .ok ⟨"A", .symbolic "B"⟩ ∧ ¬ Bare " A\t= ref: B "
      ∧ ∃ c name, (1, .symbolic name "" none none)
        ∈ (scopeStart (Workbench.run Swap.actions) Swap.repo c).callsOf
          (Context.applyEdits Swap.repo none [⟨"A", .symbolic ""⟩]) := by
  have hparse : RefEdit.parse " A\t= ref: B " = .ok ⟨"A", .symbolic "B"⟩ := rfl
  have hcanonical : RefEdit.Canonical ⟨"A", .symbolic "B"⟩ :=
    ⟨⟨by decide, .of_trim (by decide), by decide⟩, .symbolic (by decide) (.of_trim (by decide))⟩
  obtain ⟨hread, hcommand⟩ :=
    accepted_specification Swap.context none (Workbench.run Swap.actions) .empty
  refine ⟨hparse, (hread _ _ hparse).2.1.mp hcanonical, ?_⟩
  rcases hcommand with ⟨f, hnever⟩ | ⟨dir, r, c, hsees, hrun⟩
  · have hok := Swap.updateRefs_bare
    rw [hnever] at hok
    cases hok
  obtain rfl : Swap.repo = r := by
    obtain rfl : "/r" = dir := Except.ok.inj (Swap.found.symm.trans hsees.found)
    exact Option.some.inj (Swap.there.symm.trans hsees.repo)
  rcases hrun ["A=ref:"] with ⟨-, f, hfailed⟩ | ⟨edits, -, hrequested⟩
  · have hok := Swap.updateRefs_bare
    rw [hfailed] at hok
    cases hok
  obtain rfl : [⟨"A", .symbolic ""⟩] = edits :=
    Except.ok.inj ((mapM_parse_eq_ok.mpr (.cons Swap.read_bare .nil)).symm.trans
      (mapM_parse_eq_ok.mpr hrequested.read))
  exact ⟨c.reflogMessage,
    hrequested.asked Swap.updateRefs_bare ⟨"A=ref:", List.mem_cons_self, Swap.bare⟩⟩

/-- A specification without a name behind the mark is accepted, and the reference is
    lost: afterwards nobody can read it. -/
theorem bare_specification_destroys :
    RefEdit.parse "A=ref:" = .ok ⟨"A", .symbolic ""⟩
      ∧ ¬ RefEdit.Canonical ⟨"A", .symbolic ""⟩
      ∧ Swap.repo.refs.find "A" = .ok (.direct Swap.one)
      ∧ ((Swap.context.updateRefs ["A=ref:"] none).run ⟨Workbench.run Swap.actions, .empty⟩).1
        = .ok ()
      ∧ (((Swap.context.updateRefs ["A=ref:"] none).run
          ⟨Workbench.run Swap.actions, .empty⟩).2.bench.disk.repo? "/r").map (·.refs.find "A")
        = some (.error (.generic "corrupted reference")) := by
  refine ⟨Swap.read_bare, RefEdit.not_canonical_bare, ?_, Swap.updateRefs_bare, ?_⟩
  · rfl
  · decide +kernel

end Cli

end Gitwork
