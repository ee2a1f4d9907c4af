import Gitwork.Proofs.Error
import Gitwork.Proofs.Ref.Values
import Gitwork.Ref.Transaction

/-! # A commit, step by step

    `Transaction.apply` runs without a pause.  Here it is cut into steps, one
    for each thing it asks of the disk, and between two steps other programs
    may do as they like, except that they leave the names alone whose locks
    on disk are taken (`Transaction.Reaches`).  A commit that nobody disturbs is
    `Transaction.apply` (`Transaction.apply_ends`), loop for loop. -/

namespace Gitwork

/-- How a commit ends. -/
inductive Exit
  /-- There is nothing to do. -/
  | idle
  | unopened (e : NativeError)
  | unlockable (name : String) (e : NativeError)
  | unreadable (name : String) (e : NativeError)
  | changed (name : String)
  | unqueued (e : NativeError)
  | unwritten (first : String) (e : NativeError)
  | written
deriving DecidableEq, Repr

/-- What the caller is told. -/
def Exit.result : Exit → Except Error Unit
  | idle | written => .ok ()
  | unopened e | unreadable _ e | unqueued e => .error (.ofNative e)
  | unlockable name e | unwritten name e => .error (Transaction.lockError e name)
  | changed name => .error (.refChanged name)

/-- Whether the disk let the commit lock and read all names. -/
def Exit.Looked : Exit → Prop
  | unopened _ | unlockable .. | unreadable .. => False
  | _ => True

/-- What a change asks to be there. -/
def Mutation.value? : Mutation → Option RefValue
  | .target id => some (.direct id)
  | .symbolic name => some (.symbolic name)
  | .remove => none

namespace Transaction

/-- A change to make: its name, what is known of the name, and the update. -/
abbrev Pending := String × LockedRef × Update

/-- Where a commit stands; with the names or changes that are still to come. -/
inductive Stage
  | starting (refs : RefStore)
  | locking (b : RefBatch) (rest : List String)
  | comparing (b : RefBatch) (rest : List Pending)
  | queueing (b : RefBatch) (rest : List Pending)
  | writing (b : RefBatch)

namespace Stage

def refs : Stage → RefStore
  | starting refs => refs
  | locking b _ | comparing b _ | queueing b _ | writing b => b.refs

/-- The names whose locks on disk the commit has. -/
def taken : Stage → List String
  | starting _ => []
  | locking b _ | comparing b _ | queueing b _ | writing b => b.taken

def setRefs (refs : RefStore) : Stage → Stage
  | starting _ => starting refs
  | locking b rest => locking { b with refs } rest
  | comparing b rest => comparing { b with refs } rest
  | queueing b rest => queueing { b with refs } rest
  | writing b => writing { b with refs }

end Stage

/-- The next step of a commit, or its end. -/
def step (t : Transaction) : Stage → Stage ⊕ (Exit × RefStore)
  | .starting refs =>
    match t.pending with
    | [] => .inr (.idle, refs)
    | pending@(_ :: _) =>
      match RefBatch.begin refs with
      | .error e => .inr (.unopened e, refs)
      | .ok b => .inl (.locking b (pending.map (·.1)))
  | .locking b [] => .inl (.comparing b t.pending)
  | .locking b (name :: rest) =>
    match b.lock name with
    | .error e => .inr (.unlockable name e, b.drop)
    | .ok b => .inl (.locking b rest)
  | .comparing b [] => .inl (.queueing b t.pending)
  | .comparing b ((name, locked, _) :: rest) =>
    match b.refs.find? name with
    | .error e => .inr (.unreadable name e, b.drop)
    | .ok current =>
      if current = locked.observed then .inl (.comparing b rest)
      else .inr (.changed name, b.drop)
  | .queueing b [] => .inl (.writing b)
  | .queueing b ((name, _, u) :: rest) =>
    match changeOf b.refs t.defaultMessage u >>= b.queue name with
    | .error e => .inr (.unqueued e, b.drop)
    | .ok b => .inl (.queueing b rest)
  | .writing b =>
    match b.commit with
    | .error e => .inr (.unwritten ((t.pending.map (·.1)).headD "") e, b.drop)
    | .ok refs => .inr (.written, refs)

/-- A commit gets from one stage to another.  In between, other programs change
    the disk; they respect the locks that the commit has. -/
inductive Reaches (t : Transaction) : Stage → Stage → Prop
  | here (x : Stage) : Reaches t x x
  | own {x y z : Stage} : Reaches t x y → t.step y = .inl z → Reaches t x z
  | others {x y : Stage} {refs : RefStore} : Reaches t x y →
      (∀ name ∈ y.taken, refs.get? name = y.refs.get? name) → Reaches t x (y.setRefs refs)

/-- A commit can end like this. -/
def Ends (t : Transaction) (x : Stage) (exit : Exit) (after : RefStore) : Prop :=
  ∃ y, Reaches t x y ∧ t.step y = .inr (exit, after)

/-! ## What a step does

    One equation for each answer that the disk can give at a stage.  The runs
    below follow the steps through these, and do not open `step` again. -/

section Steps

variable {t : Transaction} {refs after : RefStore} {b b' : RefBatch} {name : String}
  {names : List String} {locked : LockedRef} {u : Update} {rest : List Pending}
  {current : Option RefValue} {e : NativeError}

/-- Without changes there is nothing to begin. -/
theorem step_idle (hpending : t.pending = []) : t.step (.starting refs) = .inr (.idle, refs) := by
  unfold step
  dsimp only
  rw [hpending]

theorem step_unopened (hsome : t.pending ≠ []) (hbegin : RefBatch.begin refs = .error e) :
    t.step (.starting refs) = .inr (.unopened e, refs) := by
  cases hpending : t.pending with
  | nil => exact absurd hpending hsome
  | cons p rest =>
      unfold step
      dsimp only
      rw [hpending, hbegin]

/-- A batch that begins has all names to lock. -/
theorem step_begins (hsome : t.pending ≠ []) (hbegin : RefBatch.begin refs = .ok b) :
    t.step (.starting refs) = .inl (.locking b (t.pending.map (·.1))) := by
  cases hpending : t.pending with
  | nil => exact absurd hpending hsome
  | cons p rest =>
      unfold step
      dsimp only
      rw [hpending, hbegin]

theorem step_unlockable (hlock : b.lock name = .error e) :
    t.step (.locking b (name :: names)) = .inr (.unlockable name e, b.drop) := by
  unfold step
  dsimp only
  rw [hlock]

/-- A name that is locked leaves the names after it. -/
theorem step_locks (hlock : b.lock name = .ok b') :
    t.step (.locking b (name :: names)) = .inl (.locking b' names) := by
  unfold step
  dsimp only
  rw [hlock]

theorem step_unreadable (hfind : b.refs.find? name = .error e) :
    t.step (.comparing b ((name, locked, u) :: rest)) = .inr (.unreadable name e, b.drop) := by
  unfold step
  dsimp only
  rw [hfind]

/-- A reference that is as it was observed leaves those after it. -/
theorem step_agrees (hfind : b.refs.find? name = .ok current)
    (hsame : current = locked.observed) :
    t.step (.comparing b ((name, locked, u) :: rest)) = .inl (.comparing b rest) := by
  unfold step
  dsimp only
  rw [hfind]
  exact if_pos hsame

/-- A reference that moved ends the commit. -/
theorem step_changed (hfind : b.refs.find? name = .ok current)
    (hmoved : current ≠ locked.observed) :
    t.step (.comparing b ((name, locked, u) :: rest)) = .inr (.changed name, b.drop) := by
  unfold step
  dsimp only
  rw [hfind]
  exact if_neg hmoved

theorem step_unqueued (hqueue : changeOf b.refs t.defaultMessage u >>= b.queue name = .error e) :
    t.step (.queueing b ((name, locked, u) :: rest)) = .inr (.unqueued e, b.drop) := by
  unfold step
  dsimp only
  rw [hqueue]

/-- A change that is queued leaves those after it. -/
theorem step_queues (hqueue : changeOf b.refs t.defaultMessage u >>= b.queue name = .ok b') :
    t.step (.queueing b ((name, locked, u) :: rest)) = .inl (.queueing b' rest) := by
  unfold step
  dsimp only
  rw [hqueue]

/-- A write that fails is put down to the first name. -/
theorem step_unwritten (hcommit : b.commit = .error e) :
    t.step (.writing b) = .inr (.unwritten ((t.pending.map (·.1)).headD "") e, b.drop) := by
  unfold step
  dsimp only
  rw [hcommit]

theorem step_written (hcommit : b.commit = .ok after) :
    t.step (.writing b) = .inr (.written, after) := by
  unfold step
  dsimp only
  rw [hcommit]

end Steps

/-! ## The undisturbed commit -/

variable {t : Transaction} {x y z : Stage} {exit : Exit} {after : RefStore} {b b' : RefBatch}

/-- A run may begin with one step more. -/
theorem Reaches.first (h : t.step x = .inl y) (hy : Reaches t y z) : Reaches t x z := by
  induction hy with
  | here => exact .own (.here x) h
  | own _ hstep ih => exact .own ih hstep
  | others _ hspare ih => exact .others ih hspare

theorem Ends.first (h : t.step x = .inl y) (hy : Ends t y exit after) : Ends t x exit after := by
  obtain ⟨z, hz, hend⟩ := hy
  exact ⟨z, hz.first h, hend⟩

theorem Ends.now (h : t.step x = .inr (exit, after)) : Ends t x exit after := ⟨x, .here x, h⟩

/-- Names that are all locked lead to the comparison. -/
theorem lockAll_ok (names : List String) :
    ∀ b, lockAll b names = (.ok (), b') → Ends t (.comparing b' t.pending) exit after →
      Ends t (.locking b names) exit after := by
  induction names with
  | nil =>
      intro b hall hend
      rw [lockAll] at hall
      rw [← (Prod.mk.inj hall).2] at hend
      exact hend.first rfl
  | cons name rest ih =>
      intro b hall hend
      rw [lockAll] at hall
      cases hlock : b.lock name with
      | error e =>
          rw [hlock] at hall
          exact nomatch (Prod.mk.inj hall).1
      | ok c =>
          rw [hlock] at hall
          exact (ih c hall hend).first (step_locks hlock)

/-- A name that cannot be locked ends the run, with the locks dropped. -/
theorem lockAll_error {e : Error} (names : List String) :
    ∀ b, lockAll b names = (.error e, b') →
      ∃ exit, Ends t (.locking b names) exit b'.drop ∧ exit.result = .error e := by
  induction names with
  | nil =>
      intro b hall
      exact nomatch (Prod.mk.inj hall).1
  | cons name rest ih =>
      intro b hall
      rw [lockAll] at hall
      cases hlock : b.lock name with
      | error native =>
          rw [hlock] at hall
          obtain ⟨he, rfl⟩ := Prod.mk.inj hall
          exact ⟨.unlockable name native, Ends.now (step_unlockable hlock), he⟩
      | ok c =>
          rw [hlock] at hall
          obtain ⟨exit, hend, hresult⟩ := ih c hall
          exact ⟨exit, hend.first (step_locks hlock), hresult⟩

/-- References that all compare lead to the queueing. -/
theorem compareAll_ok (rest : List Pending) (hall : compareAll b.refs rest = .ok ())
    (hend : Ends t (.queueing b t.pending) exit after) : Ends t (.comparing b rest) exit after := by
  induction rest with
  | nil => exact hend.first rfl
  | cons p rest ih =>
      obtain ⟨name, locked, u⟩ := p
      rw [compareAll] at hall
      cases hfind : b.refs.find? name with
      | error e =>
          rw [hfind] at hall
          exact nomatch hall
      | ok current =>
          rw [hfind] at hall
          -- the step and the loop make the same comparison
          by_cases hsame : current = locked.observed
          · have hrest : compareAll b.refs rest = .ok () := by
              rw [← hall]
              show _ = (if current = locked.observed then _ else _)
              rw [if_pos hsame]
            exact (ih hrest).first (step_agrees hfind hsame)
          · have hfail : (if current = locked.observed then compareAll b.refs rest
                else throw (.refChanged name)) = .ok () := hall
            rw [if_neg hsame] at hfail
            exact nomatch hfail

/-- A reference that moved or cannot be read ends the run, with the locks dropped. -/
theorem compareAll_error {e : Error} (rest : List Pending)
    (hall : compareAll b.refs rest = .error e) :
    ∃ exit, Ends t (.comparing b rest) exit b.drop ∧ exit.result = .error e := by
  induction rest with
  | nil => exact nomatch hall
  | cons p rest ih =>
      obtain ⟨name, locked, u⟩ := p
      rw [compareAll] at hall
      cases hfind : b.refs.find? name with
      | error native =>
          rw [hfind] at hall
          exact ⟨.unreadable name native, Ends.now (step_unreadable hfind), hall⟩
      | ok current =>
          rw [hfind] at hall
          have hall : (if current = locked.observed then compareAll b.refs rest
              else throw (.refChanged name)) = .error e := hall
          by_cases hsame : current = locked.observed
          · rw [if_pos hsame] at hall
            obtain ⟨exit, hend, hresult⟩ := ih hall
            exact ⟨exit, hend.first (step_agrees hfind hsame), hresult⟩
          · rw [if_neg hsame] at hall
            exact ⟨.changed name, Ends.now (step_changed hfind hsame), hall⟩

/-- Updates that are all queued lead to the write. -/
theorem queueAll_ok (rest : List Pending) :
    ∀ b, queueAll t.defaultMessage b rest = .ok b' → Ends t (.writing b') exit after →
      Ends t (.queueing b rest) exit after := by
  induction rest with
  | nil =>
      intro b hall hend
      rw [← Except.ok.inj hall] at hend
      exact hend.first rfl
  | cons p rest ih =>
      obtain ⟨name, locked, u⟩ := p
      intro b hall hend
      cases hqueue : changeOf b.refs t.defaultMessage u >>= b.queue name with
      | error e =>
          rw [queueAll, ← bind_assoc, hqueue] at hall
          exact nomatch hall
      | ok c =>
          rw [queueAll, ← bind_assoc, hqueue] at hall
          exact (ih c hall hend).first (step_queues hqueue)

/-- Queueing adds a change to a batch and leaves the rest of it alone. -/
theorem queue_ok {name : String} {u : Update}
    (h : changeOf b.refs t.defaultMessage u >>= b.queue name = .ok b') :
    ∃ change, changeOf b.refs t.defaultMessage u = .ok change
      ∧ b' = { b with changes := (name, change) :: b.changes } := by
  obtain ⟨change, hchange, hqueue⟩ := bind_eq_ok_iff.mp h
  rcases b.queue_cases name change with ⟨e, hq⟩ | hq
  · rw [hq] at hqueue
    cases hqueue
  · rw [hq] at hqueue
    exact ⟨change, hchange, (Except.ok.inj hqueue).symm⟩

/-- An update that cannot be queued ends the run, with the locks dropped. -/
theorem queueAll_error {e : NativeError} (rest : List Pending) :
    ∀ b, queueAll t.defaultMessage b rest = .error e →
      ∃ exit, Ends t (.queueing b rest) exit b.drop ∧ exit.result = .error (.ofNative e) := by
  induction rest with
  | nil => exact fun b hall => nomatch hall
  | cons p rest ih =>
      obtain ⟨name, locked, u⟩ := p
      intro b hall
      cases hqueue : changeOf b.refs t.defaultMessage u >>= b.queue name with
      | error native =>
          rw [queueAll, ← bind_assoc, hqueue] at hall
          refine ⟨.unqueued native, Ends.now (step_unqueued hqueue), ?_⟩
          rw [Except.error.inj hall]
          rfl
      | ok c =>
          rw [queueAll, ← bind_assoc, hqueue] at hall
          obtain ⟨exit, hend, hresult⟩ := ih c hall
          obtain ⟨change, -, rfl⟩ := queue_ok hqueue
          exact ⟨exit, hend.first (step_queues hqueue), hresult⟩

/-- What `apply` does when there is something to do. -/
theorem apply_pending (hsome : t.pending ≠ []) (refs : RefStore) :
    t.apply refs = match RefBatch.begin refs with
      | .error e => (.error (.ofNative e), refs)
      | .ok b =>
        match lockAll b (t.pending.map (·.1)) with
        | (.error e, b) => (.error e, b.drop)
        | (.ok (), b) =>
          match compareAll b.refs t.pending with
          | .error e => (.error e, b.drop)
          | .ok () =>
            match queueAll t.defaultMessage b t.pending with
            | .error e => (.error (.ofNative e), b.drop)
            | .ok b =>
              match b.commit with
              | .error e => (.error (lockError e ((t.pending.map (·.1)).headD "")), b.drop)
              | .ok refs => (.ok (), refs) := by
  rw [apply]
  cases hpending : t.pending with
  | nil => exact absurd hpending hsome
  | cons p rest => rfl

/-- **An undisturbed commit is `Transaction.apply`.** -/
theorem apply_ends (t : Transaction) (refs : RefStore) :
    ∃ exit, Ends t (.starting refs) exit (t.apply refs).2 ∧ exit.result = (t.apply refs).1 := by
  by_cases hsome : t.pending = []
  · refine ⟨.idle, Ends.now ?_, ?_⟩
    · simp only [apply, hsome, step_idle]
    · simp only [apply, hsome, Exit.result]
  rw [apply_pending hsome]
  cases hbegin : RefBatch.begin refs with
  | error e => exact ⟨.unopened e, Ends.now (step_unopened hsome hbegin), rfl⟩
  | ok b =>
      have hstart : t.step (.starting refs) = .inl (.locking b (t.pending.map (·.1))) :=
        step_begins hsome hbegin
      simp only
      cases hlock : lockAll b (t.pending.map (·.1)) with
      | mk result b =>
          cases result with
          | error e =>
              obtain ⟨exit, hend, hresult⟩ := lockAll_error (t := t) _ _ hlock
              exact ⟨exit, hend.first hstart, hresult⟩
          | ok u =>
              -- from here on it is enough to follow the commit from where all locks are taken
              have hlocked : ∀ {exit after}, Ends t (.comparing b t.pending) exit after →
                  Ends t (.starting refs) exit after :=
                fun hend => (lockAll_ok _ _ hlock hend).first hstart
              simp only
              cases hcompare : compareAll b.refs t.pending with
              | error e =>
                  obtain ⟨exit, hend, hresult⟩ := compareAll_error (t := t) _ hcompare
                  exact ⟨exit, hlocked hend, hresult⟩
              | ok u =>
                  simp only
                  cases hqueue : queueAll t.defaultMessage b t.pending with
                  | error e =>
                      obtain ⟨exit, hend, hresult⟩ := queueAll_error _ _ hqueue
                      exact ⟨exit, hlocked (compareAll_ok _ hcompare hend), hresult⟩
                  | ok c =>
                      -- and here, from where all changes are queued
                      have hqueued : ∀ {exit after}, Ends t (.writing c) exit after →
                          Ends t (.starting refs) exit after :=
                        fun hend => hlocked (compareAll_ok _ hcompare (queueAll_ok _ _ hqueue hend))
                      simp only
                      cases hcommit : c.commit with
                      | error e =>
                          exact ⟨.unwritten _ e, hqueued (Ends.now (step_unwritten hcommit)), rfl⟩
                      | ok after =>
                          exact ⟨.written, hqueued (Ends.now (step_written hcommit)), rfl⟩

end Transaction

end Gitwork
