import Gitwork.Proofs.Ref.Calls

/-! # The life of a transaction

    A transaction is open until its thread commits it or rolls it back, or
    until it is dropped.  From then on it stays as it ended.

    * a call from another thread meets the first check of its kind and does
      nothing (`Session.call_foreign`);
    * a call on a transaction that is over meets the second one
      (`Session.call_over`);
    * a call of the owner on an open transaction ends it or leaves it open, as
      its kind and its result say (`Session.call_state`), and one that fails
      without being a commit does nothing (`Session.call_failed`).

    Hence the states of a transaction, along any calls from any threads, are
    first all open and then all the same (`Session.states_cases`). -/

namespace Gitwork

namespace Session

variable {s : Session} {caller : ThreadId}

/-! ## Single calls -/

theorem discard_opened (h : s.txn.state = .opened) : s.discard = s.close .rolledBack := if_pos h

theorem discard_over (h : s.txn.state ≠ .opened) : s.discard = s := if_neg h

/-- To drop a transaction writes nothing. -/
theorem discard_refs (s : Session) : s.discard.refs = s.refs := by
  by_cases hopen : s.txn.state = .opened
  · rw [discard_opened hopen]
    rfl
  · rw [discard_over hopen]

/-- A call from a thread that is not the owner's is refused, whatever the state. -/
theorem call_foreign (h : caller ≠ s.txn.owner) (c : TxnCall) :
    s.call caller c = (.error (.threadAffinity .transaction s.txn.owner caller), s) := by
  have hthread : s.txn.checkThread caller
      = .error (.threadAffinity .transaction s.txn.owner caller) := if_neg h
  -- queueing checks first, so what is queued does not matter
  have hqueue : ∀ name u, s.settle (s.queue caller name u)
      = (.error (.threadAffinity .transaction s.txn.owner caller), s) := by
    intro name u
    rw [queue, hthread]
    rfl
  cases c with
  | lock name =>
      rw [call, lock, hthread]
      rfl
  | set name id signature message => exact hqueue name _
  | symbolic name target signature message => exact hqueue name _
  | remove name => exact hqueue name _
  | commit =>
      rw [call, commit, hthread]
      rfl
  | rollback =>
      rw [call, rollback, hthread]
      rfl

/-- On a transaction that is over, rolling back succeeds and every other call is
    refused; none does anything. -/
theorem call_over (h : s.txn.state ≠ .opened) (c : TxnCall) : s.call s.txn.owner c
    = (if c = .rollback then .ok () else .error .transactionClosed, s) := by
  -- the owner passes the check of the thread, so the state is found out
  have hthread : s.txn.checkThread s.txn.owner = .ok () := if_pos rfl
  have hopen : s.txn.checkOpen = .error .transactionClosed := if_neg h
  have hqueue : ∀ name u, s.settle (s.queue s.txn.owner name u)
      = (.error .transactionClosed, s) := by
    intro name u
    rw [queue, hthread, hopen]
    rfl
  cases c with
  | lock name =>
      rw [call, lock, hthread, hopen]
      rfl
  | set name id signature message => exact hqueue name _
  | symbolic name target signature message => exact hqueue name _
  | remove name => exact hqueue name _
  | commit =>
      rw [call, commit, hthread, hopen]
      rfl
  | rollback =>
      rw [call, rollback, hthread]
      show (Except.ok (), s.discard) = _
      rw [discard_over h, if_pos rfl]

/-- To give back a key that was just taken undoes the taking. -/
theorem release_acquired {held : LockTable} {g : RefLock} (hfree : g.key ∉ held) :
    LockTable.release (g.key :: held) g = held := by
  rw [LockTable.release, List.filter_cons, if_neg (by simp), List.filter_eq_self]
  intro k hk
  rw [bne_iff_ne]
  rintro rfl
  exact hfree hk

/-- Whether a call is one of those that end a transaction. -/
def Closes : TxnCall → Prop
  | .commit | .rollback => True
  | .lock _ | .set .. | .symbolic .. | .remove _ => False

/-- What a call of the owner on an open transaction comes to. -/
inductive Outcome (s : Session) : TxnCall → Except Error Unit → Session → Prop
  /-- It fails, or the name is locked already. -/
  | nothing (c : TxnCall) (result : Except Error Unit) : ¬ Closes c → Outcome s c result s
  | locked (name : String) (observed : Option RefValue) :
      Outcome s (.lock name) (.ok ()) (s.withLocked name observed)
  | queued (c : TxnCall) (name : String) (locked : LockedRef) (u : Update) : ¬ Closes c →
      Outcome s c (.ok ()) (s.withUpdate name locked u)
  | committed (refs : RefStore) : Outcome s .commit (.ok ()) ({ s with refs }.close .committed)
  | failed (e : Error) (refs : RefStore) :
      Outcome s .commit (.error e) ({ s with refs }.close .failed)
  | rolledBack : Outcome s .rollback (.ok ()) (s.close .rolledBack)

/-- There are no other outcomes. -/
theorem call_outcome (hopen : s.txn.state = .opened) (c : TxnCall) :
    ∃ result after, s.call s.txn.owner c = (result, after) ∧ s.Outcome c result after := by
  -- the calls that queue differ in the update only
  have hqueue : ∀ {c} name u, ¬ Closes c →
      s.call s.txn.owner c = s.settle (s.queue s.txn.owner name u) →
      ∃ result after, s.call s.txn.owner c = (result, after) ∧ s.Outcome c result after := by
    intro c name u hc hcall
    rcases s.queue_cases s.txn.owner name u with ⟨e, hq⟩ | ⟨locked, -, -, hq⟩
    · rw [hq] at hcall
      exact ⟨_, _, hcall, .nothing c _ hc⟩
    · rw [hq] at hcall
      exact ⟨_, _, hcall, .queued c name locked u hc⟩
  cases c with
  | lock name =>
      rcases s.lock_cases s.txn.owner name with ⟨e, hl⟩ | ⟨locked, -, hl⟩
        | ⟨-, -, hfree, ⟨e, -, hl⟩ | ⟨observed, -, hl⟩⟩
      · exact ⟨_, _, hl, .nothing _ _ not_false⟩
      · exact ⟨_, _, hl, .nothing _ _ not_false⟩
      · -- the key was taken before the name could not be read
        rw [release_acquired hfree] at hl
        exact ⟨_, _, hl, .nothing _ _ not_false⟩
      · exact ⟨_, _, hl, .locked name observed⟩
  | set name id signature message => exact hqueue name _ not_false rfl
  | symbolic name target signature message => exact hqueue name _ not_false rfl
  | remove name => exact hqueue name _ not_false rfl
  | commit =>
      rw [call, commit, Transaction.check_owner hopen]
      cases s.txn.apply s.refs with
      | mk result refs =>
          cases result with
          | ok u => exact ⟨_, _, rfl, .committed refs⟩
          | error e => exact ⟨_, _, rfl, .failed e refs⟩
  | rollback =>
      have hthread : s.txn.checkThread s.txn.owner = .ok () := if_pos rfl
      rw [call, rollback, hthread]
      refine ⟨.ok (), s.discard, rfl, ?_⟩
      rw [discard_opened hopen]
      exact .rolledBack

/-- A call that fails leaves everything as it was, unless it is a commit. -/
theorem call_failed {c : TxnCall} (hc : c ≠ .commit) {e : Error}
    (he : (s.call caller c).1 = .error e) : (s.call caller c).2 = s := by
  by_cases hcaller : caller = s.txn.owner
  · subst hcaller
    by_cases hopen : s.txn.state = .opened
    · obtain ⟨result, after, hcall, houtcome⟩ := call_outcome hopen c
      rw [hcall] at he ⊢
      cases houtcome with
      | nothing => rfl
      | failed => exact absurd rfl hc
      | locked | queued | committed | rolledBack => cases he
    · rw [call_over hopen]
  · rw [call_foreign hcaller]

/-- The state in which a call with this result ends a transaction. -/
def endOf : TxnCall → Except Error Unit → Option TransactionState
  | .commit, .ok () => some .committed
  | .commit, .error _ => some .failed
  | .rollback, .ok () => some .rolledBack
  | _, _ => none

/-- Calls that close nothing end nothing. -/
theorem endOf_eq_none {c : TxnCall} (hc : ¬ Closes c) (result : Except Error Unit) :
    endOf c result = none := by
  cases c with
  | commit | rollback => exact absurd trivial hc
  | lock | set | symbolic | remove => rfl

/-- No end leaves a transaction open. -/
theorem endOf_ne_opened {c : TxnCall} {result : Except Error Unit} {final : TransactionState}
    (h : endOf c result = some final) : final ≠ .opened := by
  rintro rfl
  cases c with
  | commit | rollback =>
      cases result with
      | ok u => cases h
      | error e => cases h
  | lock | set | symbolic | remove => cases h

/-- A call of the owner ends an open transaction exactly as its result says. -/
theorem call_state (hopen : s.txn.state = .opened) (c : TxnCall) :
    (s.call s.txn.owner c).2.txn.state
      = (endOf c (s.call s.txn.owner c).1).getD .opened := by
  obtain ⟨result, after, hcall, houtcome⟩ := call_outcome hopen c
  rw [hcall]
  cases houtcome with
  | nothing _ _ hc =>
      rw [endOf_eq_none hc]
      exact hopen
  | queued _ name locked u hc =>
      rw [endOf_eq_none hc]
      exact hopen
  | locked name observed => exact hopen
  | committed refs => rfl
  | failed e refs => rfl
  | rolledBack => rfl

/-- No call changes the owner. -/
theorem call_owner (s : Session) (caller : ThreadId) (c : TxnCall) :
    (s.call caller c).2.txn.owner = s.txn.owner := by
  by_cases hcaller : caller = s.txn.owner
  · subst hcaller
    by_cases hopen : s.txn.state = .opened
    · obtain ⟨result, after, hcall, houtcome⟩ := call_outcome hopen c
      rw [hcall]
      cases houtcome with
      | nothing | locked | queued | committed | failed | rolledBack => rfl
    · rw [call_over hopen]
  · rw [call_foreign hcaller]

end Session

/-! ## Lives -/

/-- What can happen to a transaction. -/
inductive TxnEvent
  | call (caller : ThreadId) (c : TxnCall)
  | drop
  /-- Other transactions lock and release names, other programs write references. -/
  | others (held : LockTable) (refs : RefStore)

namespace Session

variable {s : Session}

def step (s : Session) : TxnEvent → Session
  | .call caller c => (s.call caller c).2
  | .drop => s.discard
  | .others held refs => { s with held, refs }

def steps (s : Session) (events : List TxnEvent) : Session := events.foldl step s

/-- The states after each of some events. -/
def states : Session → List TxnEvent → List TransactionState
  | _, [] => []
  | s, e :: rest => (s.step e).txn.state :: (s.step e).states rest

/-- Whether an event ends an open transaction, and in which state. -/
def EndsBy (s : Session) : TxnEvent → TransactionState → Prop
  | .call caller c, final => caller = s.txn.owner ∧ endOf c (s.call caller c).1 = some final
  | .drop, final => final = .rolledBack
  | .others .., _ => False

/-- No event changes the owner. -/
theorem step_owner (s : Session) (e : TxnEvent) : (s.step e).txn.owner = s.txn.owner := by
  cases e with
  | call caller c => exact s.call_owner caller c
  | drop =>
      show s.discard.txn.owner = _
      by_cases hopen : s.txn.state = .opened
      · rw [discard_opened hopen]
        rfl
      · rw [discard_over hopen]
  | others held refs => rfl

theorem steps_owner (s : Session) (events : List TxnEvent) :
    (s.steps events).txn.owner = s.txn.owner := by
  induction events generalizing s with
  | nil => rfl
  | cons e rest ih => exact (ih (s.step e)).trans (s.step_owner e)

/-- An event leaves an open transaction open, or it is one that ends it. -/
theorem step_open (hopen : s.txn.state = .opened) (e : TxnEvent) :
    (s.step e).txn.state = .opened
      ∨ (s.step e).txn.state ≠ .opened ∧ s.EndsBy e (s.step e).txn.state := by
  cases e with
  | others held refs => exact Or.inl hopen
  | drop =>
      right
      show s.discard.txn.state ≠ _ ∧ s.discard.txn.state = _
      rw [discard_opened hopen]
      exact ⟨nofun, rfl⟩
  | call caller c =>
      -- a foreign thread is refused, so only the owner can end the transaction
      by_cases hcaller : caller = s.txn.owner
      · subst hcaller
        have hstate := call_state hopen c
        cases hend : endOf c (s.call s.txn.owner c).1 with
        | none =>
            rw [hend] at hstate
            exact Or.inl hstate
        | some final =>
            rw [hend] at hstate
            have hfinal : (s.call s.txn.owner c).2.txn.state = final := hstate
            right
            show (s.call s.txn.owner c).2.txn.state ≠ .opened
              ∧ s.EndsBy (.call s.txn.owner c) (s.call s.txn.owner c).2.txn.state
            rw [hfinal]
            exact ⟨endOf_ne_opened hend, rfl, hend⟩
      · left
        show (s.call caller c).2.txn.state = .opened
        rw [call_foreign hcaller]
        exact hopen

/-- An event that ends an open transaction leaves it in the state it says. -/
theorem step_ends (hopen : s.txn.state = .opened) {e : TxnEvent} {final : TransactionState}
    (h : s.EndsBy e final) : (s.step e).txn.state = final := by
  cases e with
  | others held refs => exact absurd h not_false
  | drop =>
      show s.discard.txn.state = final
      rw [discard_opened hopen]
      exact h.symm
  | call caller c =>
      obtain ⟨rfl, hend⟩ := h
      show (s.call s.txn.owner c).2.txn.state = final
      rw [call_state hopen, hend]
      rfl

/-- No event changes the state of a transaction that is over. -/
theorem step_over (hover : s.txn.state ≠ .opened) (e : TxnEvent) :
    (s.step e).txn.state = s.txn.state := by
  cases e with
  | others held refs => rfl
  | drop =>
      show s.discard.txn.state = _
      rw [discard_over hover]
  | call caller c =>
      show (s.call caller c).2.txn.state = _
      by_cases hcaller : caller = s.txn.owner
      · rw [hcaller, call_over hover]
      · rw [call_foreign hcaller]

/-- Once it is over the state does not change again. -/
theorem states_over (hover : s.txn.state ≠ .opened) (events : List TxnEvent) :
    s.states events = List.replicate events.length s.txn.state := by
  induction events generalizing s with
  | nil => rfl
  | cons e rest ih =>
      have hsame := step_over hover e
      have hover' : (s.step e).txn.state ≠ .opened := by
        rw [hsame]
        exact hover
      rw [states, ih hover', hsame]
      rfl

/-- **A transaction ends once.** -/
theorem states_cases (hopen : s.txn.state = .opened) (events : List TxnEvent) :
    s.states events = List.replicate events.length .opened
    ∨ ∃ before e after final, events = before ++ e :: after ∧ final ≠ .opened
      ∧ (s.steps before).EndsBy e final
      ∧ s.states events
        = List.replicate before.length .opened ++ List.replicate (after.length + 1) final := by
  induction events generalizing s with
  | nil => exact Or.inl rfl
  | cons e rest ih =>
      -- the first event that ends the transaction splits the run
      rcases step_open hopen e with hstill | ⟨hover, hends⟩
      · rcases ih hstill with hall | ⟨before, e', after, final, rfl, hfinal, hends, hstates⟩
        · left
          rw [states, hall, hstill]
          rfl
        · right
          refine ⟨e :: before, e', after, final, rfl, hfinal, hends, ?_⟩
          rw [states, hstates, hstill]
          rfl
      · right
        refine ⟨[], e, rest, _, rfl, hover, hends, ?_⟩
        rw [states, states_over hover]
        rfl

end Session

/-- **The life of a transaction.**

    Along any calls from any threads, whatever others do in between, its states are
    open at first and then all the same: it ends once at most, by a commit of the
    owner, as committed or failed according to the result, or rolled back by a
    rollback of the owner or by the drop; and each of these does end it while it is
    open.  At every point, a call from another thread is refused for its thread; if
    the transaction is over, a rollback of the owner succeeds and its other calls
    are refused; and each of these, and each other call that fails without being a
    commit, changes nothing at all. -/
theorem life_cycle (gitDir : String) (owner : ThreadId) (message : String) (held : LockTable)
    (refs : RefStore) (events : List TxnEvent) :
    let start : Session := ⟨.new gitDir owner message, held, refs⟩
    let s := start.steps events
    (start.states events = List.replicate events.length .opened
      ∨ ∃ before e after final, events = before ++ e :: after ∧ final ≠ .opened
        ∧ (start.steps before).EndsBy e final
        ∧ start.states events
          = List.replicate before.length .opened ++ List.replicate (after.length + 1) final)
      ∧ (∀ e final, s.txn.state = .opened → s.EndsBy e final → (s.step e).txn.state = final)
      ∧ (∀ caller c, caller ≠ owner →
        s.call caller c = (.error (.threadAffinity .transaction owner caller), s))
      ∧ (∀ c, s.txn.state ≠ .opened →
        s.call owner c = (if c = .rollback then .ok () else .error .transactionClosed, s))
      ∧ ∀ caller c e, c ≠ .commit → (s.call caller c).1 = .error e → (s.call caller c).2 = s := by
  intro start s
  have howner : s.txn.owner = owner := start.steps_owner events
  refine ⟨Session.states_cases rfl events, ?_, ?_, ?_, ?_⟩
  · intro e final hopen hends
    exact Session.step_ends hopen hends
  · intro caller c hcaller
    rw [← howner] at hcaller ⊢
    exact Session.call_foreign hcaller c
  · intro c hover
    rw [← howner]
    exact Session.call_over hover c
  · intro caller c e hc he
    exact Session.call_failed hc he

/-- A transaction that is committed by another thread, then by its own, then again. -/
def threeCommits : List TxnEvent := [.call 2 .commit, .call 1 .commit, .call 1 .commit]

/-- Only the second commit has an effect. -/
theorem life_cycle_threeCommits :
    let start : Session := ⟨.new "/r" 1 "move", [], RefStore.empty false default⟩
    let s := start.steps threeCommits
    start.states threeCommits = [.opened, .committed, .committed]
      ∧ s.call 2 (.lock "HEAD") = (.error (.threadAffinity .transaction 1 2), s)
      ∧ s.call 1 (.remove "HEAD") = (.error .transactionClosed, s)
      ∧ s.call 1 .rollback = (.ok (), s) := by
  intro start s
  have hover : s.txn.state ≠ .opened := nofun
  obtain ⟨-, -, hforeign, hclosed, -⟩ :=
    life_cycle "/r" 1 "move" [] (RefStore.empty false default) threeCommits
  exact ⟨rfl, hforeign 2 (.lock "HEAD") (by decide), hclosed (.remove "HEAD") hover,
    hclosed .rollback hover⟩

end Gitwork
