import Gitwork.Proofs.Ref.AllOrNothing
import Gitwork.Proofs.Ref.LifeCycle

/-! # Scopes commit on success and always let go

    A scope runs a body on a transaction.  The body is a program: it makes calls
    from any threads, looks at their results, and may commit or roll back itself;
    then it returns, fails or panics.  Here a scope is taken apart into the calls
    that it makes, in a row, and the drop of the transaction after them
    (`Session.run_eq`).

    * a call changes references only if it is a commit that succeeds
      (`Accounts.call_refs`), so along a row of calls nothing else does
      (`Accounts.after_refs`);
    * no call loses a key, and the drop gives the last ones back; so after the
      scope the lock table has the keys of others (`Accounts.run_held`);
    * the result of the body decides which call the scope adds to those of the
      body (`Session.ownCalls`), and with the result of that call also the result
      of the scope (`Session.run_result`). -/

namespace Gitwork

namespace Session

variable {ε α : Type} {s : Session} {others : List LockKey}

/-! ## Calls in a row -/

/-- The session after some calls, each from a thread. -/
def after (s : Session) (calls : List (ThreadId × TxnCall)) : Session :=
  calls.foldl (fun s c => (s.call c.1 c.2).2) s

theorem after_append (s : Session) (calls more : List (ThreadId × TxnCall)) :
    s.after (calls ++ more) = (s.after calls).after more := List.foldl_append

/-- The calls that a body makes. -/
def callsOf : Session → TxnBody ε α → List (ThreadId × TxnCall)
  | _, .done _ | _, .fail _ | _, .panic => []
  | s, .call caller c next =>
    (caller, c) :: (s.call caller c).2.callsOf (next (s.call caller c).1)
  | s, .look next => s.callsOf (next s.refs)

/-- A body does what its calls do, in a row. -/
theorem play_eq (body : TxnBody ε α) : ∀ s : Session, (s.play body).2 = s.after (s.callsOf body) := by
  induction body with
  | done v => exact fun _ => rfl
  | fail e => exact fun _ => rfl
  | panic => exact fun _ => rfl
  | call caller c next ih => exact fun s => ih (s.call caller c).1 (s.call caller c).2
  | look next ih => exact fun s => ih s.refs s

/-! ### Their effect on references -/

/-- A call changes references only if it is a commit that succeeds. -/
theorem Accounts.call_refs (h : s.Accounts others) (caller : ThreadId) (c : TxnCall) :
    (s.call caller c).2.refs = s.refs ∨ c = .commit ∧ (s.call caller c).1 = .ok () := by
  by_cases hcaller : caller = s.txn.owner
  · subst hcaller
    by_cases hopen : s.txn.state = .opened
    · obtain ⟨result, after, hcall, houtcome⟩ := call_outcome hopen c
      rw [hcall]
      cases houtcome with
      | nothing | locked | queued | rolledBack => exact Or.inl rfl
      | committed refs => exact Or.inr ⟨rfl, rfl⟩
      | failed e refs =>
          -- what a commit has locked and compared before it failed leaves no trace
          left
          rcases s.txn.apply_cases h.wellFormed.ordered s.refs with
            ⟨e', happly, -⟩ | ⟨refs', happly, -⟩
          · have hcommit := commit_failed hopen happly
            exact congrArg (·.2.refs) (hcall.symm.trans hcommit)
          · have hcommit := commit_committed hopen happly
            cases hcall.symm.trans hcommit
    · rw [call_over hopen]
      exact Or.inl rfl
  · rw [call_foreign hcaller]
    exact Or.inl rfl

/-- No call keeps a lock on disk. -/
theorem Accounts.call_locked (h : s.Accounts others) (caller : ThreadId) (c : TxnCall) :
    (s.call caller c).2.refs.locked = s.refs.locked := by
  -- only a commit that succeeds writes, and it touches no lock file
  rcases h.call_refs caller c with hsame | ⟨rfl, hok⟩
  · rw [hsame]
  · have hcommit : (s.commit caller).1 = .ok () := hok
    show (s.commit caller).2.refs.locked = _
    rcases s.commit_cases caller with ⟨e, hc⟩ | ⟨-, ⟨refs, happly, hc⟩ | ⟨e, refs, -, hc⟩⟩
    · rw [hc]
    · rw [hc]
      rcases s.txn.apply_cases h.wellFormed.ordered s.refs with
        ⟨e, happly', -⟩ | ⟨refs', happly', -, -, -, hlocked⟩
      · cases happly.symm.trans happly'
      · cases happly.symm.trans happly'
        exact hlocked
    · rw [hc] at hcommit
      cases hcommit

/-- One of some calls is a commit that succeeds. -/
def Commits (s : Session) (calls : List (ThreadId × TxnCall)) : Prop :=
  ∃ earlier caller later, calls = earlier ++ (caller, .commit) :: later
    ∧ ((s.after earlier).call caller .commit).1 = .ok ()

/-- A commit that succeeds later is one of all calls. -/
theorem Commits.cons {caller : ThreadId} {c : TxnCall} {rest : List (ThreadId × TxnCall)}
    (h : (s.call caller c).2.Commits rest) : s.Commits ((caller, c) :: rest) := by
  obtain ⟨earlier, who, later, rfl, hok⟩ := h
  exact ⟨(caller, c) :: earlier, who, later, rfl, hok⟩

namespace Accounts

theorem after (h : s.Accounts others) (calls : List (ThreadId × TxnCall)) :
    (s.after calls).Accounts others := by
  induction calls generalizing s with
  | nil => exact h
  | cons c rest ih => exact ih (h.call c.1 c.2)

/-- **Without a commit that succeeds, all references stay as they are.** -/
theorem after_refs (h : s.Accounts others) {calls : List (ThreadId × TxnCall)}
    (hnone : ¬ s.Commits calls) : (s.after calls).refs = s.refs := by
  induction calls generalizing s with
  | nil => rfl
  | cons c rest ih =>
      obtain ⟨caller, c⟩ := c
      have hrest : ¬ (s.call caller c).2.Commits rest := fun hlater => hnone hlater.cons
      rcases h.call_refs caller c with hsame | ⟨rfl, hok⟩
      · exact (ih (h.call caller c) hrest).trans hsame
      · exact absurd ⟨[], caller, rest, rfl, hok⟩ hnone

theorem after_locked (h : s.Accounts others) (calls : List (ThreadId × TxnCall)) :
    (s.after calls).refs.locked = s.refs.locked := by
  induction calls generalizing s with
  | nil => rfl
  | cons c rest ih => exact (ih (h.call c.1 c.2)).trans (h.call_locked c.1 c.2)

end Accounts

/-- No call changes the repository of a transaction. -/
theorem call_gitDir (s : Session) (caller : ThreadId) (c : TxnCall) :
    (s.call caller c).2.txn.gitDir = s.txn.gitDir := by
  by_cases hcaller : caller = s.txn.owner
  · subst hcaller
    by_cases hopen : s.txn.state = .opened
    · obtain ⟨result, after, hcall, houtcome⟩ := call_outcome hopen c
      rw [hcall]
      cases houtcome with
      | nothing | locked | queued | committed | failed | rolledBack => rfl
    · rw [call_over hopen]
  · rw [call_foreign hcaller]

theorem after_gitDir (s : Session) (calls : List (ThreadId × TxnCall)) :
    (s.after calls).txn.gitDir = s.txn.gitDir := by
  induction calls generalizing s with
  | nil => rfl
  | cons c rest ih => exact (ih (s.call c.1 c.2).2).trans (s.call_gitDir c.1 c.2)

/-- A name that a transaction has locked is locked by no one else. -/
theorem Accounts.locked_own (h : s.Accounts others) {name : String}
    (hmem : name ∈ s.txn.lockedNames) : LockKey.of s.txn.gitDir name ∉ others := by
  have hfreed := h.close_frees .rolledBack nofun hmem
  rwa [((h.close .rolledBack).ended nofun).mem_iff] at hfreed

/-! ## A scope -/

/-- The call that a scope makes on its own, after its body has ended: a commit after
    a result that leaves the transaction open, a rollback after a failure. -/
def ownCalls (s : Session) (caller : ThreadId) : Ended ε α → List (ThreadId × TxnCall)
  | .returned _ => if s.txn.state = .opened then [(caller, .commit)] else []
  | .failed _ => [(caller, .rollback)]
  | .unwound => []

/-- All calls of a scope: those of the body, then its own. -/
def scopeCalls (s : Session) (caller : ThreadId) (body : TxnBody ε α) :
    List (ThreadId × TxnCall) :=
  s.callsOf body ++ (s.play body).2.ownCalls caller (s.play body).1

/-- **A scope makes its calls and drops the transaction.** -/
theorem run_eq (s : Session) (caller : ThreadId) (ofError : Error → ε) (body : TxnBody ε α) :
    (s.run caller ofError body).2 = (s.after (s.scopeCalls caller body)).discard := by
  rw [scopeCalls, after_append, ← play_eq, run]
  cases s.play body with
  | mk ended t =>
      cases ended with
      | returned v =>
          simp only [ownCalls]
          by_cases hopen : t.txn.state = .opened
          · simp only [if_pos hopen]
            show _ = (t.commit caller).2.discard
            cases t.commit caller with
            | mk result t' =>
                cases result with
                | ok u => rfl
                | error e => rfl
          · simp only [if_neg hopen]
            rfl
      | failed e => rfl
      | unwound => rfl

/-- How a scope ends, by how its body has ended and what the commit comes to. -/
inductive Concludes (ofError : Error → ε) (t : Session) (caller : ThreadId) :
    Ended ε α → Ended ε α → Prop
  /-- The commit succeeded, or the body has ended the transaction itself. -/
  | returned (v : α) : (t.txn.state = .opened → (t.call caller .commit).1 = .ok ()) →
      Concludes ofError t caller (.returned v) (.returned v)
  | uncommitted (v : α) (e : Error) : t.txn.state = .opened →
      (t.call caller .commit).1 = .error e →
      Concludes ofError t caller (.returned v) (.failed (ofError e))
  /-- What the rollback comes to does not count. -/
  | failed (e : ε) : Concludes ofError t caller (.failed e) (.failed e)
  | unwound : Concludes ofError t caller .unwound .unwound

/-- What a scope ends with is what its body ended with, unless its own commit fails. -/
theorem run_result (s : Session) (caller : ThreadId) (ofError : Error → ε) (body : TxnBody ε α) :
    Concludes ofError (s.play body).2 caller (s.play body).1 (s.run caller ofError body).1 := by
  rw [run]
  cases s.play body with
  | mk ended t =>
      cases ended with
      | returned v =>
          by_cases hopen : t.txn.state = .opened
          · simp only [if_pos hopen]
            cases hcommit : t.commit caller with
            | mk result t' =>
                have hcall : (t.call caller .commit).1 = result := congrArg Prod.fst hcommit
                cases result with
                | ok u => exact .returned v fun _ => hcall
                | error e => exact .uncommitted v e hopen hcall
          · simp only [if_neg hopen]
            exact .returned v fun h => absurd h hopen
      | failed e => exact .failed e
      | unwound => exact .unwound

/-- A scope commits on its own exactly if its body returned with the transaction open. -/
theorem commit_mem_ownCalls (t : Session) (caller : ThreadId) (ended : Ended ε α) :
    (caller, .commit) ∈ t.ownCalls caller ended
      ↔ (∃ v, ended = .returned v) ∧ t.txn.state = .opened := by
  cases ended with
  | returned v => simp [ownCalls]
  | failed e => simp [ownCalls]
  | unwound => simp [ownCalls]

/-- A row of calls that ends with another one commits in the first part, or with
    the last call. -/
theorem Commits.of_concat {calls : List (ThreadId × TxnCall)} {caller : ThreadId} {c : TxnCall}
    (h : s.Commits (calls ++ [(caller, c)])) : s.Commits calls ∨ c = .commit := by
  obtain ⟨earlier, who, later, hcalls, hok⟩ := h
  rcases List.eq_nil_or_concat later with rfl | ⟨later', last, rfl⟩
  · exact Or.inr (Prod.mk.inj (List.append_singleton_inj.mp hcalls).2).2
  · rw [List.concat_eq_append, ← List.cons_append, ← List.append_assoc] at hcalls
    exact Or.inl ⟨earlier, who, later', (List.append_singleton_inj.mp hcalls).1, hok⟩

/-- A body that fails or panics has its own commits only. -/
theorem not_commits_scopeCalls {caller : ThreadId} {body : TxnBody ε α}
    (hended : ∀ v, (s.play body).1 ≠ .returned v) (hnone : ¬ s.Commits (s.callsOf body)) :
    ¬ s.Commits (s.scopeCalls caller body) := by
  intro hcommits
  rw [scopeCalls] at hcommits
  -- the scope adds a commit only behind a body that returned
  cases hplay : (s.play body).1 with
  | returned v => exact hended v hplay
  | failed e =>
      rw [hplay] at hcommits
      rcases hcommits.of_concat with hearlier | hlast
      · exact hnone hearlier
      · cases hlast
  | unwound =>
      rw [hplay, ownCalls, List.append_nil] at hcommits
      exact hnone hcommits

/-- What holds of a scope on a session that shares the lock table with others. -/
structure Scopes (s : Session) (others : List LockKey) (caller : ThreadId) (ofError : Error → ε)
    (body : TxnBody ε α) : Prop where
  /-- It makes the calls of its body, then its own, and drops the transaction. -/
  calls : (s.run caller ofError body).2 = (s.after (s.scopeCalls caller body)).discard
  /-- Its own call is a commit exactly if the body has returned and left the
      transaction open. -/
  commits : (caller, .commit) ∈ (s.play body).2.ownCalls caller (s.play body).1
    ↔ (∃ v, (s.play body).1 = .returned v) ∧ (s.play body).2.txn.state = .opened
  result : Concludes ofError (s.play body).2 caller (s.play body).1 (s.run caller ofError body).1
  /-- A call that changes references is a commit that succeeds. -/
  writes : ∀ earlier who c later, s.scopeCalls caller body = earlier ++ (who, c) :: later →
    ((s.after earlier).call who c).2.refs ≠ (s.after earlier).refs →
      c = .commit ∧ ((s.after earlier).call who c).1 = .ok ()
  /-- So a body that fails or panics without a commit changes none. -/
  unchanged : (∀ v, (s.play body).1 ≠ .returned v) → ¬ s.Commits (s.callsOf body) →
    (s.run caller ofError body).2.refs = s.refs
  /-- Afterwards the keys of others are in the table, each once, and no other key. -/
  held : (∀ k, k ∈ (s.run caller ofError body).2.held ↔ k ∈ others)
    ∧ (s.run caller ofError body).2.held.Nodup
  /-- No name is locked any more that the transaction had locked at some time. -/
  released : ∀ earlier later, s.scopeCalls caller body = earlier ++ later →
    ∀ name ∈ (s.after earlier).txn.lockedNames,
      LockKey.of s.txn.gitDir name ∉ (s.run caller ofError body).2.held
  unlocked : (s.run caller ofError body).2.refs.locked = s.refs.locked

/-- What holds of every scope of a session that accounts for its locks. -/
theorem Accounts.scopes (h : s.Accounts others) (caller : ThreadId) (ofError : Error → ε)
    (body : TxnBody ε α) : s.Scopes others caller ofError body := by
  have hrun := h.run caller ofError body
  have hheld := hrun.ended (run_closed s caller ofError body)
  refine ⟨s.run_eq caller ofError body, commit_mem_ownCalls _ _ _, s.run_result caller ofError body,
    ?_, ?_, ⟨fun k => hheld.mem_iff, hrun.nodup⟩, ?_, ?_⟩
  · -- the references change at a call that was a successful commit
    intro earlier who c later _ hchanged
    exact ((h.after earlier).call_refs who c).resolve_left hchanged
  · intro hended hnone
    rw [run_eq, discard_refs]
    exact h.after_refs (not_commits_scopeCalls hended hnone)
  · -- the locks a call took are held until the end of the scope
    intro earlier later _ name hname
    rw [hheld.mem_iff, ← s.after_gitDir earlier]
    exact (h.after earlier).locked_own hname
  · rw [run_eq, discard_refs]
    exact h.after_locked (s.scopeCalls caller body)

end Session

/-! ## Scopes on a workbench -/

namespace Session

/-- The order of the keys of others does not matter. -/
theorem Accounts.perm {s : Session} {others others' : List LockKey} (h : s.Accounts others)
    (hperm : others.Perm others') : s.Accounts others' :=
  ⟨h.wellFormed, h.held.trans (hperm.append_left _), h.nodup⟩

end Session

namespace Workbench

variable {w : Workbench} {name : String} {t : OpenTransaction}

/-- Dropping a transaction gives its keys back. -/
theorem act_drop (ht : w.txns.get? name = some t) : w.act (.dropTransaction name) = { w with
    held := (Session.mk t.txn w.held (RefStore.empty false default)).discard.held
    txns := w.txns.erase name } := by
  show (w.dropTransaction name).2 = _
  rw [dropTransaction, ht]

/-- The drop of a transaction leaves all other holders. -/
theorem holds_act_drop (ht : w.txns.get? name = some t) (x : Holder) (k : LockKey) :
    (w.act (.dropTransaction name)).Holds x k
      ↔ w.Holds x k ∧ ∀ refname, x ≠ .locked name refname := by
  rw [act_drop ht]
  cases x with
  | guard as => exact ⟨fun h => ⟨h, nofun⟩, And.left⟩
  | locked txn refname =>
      simp only [Holds, Table.get?_erase]
      by_cases htxn : txn = name
      · subst htxn
        simp
      · simp [htxn]

/-- A transaction on the workbench, with the keys that are left when it is dropped. -/
theorem Exclusive.accounts_drop (h : w.Exclusive) (ht : w.txns.get? name = some t)
    (refs : RefStore) :
    (Session.mk t.txn w.held refs).Accounts (w.act (.dropTransaction name)).held := by
  have hdropped := (h.accounts ht (RefStore.empty false default)).discard
  have hheld := hdropped.ended (Session.discard_closed _)
  rw [act_drop ht]
  exact (h.accounts ht refs).perm hheld.symm

/-- A scope changes the references of its repository as its session does. -/
theorem scope_session {ε α : Type} {dir : String} {r : Repo} (hr : w.disk.repo? dir = some r)
    (caller : ThreadId) (message : Option String) (ofError : Error → ε) (body : TxnBody ε α) :
    let ran := (Session.mk (newTransaction r caller message) w.held r.refs).run caller ofError body
    let scope := w.scope dir caller message ofError body
    scope.1 = ran.1 ∧ scope.2.held = ran.2.held
      ∧ ∀ other, scope.2.disk.repo? other
        = if other = dir then some { r with refs := ran.2.refs } else w.disk.repo? other := by
  intro ran scope
  have hscope : scope = (ran.1, { w with held := ran.2.held }.setRefs dir r ran.2.refs) := by
    show w.scope dir caller message ofError body = _
    rw [Workbench.scope, hr]
  rw [hscope]
  exact ⟨rfl, rfl, fun other => Table.get?_insert w.disk.repos dir other _⟩

/-- **A scope commits exactly on success and always lets go.**

    After any run, let a body run in a scope, on a transaction that has been opened
    and perhaps used before, whatever the references are by then.  Then `Scopes`
    holds: the scope makes the calls of its body, and a commit of its own exactly if
    the body returns and leaves the transaction open.  It returns the value of the
    body if that commit succeeds or is not needed, the error of the commit if that
    fails, and the error of a body that fails.  Only commits that succeed change
    references.  When the scope has returned or unwound, the lock table has the keys
    of all other holders and no other key.

    The same holds of a scope that opens its transaction itself.  If there is no
    repository in the directory, such a scope fails and does nothing. -/
theorem scope_commits_on_success (actions : List Action) :
    let w := run actions
    (∀ name t, w.txns.get? name = some t →
      (∀ k, k ∈ (w.act (.dropTransaction name)).held
        ↔ ∃ x, w.Holds x k ∧ ∀ refname, x ≠ .locked name refname)
      ∧ ∀ {ε α : Type} (refs : RefStore) (caller : ThreadId) (ofError : Error → ε)
        (body : TxnBody ε α), Session.Scopes ⟨t.txn, w.held, refs⟩
          (w.act (.dropTransaction name)).held caller ofError body)
    ∧ ∀ {ε α : Type} (dir : String) (caller : ThreadId) (message : Option String)
        (ofError : Error → ε) (body : TxnBody ε α),
      let scope := w.scope dir caller message ofError body
      (w.disk.repo? dir = none → scope = (.failed (ofError (.ofNative .notFound)), w))
      ∧ ∀ r, w.disk.repo? dir = some r →
        let s : Session := ⟨newTransaction r caller message, w.held, r.refs⟩
        s.Scopes w.held caller ofError body
          ∧ scope.1 = (s.run caller ofError body).1
          ∧ scope.2.held = (s.run caller ofError body).2.held
          ∧ ∀ other, scope.2.disk.repo? other
            = if other = dir then some { r with refs := (s.run caller ofError body).2.refs }
              else w.disk.repo? other := by
  intro w
  have h : w.Exclusive := Exclusive.run actions
  constructor
  · intro name t ht
    refine ⟨?_, fun refs caller ofError body => (h.accounts_drop ht refs).scopes caller ofError body⟩
    intro k
    rw [(h.act (.dropTransaction name)).mem_held]
    simp only [holds_act_drop ht]
  · intro ε α dir caller message ofError body scope
    refine ⟨?_, ?_⟩
    · intro hnone
      show w.scope dir caller message ofError body = _
      rw [Workbench.scope, hnone]
    · intro r hr s
      have hs := (h.accounts_new r caller message r.refs).perm h.held.symm
      exact ⟨hs.scopes caller ofError body, scope_session hr caller message ofError body⟩

/-- Locks one more name, and then panics. -/
def lockAndPanic : TxnBody Error Unit := .call 1 (.lock "A") fun _ => .panic

/-- Locks one more name, makes it a symbolic reference, and returns a number. -/
def lockAndPoint : TxnBody Error Nat :=
  .call 1 (.lock "A") fun _ => .call 1 (.symbolic "A" "refs/heads/main" none none) fun _ => .done 7

/-- The first of two transactions holds `HEAD`, and runs a scope.  A body that locks
    `A` and panics changes nothing; one that points `A` somewhere and returns a value
    is committed, so the scope returns the value and `A` is there.  Both times neither
    name is locked after that. -/
theorem scope_commits_on_success_twoBodies :
    ∃ t, (run twoTransactions).txns.get? "t" = some t ∧
      let s : Session := ⟨t.txn, (run twoTransactions).held, RefStore.empty true default⟩
      let key := LockKey.of "/r"
      (s.callsOf lockAndPanic = [(1, .lock "A")]
        ∧ (s.after [(1, .lock "A")]).txn.lockedNames = ["A", "HEAD"]
        ∧ (s.run 1 id lockAndPanic).2.refs = s.refs
        ∧ key "A" ∉ (s.run 1 id lockAndPanic).2.held
        ∧ key "HEAD" ∉ (s.run 1 id lockAndPanic).2.held)
      ∧ s.scopeCalls 1 lockAndPoint
          = [(1, .lock "A"), (1, .symbolic "A" "refs/heads/main" none none), (1, .commit)]
        ∧ (s.run 1 id lockAndPoint).1 = .returned 7
        ∧ (s.run 1 id lockAndPoint).2.refs.get? "A" = some (.symbolic "refs/heads/main")
        ∧ key "A" ∉ (s.run 1 id lockAndPoint).2.held
        ∧ key "HEAD" ∉ (s.run 1 id lockAndPoint).2.held := by
  let t : OpenTransaction := ⟨"r", ⟨"/r", 1,
    [("HEAD", ⟨⟨"/r", "HEAD"⟩, some (.symbolic "refs/heads/main"), none⟩)], .opened,
    Config.defaultReflogMessage⟩⟩
  have htxns : (run twoTransactions).txns.get? "t" = some t := rfl
  have hheld : (run twoTransactions).held = [.of "/r" "HEAD"] := rfl
  refine ⟨t, htxns, ?_⟩
  intro s key
  have hlocked : (s.after [(1, .lock "A")]).txn.lockedNames = ["A", "HEAD"] := by
    simp only [s, hheld]
    decide
  constructor
  · have hscopes := ((scope_commits_on_success twoTransactions).1 "t" t htxns).2
      (RefStore.empty true default) 1 id lockAndPanic
    have hplay : (s.play lockAndPanic).1 = .unwound := rfl
    have hcalls : s.scopeCalls 1 lockAndPanic = [(1, .lock "A")] ++ [] := rfl
    have hreleased := hscopes.released _ _ hcalls
    refine ⟨rfl, hlocked, hscopes.unchanged ?_ ?_, hreleased "A" ?_, hreleased "HEAD" ?_⟩
    · intro v hreturned
      cases hplay.symm.trans hreturned
    · rintro ⟨earlier, who, later, hone, -⟩
      have hmem : ((who, TxnCall.commit) : ThreadId × TxnCall)
          ∈ [((1 : ThreadId), TxnCall.lock "A")] := by
        have hone : [((1 : ThreadId), TxnCall.lock "A")] = earlier ++ (who, .commit) :: later := hone
        rw [hone]
        exact List.mem_append_right _ List.mem_cons_self
      cases List.mem_singleton.mp hmem
    · rw [hlocked]
      exact List.mem_cons_self
    · rw [hlocked]
      exact List.mem_cons_of_mem _ List.mem_cons_self
  · have hscopes := ((scope_commits_on_success twoTransactions).1 "t" t htxns).2
      (RefStore.empty true default) 1 id lockAndPoint
    have hreturned : (s.play lockAndPoint).1 = .returned 7 := rfl
    have hopen : (s.play lockAndPoint).2.txn.state = .opened := by
      simp only [s, hheld]
      decide
    have hcommit : ((s.play lockAndPoint).2.call 1 .commit).1 = .ok () := by
      simp only [s, hheld]
      decide
    have hcalls : s.scopeCalls 1 lockAndPoint
        = [(1, .lock "A"), (1, .symbolic "A" "refs/heads/main" none none), (1, .commit)] := by
      rw [Session.scopeCalls, hreturned, Session.ownCalls, if_pos hopen]
      rfl
    have hresult : (s.run 1 id lockAndPoint).1 = .returned 7 := by
      have hconcludes := hscopes.result
      rw [hreturned] at hconcludes
      generalize (s.run 1 id lockAndPoint).1 = result at hconcludes ⊢
      cases hconcludes with
      | returned v _ => rfl
      | uncommitted v e _ hfailed => cases hcommit.symm.trans hfailed
    have hlast : (s.after [(1, .lock "A"), (1, .symbolic "A" "refs/heads/main" none none),
        (1, .commit)]).refs.get? "A" = some (.symbolic "refs/heads/main") := by
      simp only [s, hheld]
      decide
    -- the commit comes after a first call, and both names are locked by then
    have hreleased := hscopes.released [(1, .lock "A")] _ hcalls
    refine ⟨hcalls, hresult, ?_, hreleased "A" ?_, hreleased "HEAD" ?_⟩
    · rw [hscopes.calls, hcalls, Session.discard_refs]
      exact hlast
    · rw [hlocked]
      exact List.mem_cons_self
    · rw [hlocked]
      exact List.mem_cons_of_mem _ List.mem_cons_self

end Workbench

end Gitwork
