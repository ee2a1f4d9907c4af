import Gitwork.Proofs.Ref.Calls
import Gitwork.Proofs.Table

/-! # The keys of a session

    A session shares the lock table with others.  Up to the order, the table
    lists the keys of the session's guards and those of the others, each key
    once (`Session.Accounts`).

    A key is taken when a name is locked and given back in three ways: at once
    if the name cannot be read, together with all others at the end of the
    transaction, and by the drop.  Each way keeps the accounts of the session
    and leaves those of the others as they are (`Accounts.call`,
    `Accounts.run`). -/

namespace Gitwork

/-! ## The table -/

namespace LockTable

variable {held : LockTable} {others : List LockKey} {g : RefLock}

/-- Giving a key back leaves the others. -/
theorem release_perm (hp : held.Perm (g.key :: others)) (hn : held.Nodup) :
    (held.release g).Perm others := by
  -- each key is there once, so the filter takes away this one alone
  have hother : g.key ∉ others := (List.nodup_cons.mp (hp.nodup_iff.mp hn)).1
  have hkeep : (g.key :: others).filter (· != g.key) = others := by
    rw [List.filter_cons, if_neg (by simp)]
    apply List.filter_eq_self.mpr
    intro k hk
    rw [bne_iff_ne]
    rintro rfl
    exact hother hk
  have hfilter := hp.filter (· != g.key)
  rw [hkeep] at hfilter
  exact hfilter

theorem release_nodup (hn : held.Nodup) : (held.release g).Nodup := hn.filter _

/-- Giving several keys back leaves the others. -/
theorem releaseAll_perm (gs : List RefLock) (hp : held.Perm (gs.map RefLock.key ++ others))
    (hn : held.Nodup) : (held.releaseAll gs).Perm others ∧ (held.releaseAll gs).Nodup := by
  induction gs generalizing held with
  | nil => exact ⟨hp, hn⟩
  | cons g rest ih => exact ih (release_perm hp hn) (release_nodup hn)

end LockTable

/-! ## Transactions -/

/-- What holds of a transaction at all times. -/
structure Transaction.WellFormed (t : Transaction) : Prop where
  ordered : t.refs.Ordered
  /-- A transaction that is not open has no guard. -/
  closed : t.state ≠ .opened → t.refs = []
  /-- The guard of a name is the guard of that name in the repository. -/
  guard : ∀ name locked, t.refs.get? name = some locked → locked.guard = ⟨t.gitDir, name⟩

/-- The keys of the guards of a transaction. -/
def Transaction.keys (t : Transaction) : List LockKey := t.refs.map (·.2.guard.key)

theorem Transaction.WellFormed.new (gitDir : String) (owner : ThreadId) (message : String) :
    (Transaction.new gitDir owner message).WellFormed where
  ordered := Table.Ordered.nil
  closed := fun _ => rfl
  guard := fun _ _ h => nomatch h

theorem Transaction.map_key_guards (t : Transaction) : t.guards.map RefLock.key = t.keys :=
  List.map_map

/-! ## Sessions -/

namespace Session

/-- The table lists the keys of the session and those of the others, each once. -/
structure Accounts (s : Session) (others : List LockKey) : Prop where
  wellFormed : s.txn.WellFormed
  held : s.held.Perm (s.txn.keys ++ others)
  nodup : s.held.Nodup

namespace Accounts

variable {s : Session} {others : List LockKey}

/-- The references on disk do not matter. -/
theorem setRefs (h : s.Accounts others) (refs : RefStore) : Accounts { s with refs } others :=
  ⟨h.wellFormed, h.held, h.nodup⟩

/-- The end of a transaction gives all of its keys back. -/
theorem close (h : s.Accounts others) (state : TransactionState) :
    (s.close state).Accounts others := by
  have hp : s.held.Perm (s.txn.guards.map RefLock.key ++ others) := by
    rw [Transaction.map_key_guards]
    exact h.held
  obtain ⟨hheld, hnodup⟩ := LockTable.releaseAll_perm s.txn.guards hp h.nodup
  exact ⟨⟨Table.Ordered.nil, fun _ => rfl, fun _ _ hn => nomatch hn⟩, hheld, hnodup⟩

/-- To discard a session releases its own keys only. -/
theorem discard (h : s.Accounts others) : s.discard.Accounts others := by
  by_cases hopen : s.txn.state = .opened
  · rw [Session.discard, if_pos hopen]
    exact h.close .rolledBack
  · rw [Session.discard, if_neg hopen]
    exact h

/-- A key that is taken and given back at once leaves no trace. -/
theorem refused (h : s.Accounts others) {g : RefLock} (hfree : g.key ∉ s.held) :
    Accounts { s with held := LockTable.release (g.key :: s.held) g } others := by
  have hnodup : (g.key :: s.held).Nodup := List.nodup_cons.mpr ⟨hfree, h.nodup⟩
  have hback : (LockTable.release (g.key :: s.held) g).Perm s.held :=
    LockTable.release_perm (List.Perm.refl _) hnodup
  exact ⟨h.wellFormed, hback.trans h.held, LockTable.release_nodup hnodup⟩

/-- A name that was locked has its key. -/
theorem withLocked (h : s.Accounts others) {name : String} (hopen : s.txn.state = .opened)
    (hnew : s.txn.refs.get? name = none) (hfree : (s.guardOf name).key ∉ s.held)
    (observed : Option RefValue) : (s.withLocked name observed).Accounts others := by
  have hrefs := h.wellFormed.ordered.insert_perm name
    (LockedRef.mk (s.guardOf name) observed none)
  rw [Table.erase_of_get?_eq_none hnew] at hrefs
  refine ⟨⟨h.wellFormed.ordered.insert _ _, fun hclosed => absurd hopen hclosed, ?_⟩, ?_, ?_⟩
  · intro other locked hget
    rw [Session.withLocked, Table.get?_insert] at hget
    split at hget
    · next heq =>
        rw [← Option.some.inj hget, heq]
        rfl
    · exact h.wellFormed.guard other locked hget
  · have hkeys : (s.withLocked name observed).txn.keys.Perm ((s.guardOf name).key :: s.txn.keys) :=
      hrefs.map _
    exact (h.held.cons _).trans (hkeys.symm.append_right others)
  · exact List.nodup_cons.mpr ⟨hfree, h.nodup⟩

/-- Another change of a locked name does not touch its guard. -/
theorem withUpdate (h : s.Accounts others) {name : String} {locked : LockedRef}
    (hopen : s.txn.state = .opened) (hget : s.txn.refs.get? name = some locked) (u : Update) :
    (s.withUpdate name locked u).Accounts others := by
  have hordered := h.wellFormed.ordered
  refine ⟨⟨hordered.insert _ _, fun hclosed => absurd hopen hclosed, ?_⟩, ?_, h.nodup⟩
  · intro other locked' hget'
    rw [Session.withUpdate, Table.get?_insert] at hget'
    split at hget'
    · next heq =>
        rw [← Option.some.inj hget', heq]
        exact h.wellFormed.guard name locked hget
    · exact h.wellFormed.guard other locked' hget'
  · -- before and after, the table is the entry of the name and the same rest
    have hold := (hordered.perm_erase hget).map (·.2.guard.key)
    have hnew := (hordered.insert_perm name { locked with update := some u }).map (·.2.guard.key)
    have hkeys : s.txn.keys.Perm (s.withUpdate name locked u).txn.keys := hold.trans hnew.symm
    exact h.held.trans (hkeys.append_right others)

/-- A transaction that is over has no key, so the table is that of the others. -/
theorem ended (h : s.Accounts others) (hover : s.txn.state ≠ .opened) : s.held.Perm others := by
  have hheld := h.held
  rw [Transaction.keys, h.wellFormed.closed hover] at hheld
  exact hheld

/-! ### Calls and scopes -/

/-- Queueing an update takes no key and gives none back. -/
theorem queue (h : s.Accounts others) (caller : ThreadId) (name : String) (u : Update) :
    (s.settle (s.queue caller name u)).2.Accounts others := by
  rcases s.queue_cases caller name u with ⟨e, hq⟩ | ⟨locked, hopen, hget, hq⟩
  · rw [hq]
    exact h
  · rw [hq]
    exact h.withUpdate hopen hget u

/-- A commit gives back the keys of the transaction. -/
theorem commit (h : s.Accounts others) (caller : ThreadId) :
    (s.commit caller).2.Accounts others := by
  rcases s.commit_cases caller with ⟨e, hc⟩ | ⟨-, ⟨refs, -, hc⟩ | ⟨e, refs, -, hc⟩⟩
  · rw [hc]
    exact h
  · rw [hc]
    exact (h.setRefs refs).close .committed
  · rw [hc]
    exact (h.setRefs refs).close .failed

/-- A rollback gives back the keys of the transaction. -/
theorem rollback (h : s.Accounts others) (caller : ThreadId) :
    (s.settle (s.rollback caller)).2.Accounts others := by
  rcases s.rollback_cases caller with ⟨e, hr⟩ | hr
  · rw [hr]
    exact h
  · rw [hr]
    exact h.discard

/-- **No call loses or leaks a key.**

    It may succeed or fail at any of its checks; the table lists the keys that
    the session has afterwards, and those of the others as before. -/
theorem call (h : s.Accounts others) (caller : ThreadId) (c : TxnCall) :
    (s.call caller c).2.Accounts others := by
  cases c with
  | lock name =>
      rcases s.lock_cases caller name with ⟨e, hl⟩ | ⟨locked, -, hl⟩
        | ⟨hopen, hnew, hfree, ⟨e, -, hl⟩ | ⟨observed, -, hl⟩⟩
      -- refused, locked already, unreadable, or locked now
      · rw [Session.call, hl]
        exact h
      · rw [Session.call, hl]
        exact h
      · rw [Session.call, hl]
        exact h.refused hfree
      · rw [Session.call, hl]
        exact h.withLocked hopen hnew hfree observed
  | set name id signature message => exact h.queue caller name _
  | symbolic name target signature message => exact h.queue caller name _
  | remove name => exact h.queue caller name _
  | commit => exact h.commit caller
  | rollback => exact h.rollback caller

/-- The body of a scope may make any calls. -/
theorem play {ε α : Type} (body : TxnBody ε α) :
    ∀ {s : Session}, s.Accounts others → (s.play body).2.Accounts others := by
  induction body with
  | done v => exact fun h => h
  | fail e => exact fun h => h
  | panic => exact fun h => h
  | call caller c next ih =>
      intro s h
      exact ih (s.call caller c).1 (h.call caller c)
  | look next ih =>
      intro s h
      exact ih s.refs h

/-- However a scope ends, it neither loses nor leaks a key. -/
theorem run {ε α : Type} (h : s.Accounts others) (caller : ThreadId) (ofError : Error → ε)
    (body : TxnBody ε α) : (s.run caller ofError body).2.Accounts others := by
  have hplay : (s.play body).2.Accounts others := play body h
  simp only [Session.run]
  cases hp : s.play body with
  | mk ended t =>
      rw [hp] at hplay
      cases ended with
      | returned v =>
          -- the body may have ended the transaction itself
          by_cases hopen : t.txn.state = .opened
          · have hcommit := hplay.commit caller
            simp only [if_pos hopen]
            cases hc : t.commit caller with
            | mk result t' =>
                rw [hc] at hcommit
                cases result with
                | ok u => exact hcommit.discard
                | error e => exact hcommit.discard
          · simp only [if_neg hopen]
            exact hplay.discard
      | failed e => exact (hplay.rollback caller).discard
      | unwound => exact hplay.discard

end Accounts

/-- A transaction that was discarded is over. -/
theorem discard_closed (s : Session) : s.discard.txn.state ≠ .opened := by
  by_cases hopen : s.txn.state = .opened
  · rw [Session.discard, if_pos hopen]
    exact nofun
  · rw [Session.discard, if_neg hopen]
    exact hopen

/-- Every scope ends with the drop of its transaction. -/
theorem run_closed {ε α : Type} (s : Session) (caller : ThreadId) (ofError : Error → ε)
    (body : TxnBody ε α) : (s.run caller ofError body).2.txn.state ≠ .opened := by
  simp only [Session.run]
  cases s.play body with
  | mk ended t =>
      cases ended with
      | returned v =>
          -- a body that returns with its transaction open commits, which closes it
          by_cases hopen : t.txn.state = .opened
          · simp only [if_pos hopen]
            cases t.commit caller with
            | mk result t' =>
                cases result with
                | ok u => exact discard_closed t'
                | error e => exact discard_closed t'
          · simp only [if_neg hopen]
            exact discard_closed t
      | failed e => exact discard_closed _
      | unwound => exact discard_closed t

end Session

end Gitwork
