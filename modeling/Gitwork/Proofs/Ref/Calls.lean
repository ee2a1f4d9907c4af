import Gitwork.Ref.Transaction

/-! # The ways a call can end

    One lemma for each call on a transaction: every way in which it can end,
    with the checks it passed and the session it leaves. -/

namespace Gitwork

namespace LockTable

variable {held : LockTable} {dir refname : String}

/-- A reference is locked if its key is held. -/
theorem isLocked_iff : held.isLocked dir refname = true ↔ LockKey.of dir refname ∈ held :=
  List.contains_iff_mem

/-- Acquiring a held key is a conflict. -/
theorem acquire_held (h : LockKey.of dir refname ∈ held) :
    held.acquire dir refname = .error (.lockConflict refname) := by
  rw [acquire, if_pos (isLocked_iff.mpr h)]

/-- Acquiring a free key succeeds. -/
theorem acquire_free (h : LockKey.of dir refname ∉ held) :
    held.acquire dir refname = .ok (⟨dir, refname⟩, .of dir refname :: held) := by
  rw [acquire, if_neg (fun hl => h (isLocked_iff.mp hl))]

end LockTable

/-- A transaction that passes its checks is open. -/
theorem Transaction.check_ok {t : Transaction} {caller : ThreadId}
    (h : t.checkThread caller *> t.checkOpen = .ok ()) : t.state = .opened := by
  by_cases hc : caller = t.owner
  · by_cases ho : t.state = .opened
    · exact ho
    · rw [checkThread, if_pos hc, checkOpen, if_neg ho] at h
      exact nomatch h
  · rw [checkThread, if_neg hc] at h
    exact nomatch h

/-- The owner of an open transaction passes both checks. -/
theorem Transaction.check_owner {t : Transaction} (hopen : t.state = .opened) :
    t.checkThread t.owner *> t.checkOpen = .ok () := by
  rw [checkThread, if_pos rfl, checkOpen, if_pos hopen]
  rfl

namespace Session

variable (s : Session) (caller : ThreadId) (name : String)

/-- The guard that a session takes for a name. -/
def guardOf : RefLock := ⟨s.txn.gitDir, name⟩

/-- A session with one more locked name. -/
def withLocked (observed : Option RefValue) : Session :=
  { s with
    held := (s.guardOf name).key :: s.held
    txn := { s.txn with refs := s.txn.refs.insert name ⟨s.guardOf name, observed, none⟩ } }

/-- A session in which a locked name has another change queued. -/
def withUpdate (locked : LockedRef) (u : Update) : Session :=
  { s with
    txn := { s.txn with refs := s.txn.refs.insert name { locked with update := some u } } }

/-- Locking is refused, or the name is locked already, or a free key is taken for
    it; the key is kept if the name can be read. -/
theorem lock_cases :
    (∃ e, s.lock caller name = (.error e, s))
    ∨ (∃ locked, s.txn.refs.get? name = some locked ∧ s.lock caller name = (.ok (), s))
    ∨ s.txn.state = .opened ∧ s.txn.refs.get? name = none ∧ (s.guardOf name).key ∉ s.held
      ∧ ((∃ e, s.refs.find? name = .error e ∧ s.lock caller name = (.error (.ofNative e),
          { s with held := LockTable.release ((s.guardOf name).key :: s.held) (s.guardOf name) }))
        ∨ ∃ observed, s.refs.find? name = .ok observed
          ∧ s.lock caller name = (.ok (), s.withLocked name observed)) := by
  simp only [lock]
  cases hcheck : s.txn.checkThread caller *> s.txn.checkOpen with
  | error e => exact Or.inl ⟨_, rfl⟩
  | ok u =>
      -- a name that is locked already is not looked at again
      cases hhas : s.txn.refs.has name with
      | true =>
          obtain ⟨locked, hget⟩ := Option.isSome_iff_exists.mp hhas
          exact Or.inr (Or.inl ⟨locked, hget, rfl⟩)
      | false =>
          cases hname : Transaction.checkName name with
          | error e => exact Or.inl ⟨_, rfl⟩
          | ok v =>
              -- the name is new to this transaction, but its key may be with another one
              by_cases hheld : (s.guardOf name).key ∈ s.held
              · have hacquire : s.held.acquire s.txn.gitDir name = .error (.lockConflict name) :=
                  LockTable.acquire_held hheld
                rw [hacquire]
                exact Or.inl ⟨_, rfl⟩
              · have hacquire : s.held.acquire s.txn.gitDir name
                    = .ok (s.guardOf name, (s.guardOf name).key :: s.held) :=
                  LockTable.acquire_free hheld
                right; right
                refine ⟨Transaction.check_ok hcheck, Option.not_isSome_iff_eq_none.mp ?_, hheld, ?_⟩
                · rw [show (s.txn.refs.get? name).isSome = s.txn.refs.has name from rfl, hhas]
                  exact Bool.false_ne_true
                · rw [hacquire]
                  cases hfind : s.refs.find? name with
                  | error e => exact Or.inl ⟨e, rfl, rfl⟩
                  | ok observed => exact Or.inr ⟨observed, rfl, rfl⟩

/-- Queueing a change fails, or the change replaces the last one of a name that
    is locked. -/
theorem queue_cases (u : Update) :
    (∃ e, s.queue caller name u = .error e)
    ∨ ∃ locked, s.txn.state = .opened ∧ s.txn.refs.get? name = some locked
      ∧ s.queue caller name u = .ok (s.withUpdate name locked u) := by
  -- the thread is checked first, then the state, then the lock
  simp only [queue]
  cases hthread : s.txn.checkThread caller with
  | error e => exact Or.inl ⟨e, rfl⟩
  | ok u =>
      cases hopen : s.txn.checkOpen with
      | error e => exact Or.inl ⟨e, rfl⟩
      | ok v =>
          cases hget : s.txn.refs.get? name with
          | none => exact Or.inl ⟨_, rfl⟩
          | some locked =>
              have hstate : s.txn.state = .opened :=
                @Transaction.check_ok s.txn caller (by rw [hthread, hopen]; rfl)
              exact Or.inr ⟨locked, hstate, rfl, rfl⟩

/-- A commit is refused, or it applies the changes and ends the transaction. -/
theorem commit_cases :
    (∃ e, s.commit caller = (.error e, s))
    ∨ s.txn.state = .opened
      ∧ ((∃ refs, s.txn.apply s.refs = (.ok (), refs)
          ∧ s.commit caller = (.ok (), { s with refs }.close .committed))
        ∨ ∃ e refs, s.txn.apply s.refs = (.error e, refs)
          ∧ s.commit caller = (.error e, { s with refs }.close .failed)) := by
  simp only [commit]
  -- neither a foreign thread nor a closed transaction reaches the store
  cases hcheck : s.txn.checkThread caller *> s.txn.checkOpen with
  | error e => exact Or.inl ⟨e, rfl⟩
  | ok u =>
      right
      refine ⟨Transaction.check_ok hcheck, ?_⟩
      cases happly : s.txn.apply s.refs with
      | mk result refs =>
          cases result with
          | ok u => exact Or.inl ⟨refs, rfl, rfl⟩
          | error e => exact Or.inr ⟨e, refs, rfl, rfl⟩

/-- A rollback is refused, or it drops the changes of an open transaction. -/
theorem rollback_cases :
    (∃ e, s.rollback caller = .error e) ∨ s.rollback caller = .ok s.discard := by
  rw [rollback]
  cases s.txn.checkThread caller with
  | error e => exact Or.inl ⟨e, rfl⟩
  | ok u => exact Or.inr rfl

end Session

end Gitwork
