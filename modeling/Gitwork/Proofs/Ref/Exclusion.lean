import Mathlib.Data.List.Nodup
import Gitwork.Proofs.Ref.Holding
import Gitwork.Workbench.Basic

/-! # Reference locks are exclusive and never leak

    Guards and transactions come and go, on any repositories and threads, and
    all calls on them may fail at any of their checks.  At every point the
    lock table lists the keys of the live guards and of the open transactions,
    each key once (`Workbench.Exclusive`); so a key is in the table exactly if
    it has a holder, it has one holder only, and the next attempt to acquire
    it is a conflict.

    `Workbench.Change` says once what an action can do.  Each change keeps the
    invariant (`Exclusive.act`), hence each run does (`Exclusive.run`), and none
    touches a holder that its action is not on (`Holds.act`). -/

namespace Gitwork

/-! ## Holders -/

/-- Who can hold a key: a guard, or a transaction with the guard of a name. -/
inductive Holder
  | guard (as : String)
  | locked (txn refname : String)
deriving DecidableEq

namespace Workbench

/-- Whether a holder holds a key. -/
def Holds (w : Workbench) : Holder → LockKey → Prop
  | .guard as, k => ∃ g, w.guards.get? as = some g ∧ g.key = k
  | .locked txn refname, k => ∃ t locked, w.txns.get? txn = some t
      ∧ t.txn.refs.get? refname = some locked ∧ locked.guard.key = k

/-- The keys of guards. -/
def guardKeys (guards : Table RefLock) : List LockKey := guards.map (·.2.key)

/-- The keys of transactions. -/
def txnKeys (txns : Table OpenTransaction) : List LockKey := txns.flatMap (·.2.txn.keys)

/-- All holders with the keys they hold. -/
def holdings (w : Workbench) : List (Holder × LockKey) :=
  w.guards.map (fun e => (.guard e.1, e.2.key))
    ++ w.txns.flatMap fun e => e.2.txn.refs.map fun r => (.locked e.1 r.1, r.2.guard.key)

/-- The lock table lists the keys of all guards and transactions, each once. -/
structure Exclusive (w : Workbench) : Prop where
  guards : w.guards.Ordered
  txns : w.txns.Ordered
  wellFormed : ∀ name t, w.txns.get? name = some t → t.txn.WellFormed
  held : w.held.Perm (guardKeys w.guards ++ txnKeys w.txns)
  nodup : w.held.Nodup

theorem Exclusive.empty : Exclusive .empty where
  guards := Table.Ordered.nil
  txns := Table.Ordered.nil
  wellFormed := fun _ _ h => nomatch h
  held := List.Perm.refl _
  nodup := List.nodup_nil

section Keys

variable {guards : Table RefLock} {txns : Table OpenTransaction} {name : String}

/-- Installing a guard adds its key in place of the one it replaces. -/
theorem guardKeys_insert (ho : guards.Ordered) (name : String) (g : RefLock) :
    (guardKeys (guards.insert name g)).Perm (g.key :: guardKeys (guards.erase name)) :=
  (ho.insert_perm name g).map _

theorem guardKeys_erase (ho : guards.Ordered) {g : RefLock} (hget : guards.get? name = some g) :
    (guardKeys guards).Perm (g.key :: guardKeys (guards.erase name)) :=
  (ho.perm_erase hget).map _

/-- Installing a transaction adds its keys in place of those it replaces. -/
theorem txnKeys_insert (ho : txns.Ordered) (name : String) (t : OpenTransaction) :
    (txnKeys (txns.insert name t)).Perm (t.txn.keys ++ txnKeys (txns.erase name)) :=
  (ho.insert_perm name t).flatMap_right _

theorem txnKeys_erase (ho : txns.Ordered) {t : OpenTransaction} (hget : txns.get? name = some t) :
    (txnKeys txns).Perm (t.txn.keys ++ txnKeys (txns.erase name)) :=
  (ho.perm_erase hget).flatMap_right _

end Keys

/-! ## Actions -/

/-- What can happen on a workbench. -/
inductive Action : Type 1
  | acquire (dir refname as : String)
  | release (as : String)
  | openTransaction (name dir : String) (caller : ThreadId) (message : Option String)
  | dropTransaction (name : String)
  | callTransaction (name : String) (caller : ThreadId) (c : TxnCall)
  | scope {ε α : Type} (dir : String) (caller : ThreadId) (message : Option String)
      (ofError : Error → ε) (body : TxnBody ε α)
  /-- Other programs, and calls that have to do with no lock, leave this disk. -/
  | disk (d : Disk)

/-- The workbench after an action.  A call on a transaction that is not there
    does nothing. -/
def act (w : Workbench) : Action → Workbench
  | .acquire dir refname as => (w.acquire dir refname as).2
  | .release as => (w.release as).2
  | .openTransaction name dir caller message => (w.openTransaction name dir caller message).2
  | .dropTransaction name => (w.dropTransaction name).2
  | .callTransaction name caller c => (w.callTransaction name caller c).elim w (·.2.2)
  | .scope dir caller message ofError body => (w.scope dir caller message ofError body).2
  | .disk d => { w with disk := d }

/-- The workbench after a run of actions. -/
def run (actions : List Action) : Workbench := actions.foldl act empty

/-- What an action can do to guards, transactions and the lock table. -/
inductive Change (w : Workbench) : Action → Workbench → Prop
  /-- Nothing; also if it is refused. -/
  | nothing (a : Action) (disk : Disk) : Change w a { w with disk }
  | acquired {dir refname as : String} :
      LockKey.of dir refname ∉ w.held → w.guards.get? as = none →
      Change w (.acquire dir refname as)
        { w with held := .of dir refname :: w.held, guards := w.guards.insert as ⟨dir, refname⟩ }
  /-- An earlier guard of the name goes after the new one is there. -/
  | replaced {dir refname as : String} {old : RefLock} :
      LockKey.of dir refname ∉ w.held → w.guards.get? as = some old →
      Change w (.acquire dir refname as)
        { w with
          held := LockTable.release (.of dir refname :: w.held) old
          guards := w.guards.insert as ⟨dir, refname⟩ }
  | released {as : String} {g : RefLock} : w.guards.get? as = some g →
      Change w (.release as) { w with held := w.held.release g, guards := w.guards.erase as }
  | opened {name dir : String} {caller : ThreadId} {message : Option String} (r : Repo) :
      w.txns.get? name = none →
      Change w (.openTransaction name dir caller message)
        { w with txns := w.txns.insert name ⟨dir, newTransaction r caller message⟩ }
  /-- An earlier transaction of the name is dropped. -/
  | reopened {name dir : String} {caller : ThreadId} {message : Option String}
      {t : OpenTransaction} (r : Repo) (refs : RefStore) : w.txns.get? name = some t →
      Change w (.openTransaction name dir caller message)
        { w with
          held := (Session.mk t.txn w.held refs).discard.held
          txns := (w.txns.erase name).insert name ⟨dir, newTransaction r caller message⟩ }
  | dropped {name : String} {t : OpenTransaction} (refs : RefStore) : w.txns.get? name = some t →
      Change w (.dropTransaction name)
        { w with held := (Session.mk t.txn w.held refs).discard.held, txns := w.txns.erase name }
  | called {name : String} {caller : ThreadId} {c : TxnCall} {t : OpenTransaction}
      (refs : RefStore) (disk : Disk) : w.txns.get? name = some t →
      Change w (.callTransaction name caller c)
        { w with
          disk
          held := ((Session.mk t.txn w.held refs).call caller c).2.held
          txns := w.txns.insert name ⟨t.dir, ((Session.mk t.txn w.held refs).call caller c).2.txn⟩ }
  | ran {ε α : Type} {dir : String} {caller : ThreadId} {message : Option String}
      {ofError : Error → ε} {body : TxnBody ε α} (r : Repo) (disk : Disk) :
      Change w (.scope dir caller message ofError body)
        { w with
          disk
          held := ((Session.mk (newTransaction r caller message) w.held r.refs).run caller ofError
            body).2.held }

/-- An action does no more than that. -/
theorem act_changes (w : Workbench) (a : Action) : Change w a (w.act a) := by
  cases a with
  | acquire dir refname as =>
      show Change w _ (w.acquire dir refname as).2
      simp only [Workbench.acquire]
      -- an acquire that succeeds installs a guard, which may replace one of the same name
      by_cases hheld : LockKey.of dir refname ∈ w.held
      · rw [LockTable.acquire_held hheld]
        exact .nothing _ w.disk
      · rw [LockTable.acquire_free hheld]
        cases hold : w.guards.get? as with
        | none => exact .acquired hheld hold
        | some old => exact .replaced hheld hold
  | release as =>
      show Change w _ (w.release as).2
      simp only [Workbench.release]
      cases hget : w.guards.get? as with
      | none => exact .nothing _ w.disk
      | some g => exact .released hget
  | openTransaction name dir caller message =>
      show Change w _ (w.openTransaction name dir caller message).2
      simp only [Workbench.openTransaction, Workbench.dropTransaction]
      cases w.disk.repo? dir with
      | none => exact .nothing _ w.disk
      | some r =>
          -- a transaction of the same name is dropped first
          cases hget : w.txns.get? name with
          | none => exact .opened r hget
          | some t => exact .reopened r _ hget
  | dropTransaction name =>
      show Change w _ (w.dropTransaction name).2
      simp only [Workbench.dropTransaction]
      cases hget : w.txns.get? name with
      | none => exact .nothing _ w.disk
      | some t => exact .dropped _ hget
  | callTransaction name caller c =>
      show Change w _ ((w.callTransaction name caller c).elim w (·.2.2))
      simp only [Workbench.callTransaction]
      cases hget : w.txns.get? name with
      | none => exact .nothing _ w.disk
      | some t =>
          rw [Option.bind_eq_bind, Option.bind_some]
          cases w.disk.repo? t.dir with
          | none => exact .nothing _ w.disk
          | some r => exact .called r.refs _ hget
  | scope dir caller message ofError body =>
      show Change w _ (w.scope dir caller message ofError body).2
      simp only [Workbench.scope]
      cases w.disk.repo? dir with
      | none => exact .nothing _ w.disk
      | some r => exact .ran r _
  | disk d => exact .nothing _ d

namespace Exclusive

variable {w : Workbench}

/-- The disk does not matter. -/
theorem setDisk (h : w.Exclusive) (disk : Disk) : Exclusive { w with disk } :=
  ⟨h.guards, h.txns, h.wellFormed, h.held, h.nodup⟩

/-! ## Guards -/

/-- Acquiring a free key under a new name. -/
theorem acquired (h : w.Exclusive) {g : RefLock} {as : String} (hfree : g.key ∉ w.held)
    (hnew : w.guards.get? as = none) :
    Exclusive { w with held := g.key :: w.held, guards := w.guards.insert as g } := by
  have hinsert := (guardKeys_insert h.guards as g).append_right (txnKeys w.txns)
  rw [Table.erase_of_get?_eq_none hnew] at hinsert
  exact ⟨h.guards.insert as g, h.txns, h.wellFormed, (h.held.cons g.key).trans hinsert.symm,
    List.nodup_cons.mpr ⟨hfree, h.nodup⟩⟩

/-- Acquiring a free key under a name that had a guard releases that guard. -/
theorem replaced (h : w.Exclusive) {g old : RefLock} {as : String} (hfree : g.key ∉ w.held)
    (hold : w.guards.get? as = some old) :
    Exclusive { w with
      held := LockTable.release (g.key :: w.held) old, guards := w.guards.insert as g } := by
  have hinsert := (guardKeys_insert h.guards as g).append_right (txnKeys w.txns)
  have herase := (guardKeys_erase h.guards hold).append_right (txnKeys w.txns)
  have hnodup : (g.key :: w.held).Nodup := List.nodup_cons.mpr ⟨hfree, h.nodup⟩
  -- for a moment both guards are there
  have hboth := ((h.held.trans herase).cons g.key).trans (List.Perm.swap _ _ _)
  exact ⟨h.guards.insert as g, h.txns, h.wellFormed,
    (LockTable.release_perm hboth hnodup).trans hinsert.symm, LockTable.release_nodup hnodup⟩

/-- Releasing a guard gives its key back, and no other. -/
theorem released (h : w.Exclusive) {g : RefLock} {as : String}
    (hget : w.guards.get? as = some g) :
    Exclusive { w with held := w.held.release g, guards := w.guards.erase as } := by
  have herase := (guardKeys_erase h.guards hget).append_right (txnKeys w.txns)
  exact ⟨h.guards.erase as, h.txns, h.wellFormed,
    LockTable.release_perm (h.held.trans herase) h.nodup, LockTable.release_nodup h.nodup⟩

/-! ## Transactions -/

/-- What a transaction shares the table with. -/
theorem accounts (h : w.Exclusive) {name : String} {t : OpenTransaction}
    (hget : w.txns.get? name = some t) (refs : RefStore) :
    (Session.mk t.txn w.held refs).Accounts
      (guardKeys w.guards ++ txnKeys (w.txns.erase name)) where
  wellFormed := h.wellFormed name t hget
  held := by
    have herase := (txnKeys_erase h.txns hget).append_left (guardKeys w.guards)
    exact (h.held.trans herase).trans (List.perm_append_comm_assoc _ _ _)
  nodup := h.nodup

/-- A new transaction has no key. -/
theorem accounts_new (h : w.Exclusive) (r : Repo) (caller : ThreadId) (message : Option String)
    (refs : RefStore) : (Session.mk (newTransaction r caller message) w.held refs).Accounts
      (guardKeys w.guards ++ txnKeys w.txns) :=
  ⟨Transaction.WellFormed.new _ _ _, h.held, h.nodup⟩

/-- Dropping a transaction gives all of its keys back. -/
theorem dropped (h : w.Exclusive) {name : String} {t : OpenTransaction}
    (hget : w.txns.get? name = some t) (refs : RefStore) :
    Exclusive { w with
      held := (Session.mk t.txn w.held refs).discard.held, txns := w.txns.erase name } := by
  have hafter := (h.accounts hget refs).discard
  refine ⟨h.guards, h.txns.erase name, ?_, hafter.ended (Session.discard_closed _), hafter.nodup⟩
  intro other t' hother
  rw [Table.get?_erase] at hother
  split at hother
  · cases hother
  · exact h.wellFormed other t' hother

/-- A transaction in its place in the table, with the keys it has. -/
theorem put (h : w.Exclusive) {name : String} (dir : String) {s : Session}
    (hs : s.Accounts (guardKeys w.guards ++ txnKeys (w.txns.erase name))) :
    Exclusive { w with held := s.held, txns := w.txns.insert name ⟨dir, s.txn⟩ } where
  guards := h.guards
  txns := h.txns.insert name _
  wellFormed := by
    intro other t hother
    rw [Table.get?_insert] at hother
    split at hother
    · rw [← Option.some.inj hother]
      exact hs.wellFormed
    · exact h.wellFormed other t hother
  held := by
    have hinsert := (txnKeys_insert h.txns name ⟨dir, s.txn⟩).append_left
      (guardKeys w.guards)
    exact hs.held.trans ((List.perm_append_comm_assoc _ _ _).trans hinsert.symm)
  nodup := hs.nodup

/-- A transaction that is opened holds nothing yet. -/
theorem opened (h : w.Exclusive) {name : String} (hnew : w.txns.get? name = none) (dir : String)
    (r : Repo) (caller : ThreadId) (message : Option String) :
    Exclusive { w with txns := w.txns.insert name ⟨dir, newTransaction r caller message⟩ } := by
  have hs := h.accounts_new r caller message r.refs
  rw [← Table.erase_of_get?_eq_none hnew] at hs
  exact h.put dir hs

/-- A scope gives back all it took. -/
theorem ran (h : w.Exclusive) {ε α : Type} (r : Repo) (caller : ThreadId)
    (message : Option String) (ofError : Error → ε) (body : TxnBody ε α) :
    Exclusive { w with
      held := ((Session.mk (newTransaction r caller message) w.held r.refs).run caller ofError
        body).2.held } := by
  have hafter := (h.accounts_new r caller message r.refs).run caller ofError body
  exact ⟨h.guards, h.txns, h.wellFormed,
    hafter.ended (Session.run_closed _ caller ofError body), hafter.nodup⟩

/-! ## Runs -/

/-- Every change keeps the exclusion. -/
theorem change (h : w.Exclusive) {a : Action} {w' : Workbench} (hc : Change w a w') :
    w'.Exclusive := by
  cases hc with
  | nothing _ disk => exact h.setDisk disk
  | acquired hfree hnew => exact h.acquired (g := ⟨_, _⟩) hfree hnew
  | replaced hfree hold => exact h.replaced (g := ⟨_, _⟩) hfree hold
  | released hget => exact h.released hget
  | opened r hnew => exact h.opened hnew _ r _ _
  | @reopened name _ _ _ _ r refs hget =>
      have hnew : (w.txns.erase name).get? name = none := by rw [Table.get?_erase, if_pos rfl]
      exact (h.dropped hget refs).opened hnew _ r _ _
  | dropped refs hget => exact h.dropped hget refs
  | called refs disk hget => exact (h.put _ ((h.accounts hget refs).call _ _)).setDisk disk
  | ran r disk => exact (h.ran r _ _ _ _).setDisk disk

theorem act (h : w.Exclusive) (a : Action) : (w.act a).Exclusive := h.change (w.act_changes a)

theorem run (actions : List Action) : (run actions).Exclusive := by
  have hfold : ∀ w : Workbench, w.Exclusive → (actions.foldl Workbench.act w).Exclusive := by
    induction actions with
    | nil => exact fun _ h => h
    | cons a rest ih => exact fun w h => ih (w.act a) (h.act a)
  exact hfold Workbench.empty Exclusive.empty

end Exclusive

/-! ## Holders and the table -/

/-- What is held, holder by holder. -/
theorem map_snd_holdings (w : Workbench) :
    w.holdings.map Prod.snd = guardKeys w.guards ++ txnKeys w.txns := by
  rw [holdings, List.map_append, List.map_map, List.map_flatMap]
  congr 1
  apply List.flatMap_congr
  intro e _
  exact List.map_map

theorem Exclusive.mem_holdings {w : Workbench} (h : w.Exclusive) {x : Holder} {k : LockKey} :
    (x, k) ∈ w.holdings ↔ w.Holds x k := by
  rw [holdings, List.mem_append, List.mem_map, List.mem_flatMap]
  cases x with
  | guard as =>
      constructor
      · rintro (⟨⟨as', g⟩, hg, heq⟩ | ⟨e, -, he⟩)
        · obtain ⟨rfl, rfl⟩ : as' = as ∧ g.key = k := by simpa using heq
          exact ⟨g, h.guards.mem_iff.mp hg, rfl⟩
        · -- a transaction is no guard
          simp at he
      · rintro ⟨g, hg, rfl⟩
        exact Or.inl ⟨(as, g), h.guards.mem_iff.mpr hg, rfl⟩
  | locked txn refname =>
      constructor
      · rintro (⟨e, -, heq⟩ | ⟨⟨txn', t⟩, ht, he⟩)
        · -- a guard is no transaction
          simp at heq
        · obtain ⟨⟨refname', locked⟩, hlocked, heq⟩ := List.mem_map.mp he
          obtain ⟨⟨rfl, rfl⟩, rfl⟩ : (txn' = txn ∧ refname' = refname) ∧ locked.guard.key = k := by
            simpa using heq
          have hget := h.txns.mem_iff.mp ht
          exact ⟨t, locked, hget, (h.wellFormed _ t hget).ordered.mem_iff.mp hlocked, rfl⟩
      · rintro ⟨t, locked, hget, hlocked, rfl⟩
        refine Or.inr ⟨(txn, t), h.txns.mem_iff.mpr hget, List.mem_map.mpr ⟨(refname, locked), ?_, rfl⟩⟩
        exact (h.wellFormed txn t hget).ordered.mem_iff.mpr hlocked

/-- A key is held exactly if someone holds it. -/
theorem Exclusive.mem_held {w : Workbench} (h : w.Exclusive) (k : LockKey) :
    k ∈ w.held ↔ ∃ x, w.Holds x k := by
  rw [h.held.mem_iff, ← map_snd_holdings, List.mem_map]
  constructor
  · rintro ⟨⟨x, k'⟩, hmem, rfl⟩
    exact ⟨x, h.mem_holdings.mp hmem⟩
  · rintro ⟨x, hx⟩
    exact ⟨(x, k), h.mem_holdings.mpr hx, rfl⟩

/-- A key has one holder. -/
theorem Exclusive.holder_unique {w : Workbench} (h : w.Exclusive) {k : LockKey} {x y : Holder}
    (hx : w.Holds x k) (hy : w.Holds y k) : x = y := by
  have hnodup : (w.holdings.map Prod.snd).Nodup := by
    rw [map_snd_holdings]
    exact h.held.nodup_iff.mp h.nodup
  -- two holders of a key would be two places of it in a list without repetition
  have heq := List.inj_on_of_nodup_map hnodup (h.mem_holdings.mpr hx) (h.mem_holdings.mpr hy) rfl
  exact congrArg Prod.fst heq

/-! ## Actions leave other holders alone -/

/-- Whether an action is on a holder. -/
def Action.On : Action → Holder → Prop
  | .acquire _ _ as, .guard as' => as = as'
  | .release as, .guard as' => as = as'
  | .openTransaction name .., .locked txn _ => name = txn
  | .dropTransaction name, .locked txn _ => name = txn
  | .callTransaction name _ _, .locked txn _ => name = txn
  | _, _ => False

/-- An action that is not about a guard leaves it in place. -/
theorem Change.guards {w w' : Workbench} {a : Action} {as : String} (hc : Change w a w')
    (hoff : ¬ a.On (.guard as)) : w'.guards.get? as = w.guards.get? as := by
  cases hc with
  | acquired | replaced => exact (Table.get?_insert _ _ _ _).trans (if_neg (Ne.symm hoff))
  | released => exact (Table.get?_erase _ _ _).trans (if_neg (Ne.symm hoff))
  | nothing | opened | reopened | dropped | called | ran => rfl

/-- An action that is not about a transaction leaves it as it is. -/
theorem Change.txns {w w' : Workbench} {a : Action} {txn refname : String} (hc : Change w a w')
    (hoff : ¬ a.On (.locked txn refname)) : w'.txns.get? txn = w.txns.get? txn := by
  cases hc with
  | opened | called => exact (Table.get?_insert _ _ _ _).trans (if_neg (Ne.symm hoff))
  | reopened =>
      rw [Table.get?_insert, if_neg (Ne.symm hoff), Table.get?_erase, if_neg (Ne.symm hoff)]
  | dropped => exact (Table.get?_erase _ _ _).trans (if_neg (Ne.symm hoff))
  | nothing | acquired | replaced | released | ran => rfl

/-- An action leaves every holder alone that it is not on. -/
theorem Holds.act {w : Workbench} {x : Holder} {k : LockKey} (h : w.Holds x k) {a : Action}
    (hoff : ¬ a.On x) : (w.act a).Holds x k := by
  cases x with
  | guard as =>
      obtain ⟨g, hget, hk⟩ := h
      exact ⟨g, ((w.act_changes a).guards hoff).trans hget, hk⟩
  | locked txn refname =>
      obtain ⟨t, locked, hget, hk⟩ := h
      exact ⟨t, locked, ((w.act_changes a).txns hoff).trans hget, hk⟩

/-- A transaction that holds a key is open, and the key is of its repository. -/
theorem Exclusive.holder_open {w : Workbench} (h : w.Exclusive) {txn refname : String}
    {k : LockKey} (hk : w.Holds (.locked txn refname) k) :
    ∃ t, w.txns.get? txn = some t ∧ t.txn.state = .opened ∧ k = .of t.txn.gitDir refname := by
  obtain ⟨t, locked, hget, hlocked, hkey⟩ := hk
  have hwell := h.wellFormed txn t hget
  refine ⟨t, hget, ?_, ?_⟩
  · by_cases hopen : t.txn.state = .opened
    · exact hopen
    · rw [hwell.closed hopen] at hlocked
      exact nomatch hlocked
  · rw [← hkey, hwell.guard refname locked hlocked]
    rfl

/-- **Reference locks are exclusive and never leak.**

    After any run: a key is in the table exactly if it has a holder, and it has
    one holder only; acquiring it is a conflict exactly then, and succeeds
    otherwise; a transaction holds keys of its own repository, and none once it
    is committed, rolled back, failed or dropped; and whatever happens next, it
    takes no key from a holder that it is not on. -/
theorem locks_exclusive (actions : List Action) :
    let w := run actions
    (∀ k, k ∈ w.held ↔ ∃ x, w.Holds x k)
      ∧ w.held.Nodup
      ∧ (∀ k x y, w.Holds x k → w.Holds y k → x = y)
      ∧ (∀ dir refname, w.held.acquire dir refname = .error (.lockConflict refname)
        ↔ ∃ x, w.Holds x (.of dir refname))
      ∧ (∀ dir refname, w.held.acquire dir refname
          = .ok (⟨dir, refname⟩, .of dir refname :: w.held)
        ↔ ¬ ∃ x, w.Holds x (.of dir refname))
      ∧ (∀ txn refname k, w.Holds (.locked txn refname) k →
        ∃ t, w.txns.get? txn = some t ∧ t.txn.state = .opened ∧ k = .of t.txn.gitDir refname)
      ∧ (∀ txn refname k, (∀ t, w.txns.get? txn = some t → t.txn.state ≠ .opened) →
        ¬ w.Holds (.locked txn refname) k)
      ∧ ∀ a x k, ¬ a.On x → w.Holds x k → (w.act a).Holds x k ∧ k ∈ (w.act a).held := by
  intro w
  have h : w.Exclusive := Exclusive.run actions
  refine ⟨h.mem_held, h.nodup, fun _ _ _ hx hy => h.holder_unique hx hy, ?_, ?_,
    fun _ _ _ hk => h.holder_open hk, ?_, ?_⟩
  · intro dir refname
    rw [← h.mem_held]
    constructor
    · intro hconflict
      by_cases hheld : LockKey.of dir refname ∈ w.held
      · exact hheld
      · rw [LockTable.acquire_free hheld] at hconflict
        exact nomatch hconflict
    · exact LockTable.acquire_held
  · intro dir refname
    rw [← h.mem_held]
    constructor
    · intro hacquired hheld
      rw [LockTable.acquire_held hheld] at hacquired
      exact nomatch hacquired
    · exact LockTable.acquire_free
  · intro txn refname k hover hk
    obtain ⟨t, hget, hopen, -⟩ := h.holder_open hk
    exact hover t hget hopen
  · intro a x k hoff hx
    have hx' := hx.act hoff
    exact ⟨hx', ((h.act a).mem_held k).mpr ⟨x, hx'⟩⟩

/-- Two transactions on one repository; the first locks `HEAD`, the second is
    rolled back. -/
def twoTransactions : List Action :=
  [.disk ⟨[("r", Repo.init "/r" true default "refs/heads/main")], []⟩,
    .openTransaction "t" "r" 1 none, .openTransaction "u" "r" 2 none,
    .callTransaction "t" 1 (.lock "HEAD"), .callTransaction "u" 2 .rollback]

/-- The first one holds the key, alone, also after the drop of the second. -/
theorem locks_exclusive_twoTransactions :
    let w := run twoTransactions
    let key := LockKey.of "/r" "HEAD"
    w.Holds (.locked "t" "HEAD") key ∧ key ∈ w.held
      ∧ (∀ y, w.Holds y key → y = .locked "t" "HEAD")
      ∧ w.held.acquire "/r" "HEAD" = .error (.lockConflict "HEAD")
      ∧ ¬ w.Holds (.locked "u" "HEAD") key
      ∧ (w.act (.dropTransaction "u")).Holds (.locked "t" "HEAD") key := by
  intro w key
  obtain ⟨hheld, -, hunique, hconflict, -, -, hover, hframe⟩ := locks_exclusive twoTransactions
  have htxns : (run twoTransactions).txns
      = [("t", ⟨"r", ⟨"/r", 1, [("HEAD", ⟨⟨"/r", "HEAD"⟩, some (.symbolic "refs/heads/main"), none⟩)],
          .opened, Config.defaultReflogMessage⟩⟩),
        ("u", ⟨"r", ⟨"/r", 2, [], .rolledBack, Config.defaultReflogMessage⟩⟩)] := by
    rfl
  have hget := congrArg (Table.get? · "t") htxns
  have hholds : w.Holds (.locked "t" "HEAD") key := ⟨_, _, hget, rfl, rfl⟩
  refine ⟨hholds, (hheld key).mpr ⟨_, hholds⟩, fun y hy => hunique key y _ hy hholds,
    (hconflict "/r" "HEAD").mpr ⟨_, hholds⟩, hover "u" "HEAD" key ?_, (hframe _ _ _ ?_ hholds).1⟩
  · intro t ht
    rw [htxns] at ht
    obtain rfl := Option.some.inj ht
    intro hopen
    cases hopen
  · show ¬ "u" = "t"
    decide

end Workbench

end Gitwork
