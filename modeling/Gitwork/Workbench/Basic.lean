import Gitwork.Ref.Transaction
import Gitwork.Repo.Disk

/-! # The workbench

    All that runs side by side: repositories on a disk, the lock table of the
    process, named guards and named transactions.  Each action is by a user of
    the library or by another program. -/

namespace Gitwork

/-- A transaction with the directory of its repository. -/
structure OpenTransaction where
  dir : String
  txn : Transaction

structure Workbench where
  disk : Disk
  /-- The objects that have a name. -/
  names : List (String × Oid)
  /-- These objects, whatever repository has them. -/
  made : ObjectStore
  held : LockTable
  guards : Table RefLock
  txns : Table OpenTransaction

namespace Workbench

def empty : Workbench := ⟨.empty, [], [], [], [], []⟩

def setRepo (w : Workbench) (dir : String) (r : Repo) : Workbench :=
  { w with disk := w.disk.setRepo dir r }

def setRefs (w : Workbench) (dir : String) (r : Repo) (refs : RefStore) : Workbench :=
  w.setRepo dir { r with refs }

/-! ## Guards -/

/-- Acquires a key and keeps the guard under a name; an earlier guard of the
    name is dropped afterwards. -/
def acquire (w : Workbench) (dir refname as : String) : Except Error RefLock × Workbench :=
  match w.held.acquire dir refname with
  | .error e => (.error e, w)
  | .ok (guard, held) =>
    let held := match w.guards.get? as with
      | some old => held.release old
      | none => held
    (.ok guard, { w with held, guards := w.guards.insert as guard })

/-- Drops a guard; says whether there was one. -/
def release (w : Workbench) (as : String) : Bool × Workbench :=
  match w.guards.get? as with
  | some guard => (true, { w with held := w.held.release guard, guards := w.guards.erase as })
  | none => (false, w)

/-! ## Transactions -/

/-- Drops a transaction; says whether there was one. -/
def dropTransaction (w : Workbench) (name : String) : Bool × Workbench :=
  match w.txns.get? name with
  | none => (false, w)
  | some t =>
    let s := (Session.mk t.txn w.held (RefStore.empty false default)).discard
    (true, { w with held := s.held, txns := w.txns.erase name })

/-- The transaction that a repository gives out. -/
def newTransaction (r : Repo) (caller : ThreadId) (message : Option String) : Transaction :=
  .new r.gitDir caller (message.getD Config.defaultReflogMessage)

/-- Opens a transaction on the repository in a directory, in place of an
    earlier one of the name. -/
def openTransaction (w : Workbench) (name dir : String) (caller : ThreadId)
    (message : Option String) : Except Error Transaction × Workbench :=
  match w.disk.repo? dir with
  | none => (.error (.ofNative .notFound), w)
  | some r =>
    let txn := newTransaction r caller message
    let (_, w) := w.dropTransaction name
    (.ok txn, { w with txns := w.txns.insert name ⟨dir, txn⟩ })

/-- Makes a call on a transaction; gives the transaction after it. -/
def callTransaction (w : Workbench) (name : String) (caller : ThreadId) (c : TxnCall) :
    Option (Except Error Unit × Transaction × Workbench) := do
  let t ← w.txns.get? name
  let r ← w.disk.repo? t.dir
  let (result, s) := (Session.mk t.txn w.held r.refs).call caller c
  let w := { w with held := s.held, txns := w.txns.insert name ⟨t.dir, s.txn⟩ }
  return (result, s.txn, w.setRefs t.dir r s.refs)

/-- Runs a scope on the repository in a directory. -/
def scope {ε α : Type} (w : Workbench) (dir : String) (caller : ThreadId)
    (message : Option String) (ofError : Error → ε) (body : TxnBody ε α) :
    Ended ε α × Workbench :=
  match w.disk.repo? dir with
  | none => (.failed (ofError (.ofNative .notFound)), w)
  | some r =>
    let txn := newTransaction r caller message
    let (ended, s) := (Session.mk txn w.held r.refs).run caller ofError body
    (ended, { w with held := s.held }.setRefs dir r s.refs)

/-! ## Other programs -/

/-- Another program writes a reference.  It needs the lock of the name, an
    object that is there, and a well-formed name. -/
def externalSet (r : Repo) (name : String) (v : RefValue) : Option Repo :=
  let known := match v with
    | .direct id => r.objects.has id
    | .symbolic target => RefName.isValid target
  if RefName.isValid name && known && (r.refs.lockError? name).isNone then
    some { r with refs := r.refs.write name v r.refs.identity "external" }
  else none

/-- Another program deletes a reference. -/
def externalDelete (r : Repo) (name : String) : Option Repo :=
  if r.refs.has name && !r.refs.locked.contains name then
    some { r with refs := r.refs.delete name }
  else none

/-- Another program takes the lock of a name. -/
def externalLock (r : Repo) (name : String) : Repo :=
  { r with refs := { r.refs with locked := name :: r.refs.locked } }

/-- Another program gives the lock of a name back. -/
def externalUnlock (r : Repo) (name : String) : Repo :=
  { r with refs := { r.refs with locked := r.refs.locked.erase name } }

end Workbench

end Gitwork
