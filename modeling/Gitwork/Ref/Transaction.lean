import Gitwork.Ref.Batch
import Gitwork.Ref.Lock
import Gitwork.Text.Quoted

/-! # Transactions

    A transaction locks names, queues one change for each of them, and commits
    them together.  It belongs to the thread that opened it, and once it is
    committed, rolled back or failed it stays so.

    A session is a transaction with what it shares: the lock table of the
    process and the references of its repository.  `Session.commit` compares
    every name that has a change with what was there when it was locked, and
    writes nothing unless all of them are as they were. -/

namespace Gitwork

inductive TransactionState
  | opened
  | committed
  | rolledBack
  | failed
deriving DecidableEq, Repr, Inhabited

def TransactionState.name : TransactionState → String
  | opened => "Open"
  | committed => "Committed"
  | rolledBack => "RolledBack"
  | failed => "Failed"

/-- What is to become of a reference. -/
inductive Mutation
  | target (id : Oid)
  | symbolic (name : String)
  | remove
deriving DecidableEq, Repr, Inhabited

/-- A queued change, and what the log is to say. -/
structure Update where
  mutation : Mutation
  signature : Option Signature
  message : Option String
deriving DecidableEq, Repr, Inhabited

/-- A locked name. -/
structure LockedRef where
  guard : RefLock
  /-- What was there when the name was locked. -/
  observed : Option RefValue
  /-- The change that was queued last. -/
  update : Option Update
deriving DecidableEq, Repr, Inhabited

structure Transaction where
  gitDir : String
  owner : ThreadId
  refs : Table LockedRef
  state : TransactionState
  /-- The log message for changes without one. -/
  defaultMessage : String
deriving DecidableEq, Repr, Inhabited

namespace Transaction

/-- Opens a transaction on the repository in a directory. -/
def new (gitDir : String) (owner : ThreadId) (defaultMessage : String) : Transaction :=
  ⟨gitDir, owner, [], .opened, defaultMessage⟩

/-- The locked names, in order. -/
def lockedNames (t : Transaction) : List String := t.refs.keys

/-- The guards of the locked names. -/
def guards (t : Transaction) : List RefLock := t.refs.map (·.2.guard)

/-- The text for logs. -/
def text (t : Transaction) : String :=
  "Transaction \x7b git_dir: " ++ Text.quote t.gitDir ++ ", owner: ThreadId(" ++ toString t.owner
    ++ "), state: " ++ t.state.name ++ ", locked: " ++ Text.quoteList t.lockedNames ++ " \x7d"

def checkThread (t : Transaction) (caller : ThreadId) : Except Error Unit :=
  if caller = t.owner then .ok () else .error (.threadAffinity .transaction t.owner caller)

def checkOpen (t : Transaction) : Except Error Unit :=
  if t.state = .opened then .ok () else .error .transactionClosed

/-- The name is well formed. -/
def checkName (name : String) : Except Error Unit :=
  if RefName.isValid name then .ok ()
  else .error (.ofStatus .invalidSpec ("invalid reference name '" ++ name ++ "'"))

/-! ## Committing -/

/-- The changes to make, in the order of names.  To remove what was never
    there is no change. -/
def pending (t : Transaction) : List (String × LockedRef × Update) :=
  t.refs.filterMap fun (name, locked) =>
    match locked.update with
    | none => none
    | some u =>
      if u.mutation = .remove ∧ locked.observed = none then none else some (name, locked, u)

/-- The error for a name whose lock on disk cannot be taken. -/
def lockError (e : NativeError) (name : String) : Error :=
  if e.code = -14 then .lockConflict name else .ofNative e

/-- Locks names on disk, up to the first that fails. -/
def lockAll (b : RefBatch) : List String → Except Error Unit × RefBatch
  | [] => (.ok (), b)
  | name :: rest =>
    match b.lock name with
    | .ok b => lockAll b rest
    | .error e => (.error (lockError e name), b)

/-- Compares each name with what was there when it was locked. -/
def compareAll (refs : RefStore) : List (String × LockedRef × Update) → Except Error Unit
  | [] => .ok ()
  | (name, locked, _) :: rest => do
    let current ← (refs.find? name).mapError .ofNative
    if current = locked.observed then compareAll refs rest else throw (.refChanged name)

/-- The change that an update asks for. -/
def changeOf (refs : RefStore) (defaultMessage : String) (u : Update) :
    Except NativeError RefChange := do
  let who ← match u.signature with
    | some s => s.remake
    | none => pure refs.identity
  let message := u.message.getD defaultMessage
  match u.mutation with
  | .remove => return .delete
  | .target id =>
    if Credential.passable message then return .put (.direct id) who message else throw .nul
  | .symbolic name =>
    if Credential.passable message && Credential.passable name then
      return .put (.symbolic name) who message
    else throw .nul

/-- Queues the change of each name. -/
def queueAll (defaultMessage : String) (b : RefBatch) :
    List (String × LockedRef × Update) → Except NativeError RefBatch
  | [] => .ok b
  | (name, _, u) :: rest => do
    let change ← changeOf b.refs defaultMessage u
    queueAll defaultMessage (← b.queue name change) rest

/-- Locks, compares, queues and writes the pending changes. -/
def apply (t : Transaction) (refs : RefStore) : Except Error Unit × RefStore :=
  match t.pending with
  | [] => (.ok (), refs)
  | pending@((first, _, _) :: _) =>
    match RefBatch.begin refs with
    | .error e => (.error (.ofNative e), refs)
    | .ok b =>
      match lockAll b (pending.map (·.1)) with
      | (.error e, b) => (.error e, b.drop)
      | (.ok (), b) =>
        match compareAll b.refs pending with
        | .error e => (.error e, b.drop)
        | .ok () =>
          match queueAll t.defaultMessage b pending with
          | .error e => (.error (.ofNative e), b.drop)
          | .ok b =>
            match b.commit with
            | .error e => (.error (lockError e first), b.drop)
            | .ok refs => (.ok (), refs)

end Transaction

/-! ## Sessions -/

/-- A transaction with what it shares with others. -/
structure Session where
  txn : Transaction
  held : LockTable
  refs : RefStore
deriving DecidableEq, Repr, Inhabited

namespace Session

/-- Releases the locks and ends the transaction in a state. -/
def close (s : Session) (state : TransactionState) : Session :=
  { s with txn := { s.txn with refs := [], state }, held := s.held.releaseAll s.txn.guards }

/-- Locks a name.  A name that is locked already stays as it is.  If the name
    cannot be read, its guard is dropped again. -/
def lock (s : Session) (caller : ThreadId) (name : String) : Except Error Unit × Session :=
  match s.txn.checkThread caller *> s.txn.checkOpen with
  | .error e => (.error e, s)
  | .ok () =>
    if s.txn.refs.has name then (.ok (), s)
    else
      match Transaction.checkName name *> s.held.acquire s.txn.gitDir name with
      | .error e => (.error e, s)
      | .ok (guard, held) =>
        match s.refs.find? name with
        | .error e => (.error (.ofNative e), { s with held := held.release guard })
        | .ok observed =>
          let refs := s.txn.refs.insert name ⟨guard, observed, none⟩
          (.ok (), { s with held, txn := { s.txn with refs } })

/-- Queues a change of a locked name, in place of an earlier one. -/
def queue (s : Session) (caller : ThreadId) (name : String) (u : Update) :
    Except Error Session := do
  s.txn.checkThread caller
  s.txn.checkOpen
  match s.txn.refs.get? name with
  | none => throw (.refNotLocked name)
  | some locked =>
    let refs := s.txn.refs.insert name { locked with update := some u }
    return { s with txn := { s.txn with refs } }

/-- Makes all queued changes or none, and ends the transaction. -/
def commit (s : Session) (caller : ThreadId) : Except Error Unit × Session :=
  match s.txn.checkThread caller *> s.txn.checkOpen with
  | .error e => (.error e, s)
  | .ok () =>
    match s.txn.apply s.refs with
    | (.ok (), refs) => (.ok (), { s with refs }.close .committed)
    | (.error e, refs) => (.error e, { s with refs }.close .failed)

/-- Drops the queued changes, if the transaction is still open. -/
def discard (s : Session) : Session :=
  if s.txn.state = .opened then s.close .rolledBack else s

def rollback (s : Session) (caller : ThreadId) : Except Error Session :=
  (s.txn.checkThread caller).map fun _ => s.discard

end Session

/-- One call on a transaction. -/
inductive TxnCall
  | lock (name : String)
  | set (name : String) (id : Oid) (signature : Option Signature) (message : Option String)
  | symbolic (name target : String) (signature : Option Signature) (message : Option String)
  | remove (name : String)
  | commit
  | rollback
deriving DecidableEq, Repr, Inhabited

namespace Session

/-- A call that changes nothing when it fails. -/
def settle (s : Session) : Except Error Session → Except Error Unit × Session
  | .ok t => (.ok (), t)
  | .error e => (.error e, s)

/-- Makes one call from a thread. -/
def call (s : Session) (caller : ThreadId) : TxnCall → Except Error Unit × Session
  | .lock name => s.lock caller name
  | .set name id sig message => s.settle (s.queue caller name ⟨.target id, sig, message⟩)
  | .symbolic name target sig message =>
    s.settle (s.queue caller name ⟨.symbolic target, sig, message⟩)
  | .remove name => s.settle (s.queue caller name ⟨.remove, none, none⟩)
  | .commit => s.commit caller
  | .rollback => s.settle (s.rollback caller)

end Session

/-! ## Scopes

    The body of a scope is a tree: it makes calls and looks at references,
    and what it does next depends on the answers. -/

/-- What runs inside a scope. -/
inductive TxnBody (ε α : Type)
  | done (value : α)
  | fail (cause : ε)
  /-- It does not return. -/
  | panic
  | call (caller : ThreadId) (c : TxnCall) (next : Except Error Unit → TxnBody ε α)
  | look (next : RefStore → TxnBody ε α)

/-- Makes calls one after the other, up to the first that fails, counting those
    that succeeded; `last` goes on after all of them. -/
def TxnBody.calls {ε α : Type} (onError : Nat → Error → ε) (last : Nat → TxnBody ε α) :
    List (ThreadId × TxnCall) → Nat → TxnBody ε α
  | [], n => last n
  | (caller, c) :: rest, n => .call caller c fun
    | .ok _ => calls onError last rest (n + 1)
    | .error e => .fail (onError n e)

/-- How a scope ends. -/
inductive Ended (ε α : Type)
  | returned (value : α)
  | failed (cause : ε)
  /-- A panic passes through. -/
  | unwound
deriving Repr

namespace Session

variable {ε α : Type}

/-- Runs a body. -/
def play : Session → TxnBody ε α → Ended ε α × Session
  | s, .done v => (.returned v, s)
  | s, .fail e => (.failed e, s)
  | s, .panic => (.unwound, s)
  | s, .call caller c next => let (r, t) := s.call caller c; t.play (next r)
  | s, .look next => s.play (next s.refs)

/-- Commits after a body that succeeds and leaves the transaction open, and
    rolls back after one that fails.  The error of the body wins over one of
    the rollback. -/
def run (s : Session) (caller : ThreadId) (ofError : Error → ε) (body : TxnBody ε α) :
    Ended ε α × Session :=
  match s.play body with
  | (.returned v, t) =>
    if t.txn.state = .opened then
      match t.commit caller with
      | (.ok (), t) => (.returned v, t.discard)
      | (.error e, t) => (.failed (ofError e), t.discard)
    else (.returned v, t.discard)
  | (.failed e, t) => (.failed e, (t.settle (t.rollback caller)).2.discard)
  | (.unwound, t) => (.unwound, t.discard)

end Session

end Gitwork
