import Gitwork.Ref.Store

/-! # Batches

    Several references change together.  A batch first takes the lock of each
    name on disk, then collects the changes, and writes them all at its end;
    until then nothing is written.  Dropping a batch gives its locks back.

    What a batch needs to succeed is checked before the first value is
    written, so it writes all of its changes or none. -/

namespace Gitwork

/-- What a batch does to one reference. -/
inductive RefChange
  | put (value : RefValue) (who : Signature) (message : String)
  | delete
deriving DecidableEq, Repr, Inhabited

/-- An unfinished batch. -/
structure RefBatch where
  refs : RefStore
  /-- The names that this batch has locked. -/
  taken : List String
  /-- The changes so far, the last one first. -/
  changes : List (String × RefChange)
deriving DecidableEq, Repr, Inhabited

/-- Texts end at a NUL character on the way to the engine. -/
def NativeError.nul : NativeError := ⟨-1, "data contained a nul byte"⟩

namespace Signature

/-- Characters that are cut off at the ends of a name. -/
def isCrud (c : Char) : Bool := c.toNat ≤ 32 || ".,:;<>\"\\'".toList.contains c

def trimCrud (s : String) : String :=
  String.ofList (((s.toList.dropWhile isCrud).reverse.dropWhile isCrud).reverse)

/-- A signature has a name and an address, neither with angle brackets. -/
def make (name email : String) (time : Option (Int × Int)) : Except NativeError Signature :=
  let bracketed (s : String) : Bool := s.toList.contains '<' || s.toList.contains '>'
  if bracketed name || bracketed email then .error (.generic "angle brackets in a signature")
  else if trimCrud name = "" ∨ trimCrud email = "" then .error (.generic "empty signature")
  else .ok ⟨trimCrud name, trimCrud email, time⟩

/-- The same signature, made anew. -/
def remake (s : Signature) : Except NativeError Signature := make s.name s.email s.time

end Signature

namespace RefBatch

def begin (refs : RefStore) : Except NativeError RefBatch :=
  (refs.attempt .begin).map fun _ => ⟨refs, [], []⟩

/-- Locks a name on disk. -/
def lock (b : RefBatch) (name : String) : Except NativeError RefBatch := do
  b.refs.attempt (.lock name)
  if let some e := b.refs.lockError? name then throw e
  return { b with
    refs := { b.refs with locked := name :: b.refs.locked }, taken := name :: b.taken }

/-- Adds a change. -/
def queue (b : RefBatch) (name : String) (change : RefChange) : Except NativeError RefBatch := do
  b.refs.attempt (.queue name)
  return { b with changes := (name, change) :: b.changes }

/-- Gives the locks back. -/
def drop (b : RefBatch) : RefStore :=
  { b.refs with locked := b.refs.locked.filter fun name => !b.taken.contains name }

/-- Makes one change; a deleted reference keeps its log. -/
def perform (refs : RefStore) (name : String) : RefChange → RefStore
  | .put value who message => refs.write name value who message
  | .delete => refs.put name none

/-- Writes all changes and gives the locks back. -/
def commit (b : RefBatch) : Except NativeError RefStore := do
  b.refs.attempt .write
  let names := b.changes.map (·.1)
  if names.any fun name => names.any fun other => Files.isBelow name other then
    throw (.generic "the name is a directory of references")
  return b.changes.reverse.foldl (fun refs c => perform refs c.1 c.2) b.drop

end RefBatch

end Gitwork
