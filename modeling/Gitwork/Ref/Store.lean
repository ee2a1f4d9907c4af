import Gitwork.Object.Store
import Gitwork.Ref.Name
import Gitwork.Table

/-! # References

    Names for objects and names for other references, `HEAD` among them, with
    a log of what happened to each.

    A name is locked on disk while a program changes it, by this program or
    by another.  Looking up a name is one step; resolving one follows
    symbolic references for a bounded number of steps. -/

namespace Gitwork

/-- What a reference holds.  Names and targets are text: a symbolic reference
    whose target is no valid text on disk reads as absent and is left out. -/
inductive RefValue
  | direct (id : Oid)
  | symbolic (target : String)
deriving DecidableEq, Repr, Inhabited

/-- What the disk keeps of a value: a symbolic one loses the blanks at its end. -/
def RefValue.kept : RefValue → RefValue
  | .direct id => .direct id
  | .symbolic target =>
    let isBlank (c : Char) : Bool := c = ' ' || ('\t' ≤ c && c ≤ '\r')
    .symbolic (String.ofList (target.toList.reverse.dropWhile isBlank).reverse)

/-- One line of the log of a reference. -/
structure ReflogEntry where
  old : Oid
  new : Oid
  who : Signature
  message : Option String
deriving DecidableEq, Repr, Inhabited

/-- A step that the disk may refuse. -/
inductive RefStep
  | begin
  | lock (name : String)
  | queue (name : String)
  | write
deriving DecidableEq, Repr, Inhabited

/-- Why a name cannot be read.  That there is nothing of the name is no such
    reason. -/
structure ReadFailure where
  error : NativeError
  found : error.code ≠ -3
deriving DecidableEq, Repr

/-- The references of one repository. -/
structure RefStore where
  /-- Whether changes are logged. -/
  logging : Bool
  /-- Who is logged if nobody is named. -/
  identity : Signature
  values : Table RefValue
  /-- The newest entry first. -/
  logs : Table (List ReflogEntry)
  /-- The names that are locked on disk. -/
  locked : List String
  /-- The steps that fail, whatever they are asked to do. -/
  refused : List (RefStep × NativeError)
  /-- The names that the disk fails to read. -/
  unreadable : Table ReadFailure
deriving DecidableEq, Repr, Inhabited

/-- The name is locked on disk. -/
def NativeError.locked : NativeError := ⟨-14, "failed to lock file"⟩

/-- There are references below the name. -/
def NativeError.directory (name : String) : NativeError :=
  ⟨-23, "cannot lock ref '" ++ name ++ "', there are refs beneath that folder"⟩

/-- A reference of the name is there already. -/
def NativeError.taken (name : String) : NativeError :=
  ⟨-4, "failed to write reference '" ++ name ++ "': a reference with that name already exists."⟩

namespace RefStore

def empty (logging : Bool) (identity : Signature) : RefStore :=
  ⟨logging, identity, [], [], [], [], []⟩

/-- What is stored under a name, unread. -/
def get? (s : RefStore) (name : String) : Option RefValue := s.values.get? name

def has (s : RefStore) (name : String) : Bool := (s.get? name).isSome

/-- Fails if the disk refuses a step. -/
def attempt (s : RefStore) (step : RefStep) : Except NativeError Unit :=
  match s.refused.lookup step with
  | some e => .error e
  | none => .ok ()

/-! ## Looking up -/

/-- A symbolic reference to nothing cannot be read. -/
def read (s : RefStore) (name : String) : Except NativeError RefValue :=
  match s.unreadable.get? name with
  | some failure => .error failure.error
  | none =>
    match s.get? name with
    | none => .error .notFound
    | some (.symbolic "") => .error (.generic "corrupted reference")
    | some v => .ok v

/-- Looks up one name. -/
def find (s : RefStore) (name : String) : Except NativeError RefValue :=
  if RefName.isValid name then s.read name else .error .invalidSpec

/-- The value of a name, or none if there is no such reference. -/
def find? (s : RefStore) (name : String) : Except NativeError (Option RefValue) :=
  match s.find name with
  | .ok v => .ok (some v)
  | .error e => if e.code = -3 then .ok none else .error e

/-- Fails for a name that cannot be looked up, though there may be nothing of
    it. -/
def checkTarget (s : RefStore) : RefValue → Except NativeError Unit
  | .direct _ => .ok ()
  | .symbolic name => (s.find? name).map fun _ => ()

/-- The number of symbolic references that one resolution passes. -/
def maxNesting : Nat := 5

/-- Follows symbolic references; gives the last name with what it holds. -/
def chase (s : RefStore) : Nat → String → RefValue → Except NativeError (String × RefValue)
  | _, name, .direct id => .ok (name, .direct id)
  | 0, _, .symbolic _ => .error (.generic "cannot resolve reference")
  | fuel + 1, name, .symbolic target =>
    match s.read target with
    | .ok v => chase s fuel target v
    | .error e => if e.code = -3 then .ok (name, .symbolic target) else .error e

/-- The name and the id that a name leads to. -/
def resolveName (s : RefStore) (name : String) : Except NativeError (String × Oid) := do
  match ← s.chase maxNesting name (← s.find name) with
  | (last, .direct id) => return (last, id)
  | (_, .symbolic _) => throw .notFound

/-- The id that a name leads to. -/
def resolve (s : RefStore) (name : String) : Except NativeError Oid :=
  (s.resolveName name).map (·.2)

/-- The id that a value leads to. -/
def target (s : RefStore) : RefValue → Except NativeError Oid
  | .direct id => .ok id
  | .symbolic name => s.resolve name

/-- `HEAD` names a branch that is not there yet. -/
def unborn : NativeError := ⟨-9, "reference not found"⟩

/-- The reference that `HEAD` leads to, and its id. -/
def head (s : RefStore) : Except NativeError (String × Oid) := do
  match ← s.find RefName.head with
  | .direct id => return (RefName.head, id)
  | .symbolic name =>
    (s.resolveName name).mapError fun e => if e.code = -3 then unborn else e

/-- All references that can be read, without `HEAD` and its kind. -/
def all (s : RefStore) : Table RefValue :=
  s.values.filter fun e => "refs/".isPrefixOf e.1 && e.2 != .symbolic ""

/-! ## Logs -/

/-- Spaces of all kinds within ASCII. -/
def isBlank (b : UInt8) : Bool := b = 32 || (9 ≤ b && b ≤ 13)

/-- A message as the log keeps it: on one line, without blanks at its end.
    The last two bytes do not become spaces, so the message ends at a line
    feed there. -/
def logMessage (message : String) : Option String :=
  let bytes := Text.encodeUtf8 message
  let n := bytes.length
  let line := (bytes.zipIdx).map fun (b, i) => if b = 10 ∧ i + 2 < n then 32 else b
  let kept := ((line.reverse.dropWhile isBlank).reverse).takeWhile (· != 10)
  if kept = [] then none else Text.decodeUtf8? kept

/-- Whether changes of a name are logged: those of branches, of remote
    branches, of notes and of `HEAD`, and of every name that has a log. -/
def keepsLog (s : RefStore) (name : String) : Bool :=
  s.logging &&
    (s.logs.has name || RefName.isBranch name || RefName.remotePlace.isPrefixOf name
      || "refs/notes/".isPrefixOf name || name == RefName.head)

def appendLog (s : RefStore) (name : String) (entry : ReflogEntry) : RefStore :=
  { s with logs := s.logs.insert name (entry :: (s.logs.get? name).getD []) }

/-- The name that `HEAD` leads to, whether it is there or not. -/
def headName (s : RefStore) : Option String :=
  match s.find RefName.head with
  | .ok (.symbolic name) =>
    match s.chase maxNesting RefName.head (.symbolic name) with
    | .ok (last, .direct _) => some last
    | .ok (_, .symbolic next) => some next
    | .error _ => none
  | _ => none

/-- Logs a change, in front of the change itself.  `HEAD` logs what happens
    to the branch that it names; other symbolic references log nothing. -/
def logChange (s : RefStore) (name : String) (value : RefValue) (who : Signature)
    (message : String) : RefStore :=
  if s.keepsLog name then
    let old := ((s.resolve name).toOption).getD .zero
    let line (new : Oid) : ReflogEntry := ⟨old, new, who, logMessage message⟩
    match value with
    | .direct id =>
      let t := s.appendLog name (line id)
      if s.headName = some name then t.appendLog RefName.head (line id) else t
    | .symbolic target =>
      if name = RefName.head then
        match s.resolve target with
        | .ok id => s.appendLog name (line id)
        | .error _ => s
      else s
  else s

/-! ## Changes -/

/-- Why the lock of a name cannot be taken on disk: it is taken, the name is a
    directory of references, or it lies below a reference. -/
def lockError? (s : RefStore) (name : String) : Option NativeError :=
  if s.locked.contains name then some .locked
  else if s.values.any fun e => Files.isBelow e.1 name then some (.directory name)
  else if s.values.any fun e => Files.isBelow name e.1 then
    some (.generic ("the place of reference '" ++ name ++ "' lies below a reference"))
  else none

def put (s : RefStore) (name : String) (value : Option RefValue) : RefStore :=
  { s with values := s.values.put name value }

/-- Writes and logs a value, unless the name has it already. -/
def write (s : RefStore) (name : String) (value : RefValue) (who : Signature)
    (message : String) : RefStore :=
  if s.get? name = some value ∨ (s.get? name = none ∧ value = .direct .zero) then s
  else (s.logChange name value who message).put name (some value.kept)

/-- Points a name at an id.  What is there already is replaced only with
    `force`. -/
def create (s : RefStore) (name : String) (id : Oid) (force : Bool) (message : String) :
    Except NativeError RefStore := do
  if !RefName.isValid name then throw .invalidSpec
  if !force && s.has name then throw (.taken name)
  if let some e := s.lockError? name then throw e
  return s.write name (.direct id) s.identity message

/-- Deletes a reference and its log. -/
def delete (s : RefStore) (name : String) : RefStore :=
  { s with values := s.values.erase name, logs := s.logs.erase name }

/-- Deletes a reference whose lock is free. -/
def remove (s : RefStore) (name : String) : Except NativeError RefStore :=
  match s.lockError? name with
  | some e => .error e
  | none => .ok (s.delete name)

end RefStore

end Gitwork
