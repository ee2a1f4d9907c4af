import Gitwork.Error
import Gitwork.Object.Basic

/-! # Object stores

    Objects by name.  A tree is stored with all its parts, a commit with its
    tree; the commits and tags that an object points to may be missing.
    Peeling follows an object to one of another kind. -/

namespace Gitwork

/-- Objects by name. -/
abbrev ObjectStore := List (Oid × Object)

/-- Nothing has the name that was asked for. -/
def NativeError.notFound : NativeError := ⟨-3, "not found"⟩

/-- What was asked for has no meaning. -/
def NativeError.invalidSpec : NativeError := ⟨-12, "invalid specification"⟩

/-- A failure without a code of its own. -/
def NativeError.generic (message : String) : NativeError := ⟨-1, message⟩

namespace ObjectStore

/-- Nothing is stored under the null id. -/
def get? (s : ObjectStore) (id : Oid) : Option Object := if id.isZero then none else s.lookup id

def has (s : ObjectStore) (id : Oid) : Bool := (s.get? id).isSome

/-- Stores one object. -/
def insert (s : ObjectStore) (o : Object) : ObjectStore :=
  let id := o.id
  if s.has id then s else (id, o) :: s

/-- Stores an object with its parts. -/
def add (s : ObjectStore) (o : Object) : ObjectStore := o.withParts.foldl insert s

/-- Takes over entries that are not there yet. -/
def merge (s : ObjectStore) (more : ObjectStore) : ObjectStore :=
  more.foldl (fun s e => if s.has e.1 then s else e :: s) s

def find (s : ObjectStore) (id : Oid) : Except NativeError Object :=
  match s.get? id with
  | some o => .ok o
  | none => .error .notFound

/-- The object cannot be peeled to what was asked for. -/
def peelError : NativeError := ⟨-19, "the object cannot be peeled"⟩

/-- Follows tags, and a commit to its tree, until the kind is right; `fuel`
    bounds a chain of tags. -/
def peelFrom (s : ObjectStore) (want : ObjectKind) : Nat → Oid → Except NativeError Oid
  | 0, _ => .error peelError
  | fuel + 1, id => do
    let o ← s.find id
    if o.kind = want then return id
    match o with
    | .commit c => if want = .tree then return Object.treeId c.tree else throw peelError
    | .tag t => peelFrom s want fuel t.target
    | _ => throw peelError

/-- Peels an object.  Without a tag to follow, a request that the kind can
    never meet is an invalid one. -/
def peel (s : ObjectStore) (want : ObjectKind) (id : Oid) : Except NativeError Oid := do
  let o ← s.find id
  match o with
  | .tag _ => s.peelFrom want (s.length + 1) id
  | _ => (s.peelFrom want 1 id).mapError fun _ => .invalidSpec

/-- Follows tags to what they are about. -/
def untag (s : ObjectStore) : Nat → Oid → Except NativeError Oid
  | 0, _ => .error peelError
  | fuel + 1, id => do
    match ← s.find id with
    | .tag t => untag s fuel t.target
    | _ => return id

/-- The files of the tree that an object leads to. -/
def treeOf (s : ObjectStore) (id : Oid) : Except NativeError Files := do
  match ← s.find (← s.peel .tree id) with
  | .tree files => return files
  | _ => throw peelError

/-- The commit that an object leads to. -/
def commitOf (s : ObjectStore) (id : Oid) : Except NativeError (Oid × Commit) := do
  let id ← s.peel .commit id
  match ← s.find id with
  | .commit c => return (id, c)
  | _ => throw peelError

/-- The parents of a commit, the target of a tag. -/
def links (s : ObjectStore) (id : Oid) : List Oid :=
  match s.get? id with
  | some (.commit c) => c.parents
  | some (.tag t) => [t.target]
  | _ => []

/-- Everything that links lead to, the start first; `fuel` bounds the length
    of a path. -/
def walk (s : ObjectStore) : Nat → List Oid → List Oid → List Oid
  | 0, _, seen => seen
  | fuel + 1, ids, seen =>
    let new := (ids.filter fun id => s.has id && !seen.contains id).eraseDups
    if new.isEmpty then seen else walk s fuel (new.flatMap s.links) (seen ++ new)

/-- The commits and tags that ids lead to. -/
def reachable (s : ObjectStore) (ids : List Oid) : List Oid := s.walk (s.length + 1) ids []

/-- All objects that ids lead to. -/
def closure (s : ObjectStore) (ids : List Oid) : ObjectStore :=
  let objects := (s.reachable ids).filterMap fun id => s.get? id
  (objects.flatMap Object.withParts).foldl insert []

/-- Whether one commit can be reached from another. -/
def descends (s : ObjectStore) (id ancestor : Oid) : Bool := (s.reachable [id]).contains ancestor

end ObjectStore

end Gitwork
