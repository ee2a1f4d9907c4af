import Gitwork.Config.Basic
import Gitwork.Ref.Store

/-! # Repositories

    A repository has objects, references, settings and remotes.  One that is
    not bare has a working directory and an index as well: what is staged for
    the next commit, and the three sides of each unresolved conflict. -/

namespace Gitwork

/-- There is no working directory. -/
def NativeError.bare : NativeError := ⟨-8, "this repository is bare"⟩

/-- The three sides of an unresolved conflict; a side may have no file. -/
structure IndexConflict where
  base : Option Bytes
  ours : Option Bytes
  theirs : Option Bytes
deriving DecidableEq, Repr, Inhabited

/-- What is staged. -/
structure Index where
  entries : Files
  conflicts : Table IndexConflict
deriving DecidableEq, Repr, Inhabited

namespace Index

def empty : Index := ⟨[], []⟩

/-- Whether a path is staged or in conflict. -/
def has (i : Index) (path : String) : Bool := i.entries.has path || i.conflicts.has path

/-- Every path of the index with one file: of a path in conflict the last side
    that has one, theirs before ours before the base. -/
def listed (i : Index) : Files :=
  i.conflicts.foldl
    (fun fs (path, c) =>
      match (c.theirs.orElse fun _ => c.ours).orElse fun _ => c.base with
      | some content => fs.insert path content
      | none => fs)
    i.entries

/-- Stages a file, which resolves a conflict. -/
def add (i : Index) (path : String) (content : Bytes) : Index :=
  ⟨i.entries.insert path content, i.conflicts.erase path⟩

/-- Unstages a file. -/
def remove (i : Index) (path : String) : Index := { i with entries := i.entries.erase path }

def addConflict (i : Index) (path : String) (c : IndexConflict) : Index :=
  ⟨i.entries.erase path, i.conflicts.insert path c⟩

end Index

/-- A configured remote. -/
structure Remote where
  url : String
  /-- What it fetches when nothing is named. -/
  fetch : List String
deriving DecidableEq, Repr, Inhabited

structure Repo where
  /-- The directory of the repository itself, without a slash at its end. -/
  gitDir : String
  /-- The working directory, unless the repository is bare. -/
  workDir : Option String
  objects : ObjectStore
  refs : RefStore
  index : Index
  files : Files
  settings : Table String
  remotes : Table Remote
  /-- The configuration file inside the repository. -/
  config : ConfigSource

namespace Repo

def isBare (r : Repo) : Bool := r.workDir.isNone

/-- The directory of the repository as it is shown. -/
def path (r : Repo) : String := r.gitDir ++ "/"

/-- The text for logs. -/
def text (r : Repo) : String := "Git \x7b path: " ++ Text.quote r.path ++ " \x7d"

/-- A fresh repository in a directory; its `HEAD` names a branch that is not
    there yet. -/
def init (dir : String) (bare : Bool) (identity : Signature) (headTarget : String) : Repo where
  gitDir := if bare then dir else Path.join dir ".git"
  workDir := if bare then none else some dir
  objects := []
  refs := (RefStore.empty (!bare) identity).put RefName.head (some (.symbolic headTarget))
  index := .empty
  files := []
  settings := []
  remotes := []
  config := .missing

def addObject (r : Repo) (o : Object) : Repo := { r with objects := r.objects.add o }

/-- The files of the commit that `HEAD` leads to. -/
def headTree (r : Repo) : Except NativeError Files := do
  let (_, id) ← r.refs.head
  r.objects.treeOf id

/-- Where a repository keeps its configuration file. -/
def configPlace : String := ".git/gitbridge/config.toml"

/-- Writes a file of the working directory, or deletes it.  Neither a
    directory nor something below a file can be written. -/
def writeFile (r : Repo) (path : String) (content : Option Bytes) : Option Repo :=
  if path = configPlace then some { r with config := content.elim .missing .file }
  else
    match content with
    | none => if r.files.has path then some { r with files := r.files.erase path } else none
    | some _ =>
      if r.files.hasDir path || (Files.parents path).any r.files.has then none
      else some { r with files := r.files.put path content }

def writeFiles (r : Repo) (changes : List (String × Option Bytes)) : Option Repo :=
  changes.foldlM (fun r c => r.writeFile c.1 c.2) r

/-- Stages what the working directory has at a path, be it nothing. -/
def stage (r : Repo) (path : String) : Repo :=
  { r with index := match r.files.get? path with
    | some content => r.index.add path content
    | none => r.index.remove path }

/-! ## Reading references -/

/-- The id that `id` peels to. -/
def peel (r : Repo) (want : ObjectKind) (id : Oid) : Except NativeError Oid :=
  r.objects.peel want id

/-- The commit that a reference leads to. -/
def resolveRef (r : Repo) (name : String) : Except Error Oid := do
  let v ← (r.refs.find name).mapError .ofNative
  let id ← (r.refs.target v).mapError .ofNative
  (r.peel .commit id).mapError .ofNative

/-- The same, or none if something is missing on the way. -/
def tryResolveRef (r : Repo) (name : String) : Except Error (Option Oid) :=
  match r.resolveRef name with
  | .ok id => .ok (some id)
  | .error e => if e.nativeKind? = some .notFound then .ok none else .error e

/-- The id at the end of a chain of references, or none if there is no
    reference of this name. -/
def referenceTarget (r : Repo) (name : String) : Except Error (Option Oid) :=
  match r.refs.find name with
  | .error e => if e.code = -3 then .ok none else .error (.ofNative e)
  | .ok v => ((r.refs.target v).map some).mapError .ofNative

/-- What a symbolic reference names. -/
def symbolicTarget (r : Repo) (name : String) : Except Error (Option String) :=
  match r.refs.find name with
  | .ok (.symbolic target) => .ok (some target)
  | .ok (.direct _) => .ok none
  | .error e => if e.code = -3 then .ok none else .error (.ofNative e)

/-- The commit that `HEAD` leads to. -/
def headOid (r : Repo) : Except Error Oid := do
  let (_, id) ← r.refs.head.mapError .ofNative
  (r.peel .commit id).mapError .ofNative

end Repo

end Gitwork
