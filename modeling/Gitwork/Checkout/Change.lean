import Gitwork.Checkout.Settings
import Gitwork.Repo.Basic

/-! # Changes

    What differs between two states of the files, path by path.  The state of
    a working directory is compared with a tree by way of the index: a path is
    changed locally if the index or the file differs. -/

namespace Gitwork

/-- One path with the file it had and the file it gets. -/
structure FileChange where
  path : String
  old : Option Bytes
  new : Option Bytes
deriving DecidableEq, Repr, Inhabited

/-- All paths of two states, in order, with the files of both. -/
def Files.pairs (old new : Files) : List FileChange :=
  let paths := old.keys ++ new.keys.filter fun p => !old.has p
  (paths.mergeSort fun a b => !decide (b < a)).map fun p => ⟨p, old.get? p, new.get? p⟩

/-- The paths whose files differ. -/
def Files.changes (old new : Files) : List FileChange :=
  (Files.pairs old new).filter fun c => c.old != c.new

/-- What has happened to a path. -/
inductive DeltaStatus
  | unmodified
  | added
  | deleted
  | modified
  | renamed
  | copied
  | ignored
  | untracked
  | typeChanged
  | unreadable
  | conflicted
deriving DecidableEq, Repr, Inhabited

/-- One line of a comparison: what has happened, and the names before and
    after it. -/
structure Delta where
  status : DeltaStatus
  oldPath : Option String
  newPath : Option String
deriving DecidableEq, Repr, Inhabited

namespace Delta

/-- The path that a line is about. -/
def path? (d : Delta) : Option String := d.newPath.or d.oldPath

def ofPath (status : DeltaStatus) (path : String) : Delta := ⟨status, some path, some path⟩

end Delta

namespace FileChange

def status (c : FileChange) : DeltaStatus :=
  match c.old, c.new with
  | none, none => .unmodified
  | none, some _ => .added
  | some _, none => .deleted
  | some a, some b => if a = b then .unmodified else .modified

def delta (c : FileChange) : Delta := .ofPath c.status c.path

end FileChange

/-- The comparison of two trees, for selected paths. -/
def Files.deltas (paths : List String) (old new : Files) : List Delta :=
  ((Files.changes old new).filter fun c => selectsPath paths c.path).map FileChange.delta

namespace Repo

/-- What has happened to one path since a tree: first by what is staged, then
    by what is in the working directory.  A file that was staged as a new one
    and is gone again has not changed; one that was unstaged and is still
    there has. -/
def localStatus (r : Repo) (head : Files) (path : String) : DeltaStatus :=
  let staged : FileChange := ⟨path, head.get? path, r.index.entries.get? path⟩
  let edited : FileChange := ⟨path, r.index.entries.get? path, r.files.get? path⟩
  if r.index.conflicts.has path then .conflicted
  else
    match staged.status, edited.status with
    | .unmodified, .added => .untracked
    | .unmodified, s => s
    | .added, .deleted => .unmodified
    | .modified, .deleted => .deleted
    | s, _ => s

/-- The comparison of a tree with the working directory, for selected
    paths. -/
def localDeltas (r : Repo) (head : Files) (paths : List String) : List Delta :=
  let all := (head.keys ++ r.index.entries.keys ++ r.index.conflicts.keys ++ r.files.keys).eraseDups
  ((all.mergeSort fun a b => !decide (b < a)).filter (selectsPath paths)).map fun p =>
    .ofPath (r.localStatus head p) p

end Repo

end Gitwork
