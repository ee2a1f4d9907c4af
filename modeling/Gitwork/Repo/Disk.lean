import Gitwork.Repo.Basic

/-! # Disks

    Repositories by the directory they are in, and other directories.  A
    repository is found from any place below its directory. -/

namespace Gitwork

structure Disk where
  /-- Repositories by directory. -/
  repos : Table Repo
  /-- Directories without files. -/
  dirs : List String

namespace Path

/-- Removes what does not count in an absolute path; a step up removes the
    component before it. -/
def normalize (path : String) : String :=
  let parts := (steps path).foldl
    (fun acc s => match s with
      | .name n => n :: acc
      | .up => acc.drop 1
      | _ => acc) []
  "/" ++ String.intercalate "/" parts.reverse

/-- The path and the directories above it, the innermost first. -/
def ancestors (path : String) : List String :=
  let parts := (Path.parts path).filter (· != "")
  (List.range (parts.length + 1)).map fun n =>
    "/" ++ String.intercalate "/" (parts.take (parts.length - n))

/-- The part of a path below a directory. -/
def below? (dir path : String) : Option String :=
  if path = dir then some ""
  else if Files.isBelow path dir then some (path.drop (dir.length + 1)).toString
  else none

end Path

namespace Disk

def empty : Disk := ⟨[], []⟩

def repo? (d : Disk) (dir : String) : Option Repo := d.repos.get? dir

def setRepo (d : Disk) (dir : String) (r : Repo) : Disk := { d with repos := d.repos.insert dir r }

/-- The directories that every repository has inside. -/
def innerDirs : List String := ["objects", "refs", "refs/heads", "refs/tags"]

/-- Whether a repository has something at a place below its directory. -/
def repoHas (r : Repo) (inner : String) : Bool :=
  let inGitDir (p : String) : Bool := p = "" || p = "HEAD" || innerDirs.contains p
  if r.isBare then inGitDir inner
  else
    inner = "" || r.files.has inner || r.files.hasDir inner
      || (match Path.below? ".git" inner with
        | some p => inGitDir p
        | none => false)

/-- Whether something is at a path. -/
def present (d : Disk) (path : String) : Bool :=
  (d.dirs.any fun dir => dir = path || Files.isBelow dir path)
    || d.repos.any fun (dir, r) =>
      Files.isBelow dir path
        || (match Path.below? dir path with
          | some inner => repoHas r inner
          | none => false)

/-- The directory of the repository that a path is in. -/
def discover (d : Disk) (path : String) : Except NativeError String :=
  let path := Path.normalize path
  if d.present path then
    match (Path.ancestors path).find? fun p => d.repos.has p with
    | some dir => .ok dir
    | none => .error .notFound
  else .error .notFound

/-- The repository at a path: its directory, or the one inside it. -/
def openAt (d : Disk) (path : String) : Except NativeError String :=
  let path := Path.normalize path
  if d.repos.has path then .ok path
  else
    match d.repos.find? fun e => e.2.gitDir = path with
    | some (dir, _) => .ok dir
    | none => .error .notFound

/-- Makes a directory. -/
def makeDir (d : Disk) (path : String) : Disk := { d with dirs := Path.normalize path :: d.dirs }

end Disk

end Gitwork
