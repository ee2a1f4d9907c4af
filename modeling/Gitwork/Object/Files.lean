import Gitwork.Handler.Call
import Gitwork.Table
import Gitwork.Text.Utf8

/-! # Files

    The content of a tree, an index or a working directory: files by path, in
    the order of paths.  A path separates its components by slashes; a
    directory is there as long as a file is below it. -/

namespace Gitwork

/-- Files by path, in the order of paths. -/
abbrev Files := Table Bytes

namespace Files

/-- Whether a path lies below a directory. -/
def isBelow (path dir : String) : Bool := (dir ++ "/").isPrefixOf path

/-- Whether a path names a directory. -/
def hasDir (fs : Files) (dir : String) : Bool := fs.any fun f => isBelow f.1 dir

/-- The files below a directory, by their paths from there. -/
def under (fs : Files) (dir : String) : Files :=
  fs.filterMap fun (p, c) =>
    if isBelow p dir then some ((p.drop (dir.length + 1)).toString, c) else none

/-- The directories above a path, the outermost first. -/
def parents (path : String) : List String :=
  let parts := path.splitOn "/"
  (List.range (parts.length - 1)).map fun n => String.intercalate "/" (parts.take (n + 1))

/-- All directories with a file below them. -/
def dirs (fs : Files) : List String := (fs.flatMap fun f => parents f.1).eraseDups

/-- The entries of the top directory: a file, or a directory with what is
    below it. -/
def topEntries (fs : Files) : List (String × Option Bytes) :=
  (fs.map fun (p, c) =>
    match p.splitOn "/" with
    | [_] => (p, some c)
    | parts => (parts.headD p, none)).eraseDups

end Files

end Gitwork
