import Gitwork.Checkout.Change
import Gitwork.Merge.Text

/-! # Merging files

    Two states of the files with a common ancestor are merged path by path.
    A path that only one side has changed takes that side's file; a path that
    both have changed is merged as text, and is in conflict if that fails. -/

namespace Gitwork.Merge

/-- How the merge of one path ends. -/
inductive PathResult
  | file (content : Option Bytes)
  | conflict (sides : IndexConflict)
deriving DecidableEq, Repr, Inhabited

/-- Content with a NUL byte is not merged as text. -/
def isText (content : Bytes) : Bool := !content.contains 0

def path (base ours theirs : Option Bytes) : PathResult :=
  if ours = theirs then .file ours
  else if base = ours then .file theirs
  else if base = theirs then .file ours
  else
    let merged : Option Bytes := do
      let a ← ours
      let b ← theirs
      if isText a && isText b then clean? (pieces (base.getD []) a b) else none
    match merged with
    | some content => .file (some content)
    | none => .conflict ⟨base, ours, theirs⟩

/-- The merge of two states of the files. -/
def files (base ours theirs : Files) : Index :=
  let paths := (base.keys ++ ours.keys ++ theirs.keys).eraseDups
  paths.foldl
    (fun i p =>
      match path (base.get? p) (ours.get? p) (theirs.get? p) with
      | .file content => { i with entries := i.entries.put p content }
      | .conflict sides => i.addConflict p sides)
    .empty

/-- The file that shows a conflict: both sides between markers, or the only
    side that has a file. -/
def shown (ourLabel theirLabel : String) (c : IndexConflict) : Option Bytes :=
  match c.ours, c.theirs with
  | some a, some b =>
    if isText a && isText b then
      some (marked ourLabel theirLabel (pieces (c.base.getD []) a b))
    else some a
  | some a, none => some a
  | none, theirs => theirs

end Gitwork.Merge
