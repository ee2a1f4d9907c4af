/-! # Paths

    A path is compared by its components.  Repeated and trailing separators
    do not count, nor does a component `.` other than a leading one of a
    relative path; a component `..` counts.  The order of paths is the
    lexicographic order of their components, so `a/b` comes before `a.b`. -/

namespace Gitwork

/-- One step of a path. -/
inductive PathStep
  | root
  | here
  | up
  | name (text : String)
deriving DecidableEq, Repr, Inhabited

namespace PathStep

/-- The order of steps: root, here, up, names by their bytes. -/
def rank : PathStep → Nat
  | root => 0
  | here => 1
  | up => 2
  | name _ => 3

def compare : PathStep → PathStep → Ordering
  | name a, name b => Ord.compare a b
  | a, b => Ord.compare a.rank b.rank

end PathStep

namespace Path

/-- What stands between the separators of a path. -/
def parts (path : String) : List String := (path.toList.splitOn '/').map String.ofList

/-- The components that count, after the first one. -/
def innerSteps (parts : List String) : List PathStep :=
  parts.filterMap fun part =>
    if part = "" ∨ part = "." then none
    else if part = ".." then some .up
    else some (.name part)

/-- The components of a path. -/
def steps (path : String) : List PathStep :=
  match parts path with
  | "" :: rest => if path = "" then [] else .root :: innerSteps rest
  | "." :: rest => .here :: innerSteps rest
  | parts => innerSteps parts

/-- Lexicographic, by steps. -/
def compareSteps : List PathStep → List PathStep → Ordering
  | [], [] => .eq
  | [], _ :: _ => .lt
  | _ :: _, [] => .gt
  | a :: as, b :: bs => (a.compare b).then (compareSteps as bs)

/-- Compares two paths component by component. -/
def compare (a b : String) : Ordering := compareSteps (steps a) (steps b)

/-- Two spellings of one path. -/
def same (a b : String) : Bool := steps a == steps b

/-- Puts `tail` below `base`; an absolute `tail` stands for itself. -/
def join (base tail : String) : String :=
  if tail.startsWith "/" then tail
  else if base = "" ∨ base.endsWith "/" then base ++ tail
  else base ++ "/" ++ tail

end Path

end Gitwork
