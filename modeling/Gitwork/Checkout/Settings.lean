import Gitwork.Object.Files
import Gitwork.Text.Wildcard

/-! # Settings of a checkout

    How a checkout treats what it finds in the working directory, and the
    paths that it is about. -/

namespace Gitwork

/-- How a checkout treats local changes. -/
inductive CheckoutStrategy
  /-- Changed files are not overwritten. -/
  | safe
  | force
  /-- Nothing is written; the handler is told what would be done. -/
  | dryRun
deriving DecidableEq, Repr, Inhabited

/-- The strategy of a word; safe unless another one is named. -/
def CheckoutStrategy.ofWord (word : String) : CheckoutStrategy :=
  if word = "force" then force else if word = "dry_run" then dryRun else safe

structure CheckoutSettings where
  strategy : CheckoutStrategy
  removeUntracked : Bool
  /-- Patterns for the paths that the checkout is about; all paths if there
      is none. -/
  paths : List String
deriving DecidableEq, Repr, Inhabited

def CheckoutSettings.default : CheckoutSettings := ⟨.safe, false, []⟩

/-- A pattern for paths: a wildcard, a path, or a directory with all that is
    below it. -/
structure PathPattern where
  pattern : String
  /-- The first pattern that holds of a path decides; a negated one leaves the
      path out. -/
  negated : Bool
deriving DecidableEq, Repr, Inhabited

namespace PathPattern

/-- The pattern that a text spells.  An empty one, and one that looks like a
    comment, is no pattern; a slash at either end does not count. -/
def ofText? (text : String) : Option PathPattern :=
  if text = "" ∨ text.startsWith "#" then none
  else
    let negated := text.startsWith "!"
    let cs := if negated then text.toList.drop 1 else text.toList
    let cs := if cs.head? = some '/' then cs.drop 1 else cs
    let cs := if cs.getLast? = some '/' then cs.dropLast else cs
    if cs = [] then none else some ⟨String.ofList cs, negated⟩

def holds (p : PathPattern) (path : String) : Bool :=
  p.pattern == path || Text.wildcardMatch false p.pattern path
    || (!Text.hasWildcard p.pattern && Files.isBelow path p.pattern)

/-- Whether patterns select a path. -/
def select (patterns : List PathPattern) (path : String) : Bool :=
  patterns.isEmpty || ((patterns.find? (·.holds path)).elim false (!·.negated))

end PathPattern

/-- Whether the texts of patterns select a path. -/
def selectsPath (paths : List String) (path : String) : Bool :=
  PathPattern.select (paths.filterMap PathPattern.ofText?) path

end Gitwork
