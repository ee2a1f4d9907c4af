import Gitwork.Ref.Name

/-! # Refspecs

    A refspec says which references of one repository become which references
    of another: `+source:target`.  Each side is a name, or a pattern in which
    one star stands for any text; a plus allows changes that lose commits.

    `starOf?` reads what the star stands for in a name and `fill` writes it
    into the other side, so a refspec sends `fill source t` to `fill target t`
    and nothing else. -/

namespace Gitwork

namespace RefName

/-- Whether a text may stand on one side of a refspec: a name, a single
    segment of any kind included, with one star if it is a pattern. -/
def isRefspecSide (pattern : Bool) (text : String) : Bool :=
  let stars := text.toList.count '*'
  let plain := if pattern && stars = 1 then text.map fun c => if c = '*' then 'x' else c else text
  match segments plain with
  | [] => false
  | [s] => isFirstSegment s && s.getLast? != some '.'
  | s :: rest =>
    isFirstSegment s && rest.all isSegment && (rest.getLastD []).getLast? != some '.'
      && !isCapital (dropCaret s)

end RefName

structure Refspec where
  /-- Whether commits may be lost. -/
  force : Bool
  source : String
  /-- Where it is stored; without one it is only looked at. -/
  target : Option String
deriving DecidableEq, Repr, Inhabited

namespace Refspec

/-! ## Patterns -/

/-- Whether a side has a star. -/
def isPattern (side : String) : Bool := side.contains '*'

/-- What the star of a side stands for in a name.  A side without a star
    stands for itself. -/
def starOf? (side name : String) : Option String :=
  match side.splitOn "*" with
  | [before, after] =>
    if before.isPrefixOf name && name.endsWith after
        && before.length + after.length ≤ name.length then
      some ((name.drop before.length).dropEnd after.length).toString
    else none
  | _ => if name = side then some "" else none

/-- A side with a text in place of its star. -/
def fill (side text : String) : String := String.intercalate text (side.splitOn "*")

/-! ## Reading -/

/-- The two sides of a text, split at its last colon. -/
def sides (text : String) : String × Option String :=
  match (text.splitOn ":").reverse with
  | right :: left@(_ :: _) => (String.intercalate ":" left.reverse, some right)
  | _ => (text, none)

/-- The plus at the start of a text, and the rest. -/
def splitForce (text : String) : Bool × String :=
  if text.startsWith "+" then (true, (text.drop 1).toString) else (false, text)

/-- A source that excludes what matches the rest of it. -/
def isExclusion (source : String) : Bool := source.startsWith "^"

/-- Reads what a fetch is asked for.  An empty source stands for `HEAD`, and
    an empty target for none. -/
def parseFetch? (text : String) : Option Refspec :=
  let (force, body) := splitForce text
  let (source, right) := sides body
  let target := right.filter (· ≠ "")
  let pattern := isPattern source
  let agree := target.elim (!pattern || (right.isNone && isExclusion source)) (isPattern · == pattern)
  let valid (side : String) : Bool := side = "" || RefName.isRefspecSide pattern side
  if agree && valid source && target.all valid then some ⟨force, source, target⟩ else none

/-- Reads what a push is asked for.  Without a target the source names it; an
    empty source deletes the target. -/
def parsePush? (text : String) : Option Refspec :=
  let (force, body) := splitForce text
  let (source, right) := sides body
  let pattern := isPattern source
  let target := right.getD source
  let agree := isPattern target == pattern
  let sourceValid := source = "" || !pattern || RefName.isRefspecSide pattern source
  if agree && sourceValid && RefName.isRefspecSide pattern target then
    some ⟨force, source, some target⟩
  else none

/-! ## What a refspec does to names -/

/-- Whether a name is one of the sources. -/
def covers (r : Refspec) (name : String) : Bool :=
  !isExclusion r.source && (starOf? r.source name).isSome

/-- Whether a name is excluded. -/
def excludes (r : Refspec) (name : String) : Bool :=
  isExclusion r.source && (starOf? (r.source.drop 1).toString name).isSome

/-- The target of a source. -/
def image? (r : Refspec) (name : String) : Option String := do
  let target ← r.target
  if isExclusion r.source then none
  else (starOf? r.source name).map (fill target)

/-- The source of a target. -/
def preimage? (r : Refspec) (name : String) : Option String := do
  let target ← r.target
  (starOf? target name).map (fill r.source)

/-- Completes a source that is a short name of one of the names that are
    there, and a target outside of `refs/`. -/
def complete (names : List String) (r : Refspec) : Refspec where
  force := r.force
  source :=
    if r.source.startsWith "refs/" then r.source
    else
      let found := [RefName.branchPlace, RefName.tagPlace, "refs/"].find? fun place =>
        names.contains (place ++ r.source)
      found.elim r.source (· ++ r.source)
  target := r.target.map fun t =>
    if t.startsWith "refs/" then t
    else if t.startsWith "remotes/" then "refs/" ++ t
    else RefName.branchPlace ++ t

/-- All tags, to the same names. -/
def allTags : Refspec := ⟨false, "refs/tags/*", some "refs/tags/*"⟩

/-- The branches of a remote, to the place for what is known of them. -/
def ofRemote (name : String) : String :=
  "+refs/heads/*:" ++ RefName.remotePlace ++ name ++ "/*"

end Refspec

end Gitwork
