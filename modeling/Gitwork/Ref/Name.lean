/-! # Names of references

    A name is a path of segments.  A name of one segment, such as `HEAD`, is
    written in capitals; a longer one may not begin with such a segment. -/

namespace Gitwork.RefName

/-- Characters that a name may not hold. -/
def isForbidden (c : Char) : Bool :=
  c.toNat ≤ 32 || c.toNat = 127 || "~^:\\?[*".toList.contains c

/-- Whether a text occurs in another. -/
def occurs (part : List Char) : List Char → Bool
  | [] => part.isEmpty
  | c :: rest => part.isPrefixOf (c :: rest) || occurs part rest

/-- The rules for one segment. -/
def isSegment (s : List Char) : Bool :=
  !s.isEmpty && s.head? != some '.' && !(".lock".toList).isSuffixOf s
    && !s.any isForbidden && !occurs ['.', '.'] s && !occurs ['@', '{'] s

/-- Capitals and inner underscores; also a lone `@`. -/
def isCapital (s : List Char) : Bool :=
  s == ['@']
    || (s.all (fun c => c.isUpper || c = '_') && s.head? != some '_' && s.getLast? != some '_')

/-- One caret may stand before the first segment. -/
def dropCaret : List Char → List Char
  | '^' :: rest => rest
  | s => s

/-- The segments of a name. -/
def segments (name : String) : List (List Char) := name.toList.splitOn '/'

/-- The first segment may be a caret alone. -/
def isFirstSegment (s : List Char) : Bool := isSegment (dropCaret s) || s == ['^']

def isValid (name : String) : Bool :=
  match segments name with
  | [] => false
  | [s] => isFirstSegment s && s.getLast? != some '.' && isCapital (dropCaret s)
  | s :: rest =>
    isFirstSegment s && rest.all isSegment && (rest.getLastD []).getLast? != some '.'
      && !isCapital (dropCaret s)

/-- The place of branches. -/
def branchPlace : String := "refs/heads/"

/-- The place of tags. -/
def tagPlace : String := "refs/tags/"

/-- The place of what is known of remote branches. -/
def remotePlace : String := "refs/remotes/"

def head : String := "HEAD"

def isBranch (name : String) : Bool := branchPlace.isPrefixOf name

def isTag (name : String) : Bool := tagPlace.isPrefixOf name

end Gitwork.RefName
