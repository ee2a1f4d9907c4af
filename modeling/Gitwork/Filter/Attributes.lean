import Gitwork.Object.Files
import Gitwork.Text.Wildcard

/-! # Attributes

    What a repository says about a path, in files named `.gitattributes`.  A
    line gives attributes to the paths that its pattern matches.  The file
    nearest to the path counts first, and in it the last line that speaks of
    the attribute. -/

namespace Gitwork

/-- What is said of one attribute. -/
inductive AttributeValue
  | set
  | unset
  /-- It is said that nothing is said. -/
  | unspecified
  | text (value : String)
deriving DecidableEq, Repr, Inhabited

/-- The paths that a line is about. -/
structure AttributePattern where
  /-- The pattern's bytes, as characters. -/
  pattern : List Char
  /-- Whether the pattern is about the whole path below the directory of the
      file, and not only about its last component. -/
  wholePath : Bool
  /-- Whether only directories match. -/
  onlyDirs : Bool
  /-- Whether the pattern stands for the paths that it does not match. -/
  negated : Bool
deriving DecidableEq, Repr, Inhabited

/-- One line. -/
structure AttributeRule where
  pattern : AttributePattern
  /-- Later ones count. -/
  values : List (String × AttributeValue)
deriving DecidableEq, Repr, Inhabited

namespace Attributes

def isBlank (c : Char) : Bool := c = ' ' || ('\t' ≤ c && c ≤ '\r')

/-- The first word of a line, in which a backslash keeps a blank. -/
def patternWord : List Char → List Char × List Char
  | '\\' :: c :: rest =>
    let (word, rest) := patternWord rest
    (if isBlank c then c :: word else '\\' :: c :: word, rest)
  | c :: rest =>
    if isBlank c then ([], c :: rest)
    else
      let (word, rest) := patternWord rest
      (c :: word, rest)
  | [] => ([], [])

/-- What the first word of a line is about. -/
def patternOf? (word : List Char) : Option AttributePattern :=
  let negated := word.head? = some '!'
  let word := if negated then word.drop 1 else word
  let onlyDirs := word.getLast? = some '/'
  let body := if onlyDirs then word.dropLast else word
  let anchored := body.head? = some '/'
  let pattern := if anchored then body.drop 1 else body
  if pattern = [] then none
  else some ⟨pattern, body.contains '/', onlyDirs, negated⟩

/-- Words that stand for some others too. -/
abbrev Macros := List (String × List (String × AttributeValue))

/-- The macro that is always there. -/
def binaryMacro : String × List (String × AttributeValue) :=
  ("binary", [("diff", .unset), ("merge", .unset), ("text", .unset)])

/-- What a word says with its macro; what it says of itself counts last. -/
def expand (macros : Macros) (v : String × AttributeValue) : List (String × AttributeValue) :=
  if v.2 = .set then (macros.lookup v.1).getD [] ++ [v] else [v]

/-- What one word says. -/
def valueOf? (word : String) : Option (String × AttributeValue) :=
  let signed := word.startsWith "-" || word.startsWith "!"
  let body := if signed then (word.drop 1).toString else word
  match body.splitOn "=" with
  | "" :: _ => none
  | [name] =>
    some (name, if word.startsWith "-" then .unset
      else if word.startsWith "!" then .unspecified else .set)
  | name :: rest =>
    let value := String.intercalate "=" rest
    some (name, if value ≠ "" then .text value
      else if word.startsWith "-" then .unset
      else if word.startsWith "!" then .unspecified else .set)
  | [] => none

/-- The words of a text. -/
def words (cs : List Char) : List String :=
  ((cs.splitBy fun a b => isBlank a == isBlank b).filter fun w => w.any (!isBlank ·)).map
    String.ofList

/-- The words up to a comment. -/
def valueWords (cs : List Char) : List String := (words cs).takeWhile (!·.startsWith "#")

/-- What is said after the first word of a line. -/
def valuesOf (macros : Macros) (cs : List Char) : List (String × AttributeValue) :=
  ((valueWords cs).filterMap valueOf?).flatMap (expand macros)

/-- Takes in one line.  One that starts with `[attr]` defines a macro for the
    lines after it; only the files in the top directory can. -/
def addLine (inTop : Bool) (acc : Macros × List AttributeRule) (line : List Char) :
    Macros × List AttributeRule :=
  let cs := line.dropWhile isBlank
  if cs.head? = some '#' then acc
  else
    let definesMacro := "[attr]".toList.isPrefixOf cs
    let (word, rest) := patternWord (if definesMacro then cs.drop 6 else cs)
    match patternOf? word, valuesOf acc.1 rest with
    | none, _ | _, [] => acc
    | some p, values =>
      if !definesMacro then (acc.1, acc.2 ++ [⟨p, values⟩])
      else if inTop then ((String.ofList p.pattern, values) :: acc.1, acc.2)
      else acc

/-- The lines of a file, up to a NUL byte and after a mark of UTF-8. -/
def lines (content : Bytes) : List (List Char) :=
  let body := match content with
    | 0xEF :: 0xBB :: 0xBF :: rest => rest
    | _ => content
  (Text.Wild.ofBytes (body.takeWhile (· ≠ 0))).splitOn '\n'

/-- The macros after a file, and its rules; `macros` are those before it. -/
def ofContent (inTop : Bool) (macros : Macros) (content : Bytes) : Macros × List AttributeRule :=
  (lines content).foldl (addLine inTop) (macros, [])

/-- Whether a line is about a file, given by its path below the directory of
    the attributes. -/
def AttributePattern.holds (p : AttributePattern) (path : String) : Bool :=
  let subject := if p.wholePath then path else ((path.splitOn "/").getLast?).getD path
  (!p.onlyDirs && Text.Wild.matchUnits p.wholePath p.pattern subject) != p.negated

/-- What one file says of an attribute of a path. -/
def lookup (rules : List AttributeRule) (name path : String) : Option AttributeValue :=
  rules.reverse.findSome? fun r =>
    if AttributePattern.holds r.pattern path then r.values.reverse.lookup name else none

/-- The directories that a path is in, the innermost first; the top directory
    has no name. -/
def places (path : String) : List String := ("" :: Files.parents path).reverse

/-- The macros that the files in the top directory define. -/
def topMacros (sources : List Files) : Macros :=
  sources.foldl (fun macros fs =>
    (ofContent true macros ((fs.get? ".gitattributes").getD [])).1) [binaryMacro]

/-- The rules of the files in a directory, one list for each source.  A file in
    the top directory knows the macros of the sources before it, any other
    those of all sources. -/
def rulesIn (sources : List Files) (dir : String) : List (List AttributeRule) :=
  let inTop := dir = ""
  let file := if inTop then ".gitattributes" else dir ++ "/.gitattributes"
  sources.zipIdx.map fun (fs, n) =>
    let macros := topMacros (if inTop then sources.take n else sources)
    (ofContent inTop macros ((fs.get? file).getD [])).2

/-- What the files of some sources say of an attribute of a path; in each
    directory the first source that speaks counts. -/
def get? (sources : List Files) (name path : String) : Option AttributeValue :=
  (places path).findSome? fun dir =>
    let inner := if dir = "" then path else (path.drop (dir.length + 1)).toString
    (rulesIn sources dir).findSome? (lookup · name inner)

end Attributes

end Gitwork
