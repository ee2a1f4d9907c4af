import Gitwork.Text.Utf8

/-! # Wildcards

    Patterns over the bytes of a path.  `?` stands for one byte, `*` for any
    number of them, a set in brackets for one of those that it lists.  In a
    pattern for whole paths none of these crosses a slash; there a `**`
    between slashes stands for any number of directories.

    A pattern is first taken apart; matching is by recursion on its parts. -/

namespace Gitwork.Text

/-- One part of a pattern. -/
inductive Wild
  | lit (c : Char)
  | one
  /-- Any number of bytes, with slashes among them or not. -/
  | many (slashes : Bool)
  /-- Any number of directories, each with its slash. -/
  | dirs
  /-- One byte in one of the ranges, or in none of them. -/
  | oneOf (negated : Bool) (ranges : List (Char × Char))
  /-- The pattern is broken here. -/
  | never
deriving DecidableEq, Repr, Inhabited

namespace Wild

/-- Bytes as characters, one for each. -/
def ofBytes (bytes : List UInt8) : List Char := bytes.map fun b => Char.ofNat b.toNat

/-- The bytes of a text, as characters. -/
def units (s : String) : List Char := ofBytes (encodeUtf8 s)

/-- The characters that a named class stands for; all are ASCII. -/
def classRanges? : String → Option (List (Char × Char))
  | "alnum" => some [('0', '9'), ('A', 'Z'), ('a', 'z')]
  | "alpha" => some [('A', 'Z'), ('a', 'z')]
  | "blank" => some [(' ', ' '), ('\t', '\t')]
  | "cntrl" => some [('\x00', '\x1f'), ('\x7f', '\x7f')]
  | "digit" => some [('0', '9')]
  | "graph" => some [('!', '~')]
  | "lower" => some [('a', 'z')]
  | "print" => some [(' ', '~')]
  | "punct" => some [('!', '/'), (':', '@'), ('[', '\x60'), ('\x7b', '~')]
  | "space" => some [('\t', '\r'), (' ', ' ')]
  | "upper" => some [('A', 'Z')]
  | "xdigit" => some [('0', '9'), ('A', 'F'), ('a', 'f')]
  | _ => none

/-- The ranges of a set up to its closing bracket, and what follows it.
    `before` is the last single character, which a range can start with; `fuel`
    bounds the number of items. -/
def ranges : Nat → Option Char → List (Char × Char) → List Char →
    Option (List (Char × Char) × List Char)
  | fuel + 1, before, acc, cs =>
    match before, cs with
    | _, ']' :: rest =>
      if acc.isEmpty then ranges fuel (some ']') [(']', ']')] rest else some (acc, rest)
    | some a, '-' :: '\\' :: b :: rest => ranges fuel none ((a, b) :: acc) rest
    | some a, '-' :: b :: rest =>
      if b = ']' then some (('-', '-') :: acc, rest) else ranges fuel none ((a, b) :: acc) rest
    | _, '\\' :: c :: rest => ranges fuel (some c) ((c, c) :: acc) rest
    | _, '[' :: ':' :: rest =>
      let word := rest.takeWhile (· ≠ ']')
      if word.length = rest.length then none
      else if word.getLast? = some ':' then
        match classRanges? (String.ofList word.dropLast) with
        | some rs => ranges fuel none (rs ++ acc) (rest.drop (word.length + 1))
        | none => none
      else ranges fuel (some '[') (('[', '[') :: acc) (':' :: rest)
    | _, c :: rest => ranges fuel (some c) ((c, c) :: acc) rest
    | _, [] => none
  | 0, _, _, _ => none

/-- Takes a pattern apart; `start` says that a component starts here, `fuel`
    bounds the number of parts. -/
def parse (wholePath : Bool) : Nat → Bool → List Char → List Wild
  | 0, _, _ => []
  | _, _, [] => []
  | fuel + 1, start, '*' :: '*' :: rest =>
    let rest := rest.dropWhile (· = '*')
    if !wholePath then many true :: parse wholePath fuel false rest
    else if start then
      match rest with
      | [] => [many true]
      | '/' :: rest => dirs :: parse wholePath fuel true rest
      | _ => many false :: parse wholePath fuel false rest
    else many false :: parse wholePath fuel false rest
  | fuel + 1, _, '*' :: rest => many (!wholePath) :: parse wholePath fuel false rest
  | fuel + 1, _, '?' :: rest => one :: parse wholePath fuel false rest
  | fuel + 1, _, '[' :: rest =>
    let negated := rest.head? = some '!' || rest.head? = some '^'
    match ranges (rest.length + 1) none [] (if negated then rest.drop 1 else rest) with
    | some (rs, rest) => oneOf negated rs :: parse wholePath fuel false rest
    | none => [never]
  | _, _, ['\\'] => [never]
  | fuel + 1, _, '\\' :: c :: rest => lit c :: parse wholePath fuel false rest
  | fuel + 1, _, c :: rest => lit c :: parse wholePath fuel (c = '/') rest

/-- The ends of a text, the longest first, up to where a slash would be
    passed. -/
def ends (slashes : Bool) : List Char → List (List Char)
  | [] => [[]]
  | c :: rest => (c :: rest) :: if c = '/' && !slashes then [] else ends slashes rest

/-- The text, and what follows each of its slashes. -/
def afterSlashes : List Char → List (List Char)
  | [] => []
  | c :: rest => if c = '/' then rest :: afterSlashes rest else afterSlashes rest

/-- Whether the parts match the whole text. -/
def matchParts (wholePath : Bool) : List Wild → List Char → Bool
  | [], text => text.isEmpty
  | many slashes :: parts, text =>
    (ends slashes text).any fun rest => matchParts wholePath parts rest
  | dirs :: parts, text =>
    (text :: afterSlashes text).any fun rest => matchParts wholePath parts rest
  | _ :: _, [] => false
  | lit c :: parts, d :: text => c = d && matchParts wholePath parts text
  | one :: parts, d :: text => !(wholePath && d = '/') && matchParts wholePath parts text
  | oneOf negated rs :: parts, d :: text =>
    (rs.any (fun r => r.1 ≤ d && d ≤ r.2) != negated) && !(wholePath && d = '/')
      && matchParts wholePath parts text
  | never :: _, _ :: _ => false

end Wild

/-- Whether a pattern of bytes matches a text; in a pattern for whole paths
    slashes are special. -/
def Wild.matchUnits (wholePath : Bool) (pattern : List Char) (text : String) : Bool :=
  matchParts wholePath (parse wholePath (pattern.length + 1) true pattern) (units text)

/-- Whether a pattern matches a text. -/
def wildcardMatch (wholePath : Bool) (pattern text : String) : Bool :=
  Wild.matchUnits wholePath (Wild.units pattern) text

/-- Whether a pattern has a special character. -/
def hasWildcard (pattern : String) : Bool :=
  pattern.any fun c => c = '*' || c = '?' || c = '['

end Gitwork.Text
