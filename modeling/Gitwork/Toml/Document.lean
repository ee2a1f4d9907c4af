import Gitwork.Toml.Lexical

/-! # TOML documents

    Keys, nested values, and the statements of a document.  `parse?` is total:
    nested values come with a bound on their depth, and every loop with the
    number of characters left. -/

namespace Gitwork.Toml

/-- Brackets nest less deep than this, and dotted keys are shorter. -/
def maxDepth : Nat := 80

def isBareKeyChar (c : Char) : Bool := c.isAlphanum || c == '_' || c == '-'

/-- One part of a key. -/
def simpleKey : Parser String
  | '"' :: r => basicString [] r
  | '\'' :: r => literalString [] r
  | s =>
    let k := s.takeWhile isBareKeyChar
    if k.isEmpty then none else some (String.ofList k, s.dropWhile isBareKeyChar)

/-- The parts of a dotted key, with blanks around them. -/
def keyParts : Nat → Parser (List String)
  | 0, _ => none
  | bound + 1, s => do
    let (k, s) ← simpleKey (skipBlanks s)
    match skipBlanks s with
    | '.' :: s =>
      let (ks, s) ← keyParts bound s
      some (k :: ks, s)
    | s => some ([k], s)

/-- A key as the path to its table and its last part. -/
def key (s : List Char) : Option ((List String × String) × List Char) := do
  let (ks, s) ← keyParts (maxDepth - 1) s
  match ks.reverse with
  | last :: path => some ((path.reverse, last), s)
  | [] => none

mutual

/-- A value, with a bound on the work and one on the depth of brackets. -/
def value : Nat → Nat → Parser Value
  | 0, _, _ => none
  | fuel + 1, depth, s =>
    match s with
    | '[' :: r =>
      match depth with
      | 0 => none
      | depth + 1 => items fuel depth [] r
    | '{' :: r =>
      match depth with
      | 0 => none
      | depth + 1 =>
        match skipBlanks r with
        | '}' :: r => some (.table .inlined [], r)
        | r => pairs fuel depth [] r
    | '"' :: _ => (string s).map fun (t, r) => (.string t, r)
    | '\'' :: _ => (string s).map fun (t, r) => (.string t, r)
    | _ => word s

/-- The items of an array after its bracket or a comma, with those before in
    reverse. -/
def items : Nat → Nat → List Value → Parser Value
  | 0, _, _, _ => none
  | fuel + 1, depth, acc, s => do
    match ← skipTrivia s with
    | ']' :: r => some (.array acc.reverse, r)
    | s =>
      let (v, s) ← value fuel depth s
      match ← skipTrivia s with
      | ',' :: r => items fuel depth (v :: acc) r
      | ']' :: r => some (.array (v :: acc).reverse, r)
      | _ => none

/-- The entries of an inline table after its brace or a comma. -/
def pairs : Nat → Nat → Entries → Parser Value
  | 0, _, _, _ => none
  | fuel + 1, depth, t, s => do
    let ((path, k), s) ← key s
    match s with
    | '=' :: s =>
      let (v, s) ← value fuel depth (skipBlanks s)
      let t ← Entries.defineDotted path k v .inlined t
      match skipBlanks s with
      | ',' :: r => pairs fuel depth t r
      | '}' :: r => some (.table .inlined t, r)
      | _ => none
    | _ => none

end

/-- A document so far: its table, and the path of the header in force. -/
structure Draft where
  root : Entries
  path : List String

namespace Draft

/-- Changes the table that a path of headers leads to. -/
def atPath (d : Draft) (path : List String) (change : Entries → Option Entries) :
    Option Draft := do
  return { d with root := ← Entries.descend false (fun _ t => change t) path .header d.root }

/-- A line `key = value`. -/
def define (d : Draft) (path : List String) (k : String) (v : Value) : Option Draft :=
  d.atPath d.path (Entries.defineDotted path k v .header)

/-- A line `[key]`. -/
def openTable (d : Draft) (path : List String) (k : String) : Option Draft := do
  return { ← d.atPath path (Entries.openTable k) with path := path ++ [k] }

/-- A line `[[key]]`. -/
def addTable (d : Draft) (path : List String) (k : String) : Option Draft := do
  return { ← d.atPath path (Entries.addTable k) with path := path ++ [k] }

end Draft

/-- One statement, from its first character. -/
def statement (d : Draft) (s : List Char) : Option (Draft × List Char) :=
  match s with
  | '[' :: '[' :: r => do
    let ((path, k), r) ← key r
    match r with
    | ']' :: ']' :: r => some (← d.addTable path k, r)
    | _ => none
  | '[' :: r => do
    let ((path, k), r) ← key r
    match r with
    | ']' :: r => some (← d.openTable path k, r)
    | _ => none
  | _ => do
    let ((path, k), r) ← key s
    match r with
    | '=' :: r =>
      let (v, r) ← value (3 * r.length + 3) (maxDepth - 1) (skipBlanks r)
      some (← d.define path k v, r)
    | _ => none

/-- All statements. -/
def statements : Nat → Draft → List Char → Option Draft
  | 0, _, _ => none
  | fuel + 1, d, s => do
    match ← skipTrivia s with
    | [] => some d
    | s =>
      let (d, s) ← statement d s
      statements fuel d (← endOfLine? s)

/-- The table of a document; a byte order mark in front does not count. -/
def parse? (text : String) : Option Entries := do
  let s := text.toList
  let s := match s with
    | '\uFEFF' :: r => r
    | _ => s
  let d ← statements (s.length + 1) ⟨[], []⟩ s
  return d.root

end Gitwork.Toml
