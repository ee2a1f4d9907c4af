/-! # TOML values

    A document is a table.  Every table knows how it came to be, because that
    decides which later lines may still add to it: a header `[a]` may fill a
    table that only a deeper header has implied, a dotted key may extend a
    table that dotted keys have made, and nothing extends an inline table. -/

namespace Gitwork.Toml

/-- How a table came to be. -/
inductive TableForm
  /-- By its own header. -/
  | header
  /-- By a header below it. -/
  | implied
  /-- By a dotted key. -/
  | dotted
  /-- By braces. -/
  | inlined
deriving DecidableEq, Repr, Inhabited

/-- A value.  Numbers with a point and dates are recognised but not kept. -/
inductive Value
  | string (text : String)
  | integer (n : Int)
  | float
  | boolean (b : Bool)
  | dateTime
  | array (items : List Value)
  | table (form : TableForm) (entries : List (String × Value))
  /-- Tables made one by one by headers in double brackets. -/
  | tables (items : List (List (String × Value)))
deriving Repr, Inhabited

/-- Keys and values, in the order of their definition. -/
abbrev Entries := List (String × Value)

namespace Entries

def get? (t : Entries) (key : String) : Option Value := t.lookup key

/-- Replaces the value of a key, or adds the key at the end. -/
def put (t : Entries) (key : String) (v : Value) : Entries :=
  if t.any (·.1 == key) then t.map fun e => if e.1 == key then (key, v) else e
  else t ++ [(key, v)]

/-- Follows a path of keys and changes the table at its end.  The change sees
    the form of that table.  Missing tables are made on the way; a dotted
    path may not pass a table that has a header of its own. -/
def descend (isDotted : Bool) (change : TableForm → Entries → Option (Entries)) :
    List String → TableForm → Entries → Option Entries
  | [], form, t => change form t
  | key :: path, _, t =>
    match t.get? key with
    | none => do
      let form := if isDotted then .dotted else .implied
      let sub ← descend isDotted change path form []
      return t.put key (.table form sub)
    | some (.table form sub) =>
      if form = .inlined ∨ (isDotted ∧ form = .header) then none
      else do
        let sub ← descend isDotted change path form sub
        return t.put key (.table form sub)
    | some (.tables items) =>
      match items.reverse with
      | last :: before => do
        let last ← descend isDotted change path .header last
        return t.put key (.tables (before.reverse ++ [last]))
      | [] => none
    | some _ => none

/-- Defines a key that is not there yet. -/
def define (key : String) (v : Value) (t : Entries) : Option Entries :=
  match t.get? key with
  | none => some (t.put key v)
  | some _ => none

/-- Defines a dotted key from here.  The table that takes the value has to be
    of the making of dotted keys, unless it is this one. -/
def defineDotted (path : List String) (key : String) (v : Value) (form : TableForm)
    (t : Entries) : Option Entries :=
  descend true (fun reached sub =>
    if decide (reached = .dotted) = path.isEmpty then none else define key v sub) path form t

/-- Opens the table of a header. -/
def openTable (key : String) (t : Entries) : Option Entries :=
  match t.get? key with
  | none => some (t.put key (.table .header []))
  | some (.table .implied sub) => some (t.put key (.table .header sub))
  | some _ => none

/-- Adds a table to the array of a header in double brackets. -/
def addTable (key : String) (t : Entries) : Option Entries :=
  match t.get? key with
  | none => some (t.put key (.tables [[]]))
  | some (.tables items) => some (t.put key (.tables (items ++ [[]])))
  | some _ => none

end Entries

end Gitwork.Toml
