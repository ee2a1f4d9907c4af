import Gitwork.Toml.Value

/-! # The lexical grammar of TOML

    Blanks, comments, strings, numbers and dates.  A parser takes the
    characters that are left and gives what it read and what is left then, or
    nothing when the grammar is violated. -/

namespace Gitwork.Toml

/-- A parser of `α`s. -/
abbrev Parser (α : Type) := List Char → Option (α × List Char)

def isBlank (c : Char) : Bool := c == ' ' || c == '\t'

def skipBlanks (s : List Char) : List Char := s.dropWhile isBlank

/-- Characters other than line ends that may stand in a comment or a literal
    string: the tab, and all from the space on but delete. -/
def isPlain (c : Char) : Bool := c == '\t' || (' ' ≤ c && c != '\x7f')

/-- The rest after one line end. -/
def newline? : List Char → Option (List Char)
  | '\n' :: r => some r
  | '\r' :: '\n' :: r => some r
  | _ => none

/-- The rest of a comment up to its line end. -/
def skipComment (s : List Char) : List Char := s.dropWhile isPlain

mutual

/-- Skips blanks, line ends and comments. -/
def skipTrivia : List Char → Option (List Char)
  | ' ' :: r => skipTrivia r
  | '\t' :: r => skipTrivia r
  | '\n' :: r => skipTrivia r
  | '\r' :: '\n' :: r => skipTrivia r
  | '#' :: r => skipCommented r
  | s => some s

/-- The same from inside a comment. -/
def skipCommented : List Char → Option (List Char)
  | '\n' :: r => skipTrivia r
  | '\r' :: '\n' :: r => skipTrivia r
  | c :: r => if isPlain c then skipCommented r else none
  | [] => some []

end

/-- What follows a statement: blanks, perhaps a comment, and a line end or the
    end of the text. -/
def endOfLine? (s : List Char) : Option (List Char) :=
  let s := skipBlanks s
  let s := match s with
    | '#' :: r => skipComment r
    | _ => s
  match s with
  | [] => some []
  | _ => newline? s

/-! ## Strings -/

def hexValue? (c : Char) : Option Nat :=
  if '0' ≤ c ∧ c ≤ '9' then some (c.toNat - '0'.toNat)
  else if 'a' ≤ c ∧ c ≤ 'f' then some (c.toNat - 'a'.toNat + 10)
  else if 'A' ≤ c ∧ c ≤ 'F' then some (c.toNat - 'A'.toNat + 10)
  else none

/-- The character with a code in hexadecimal digits; surrogates are none. -/
def charOfHex? (digits : List Char) : Option Char := do
  let n ← digits.foldlM (fun n c => do return n * 16 + (← hexValue? c)) 0
  if h : n.isValidChar then some ⟨.ofNat n, by
    rw [UInt32.isValidChar, UInt32.toNat_ofNat_of_lt']
    · exact h
    · cases h <;> simp_all [UInt32.size] <;> omega⟩
  else none

/-- What a backslash in front of a single character stands for. -/
def escaped? : Char → Option Char
  | 'b' => some '\x08'
  | 't' => some '\t'
  | 'n' => some '\n'
  | 'f' => some '\x0c'
  | 'r' => some '\r'
  | '"' => some '"'
  | '\\' => some '\\'
  | _ => none

/-- A string that has been read, from its characters in reverse. -/
def textOf (acc : List Char) : String := String.ofList acc.reverse

/-- The rest of a basic string after its opening quote. -/
def basicString (acc : List Char) : Parser String
  | '"' :: r => some (textOf acc, r)
  | '\\' :: 'u' :: a :: b :: c :: d :: r =>
    match charOfHex? [a, b, c, d] with
    | some x => basicString (x :: acc) r
    | none => none
  | '\\' :: 'U' :: a :: b :: c :: d :: e :: f :: g :: h :: r =>
    match charOfHex? [a, b, c, d, e, f, g, h] with
    | some x => basicString (x :: acc) r
    | none => none
  | '\\' :: c :: r =>
    match escaped? c with
    | some x => basicString (x :: acc) r
    | none => none
  | c :: r => if isPlain c then basicString (c :: acc) r else none
  | [] => none

/-- The rest of a literal string after its opening quote. -/
def literalString (acc : List Char) : Parser String
  | '\'' :: r => some (textOf acc, r)
  | c :: r => if isPlain c then literalString (c :: acc) r else none
  | [] => none

/-- Whether only blanks stand before the next line end. -/
def endsLine (s : List Char) : Bool := (newline? (skipBlanks s)).isSome

/-- The rest of a basic string of several lines.  Two quotes may stand before
    the closing three.  After a backslash at the end of a line all blanks and
    line ends are skipped. -/
def basicLines (acc : List Char) : Bool → Parser String
  | true, ' ' :: r => basicLines acc true r
  | true, '\t' :: r => basicLines acc true r
  | true, '\n' :: r => basicLines acc true r
  | true, '\r' :: '\n' :: r => basicLines acc true r
  | _, '"' :: '"' :: '"' :: '"' :: '"' :: r => some (textOf ('"' :: '"' :: acc), r)
  | _, '"' :: '"' :: '"' :: '"' :: r => some (textOf ('"' :: acc), r)
  | _, '"' :: '"' :: '"' :: r => some (textOf acc, r)
  | _, '\\' :: 'u' :: a :: b :: c :: d :: r =>
    match charOfHex? [a, b, c, d] with
    | some x => basicLines (x :: acc) false r
    | none => none
  | _, '\\' :: 'U' :: a :: b :: c :: d :: e :: f :: g :: h :: r =>
    match charOfHex? [a, b, c, d, e, f, g, h] with
    | some x => basicLines (x :: acc) false r
    | none => none
  | _, '\\' :: c :: r =>
    match escaped? c with
    | some x => basicLines (x :: acc) false r
    | none => if endsLine (c :: r) then basicLines acc true r else none
  | _, '\n' :: r => basicLines ('\n' :: acc) false r
  | _, '\r' :: '\n' :: r => basicLines ('\n' :: acc) false r
  | _, c :: r => if isPlain c then basicLines (c :: acc) false r else none
  | _, [] => none

/-- The rest of a literal string of several lines. -/
def literalLines (acc : List Char) : Parser String
  | '\'' :: '\'' :: '\'' :: '\'' :: '\'' :: r => some (textOf ('\'' :: '\'' :: acc), r)
  | '\'' :: '\'' :: '\'' :: '\'' :: r => some (textOf ('\'' :: acc), r)
  | '\'' :: '\'' :: '\'' :: r => some (textOf acc, r)
  | '\n' :: r => literalLines ('\n' :: acc) r
  | '\r' :: '\n' :: r => literalLines ('\n' :: acc) r
  | c :: r => if isPlain c then literalLines (c :: acc) r else none
  | [] => none

/-- The first line end after the opening quotes does not count. -/
def skipFirstNewline (s : List Char) : List Char := (newline? s).getD s

/-- Any of the four kinds of strings. -/
def string : Parser String
  | '"' :: '"' :: '"' :: r => basicLines [] false (skipFirstNewline r)
  | '"' :: r => basicString [] r
  | '\'' :: '\'' :: '\'' :: r => literalLines [] (skipFirstNewline r)
  | '\'' :: r => literalString [] r
  | _ => none

/-! ## Numbers -/

/-- The value of digits in a base; single underscores may stand between. -/
def digits? (base : Nat) (s : List Char) : Option Nat :=
  let groups := s.splitOn '_'
  if groups.any (·.isEmpty) then none
  else
    groups.flatten.foldlM (fun n c => do
      let d ← hexValue? c
      if d < base then some (n * base + d) else none) 0

/-- Decimal digits without a zero in front. -/
def decimal? (s : List Char) : Option Nat :=
  match s with
  | '0' :: _ :: _ => none
  | _ => digits? 10 s

/-- A sign, and what follows it. -/
def splitSign : List Char → Bool × List Char
  | '-' :: r => (true, r)
  | '+' :: r => (false, r)
  | s => (false, s)

/-- An integer of 64 bits. -/
def integer? (s : List Char) : Option Int := do
  let n : Int ← match s with
    | '0' :: 'x' :: r => (digits? 16 r).map Int.ofNat
    | '0' :: 'o' :: r => (digits? 8 r).map Int.ofNat
    | '0' :: 'b' :: r => (digits? 2 r).map Int.ofNat
    | _ =>
      let (negative, r) := splitSign s
      (decimal? r).map fun n => if negative then -(Int.ofNat n) else Int.ofNat n
  if -0x8000000000000000 ≤ n ∧ n < 0x8000000000000000 then some n else none

/-- An exponent: a sign and digits. -/
def isExponent (s : List Char) : Bool := (digits? 10 (splitSign s).2).isSome

/-- A number with a point or an exponent, or one of the words for the limits
    of arithmetic. -/
def isFloat (s : List Char) : Bool :=
  let (_, r) := splitSign s
  if r = "inf".toList ∨ r = "nan".toList then true
  else
    let isE := fun c => c == 'e' || c == 'E'
    let mantissa := r.takeWhile (!isE ·)
    let exponent := r.dropWhile (!isE ·)
    let whole := mantissa.takeWhile (· != '.')
    let fraction := mantissa.dropWhile (· != '.')
    (decimal? whole).isSome
      && (fraction.isEmpty || (digits? 10 (fraction.drop 1)).isSome)
      && (exponent.isEmpty || isExponent (exponent.drop 1))
      && !(fraction.isEmpty && exponent.isEmpty)

/-! ## Dates and times -/

/-- A number of two digits in a range. -/
def twoDigits? (lo hi : Nat) : List Char → Option (Nat × List Char)
  | a :: b :: r => do
    let n ← digits? 10 [a, b]
    if lo ≤ n ∧ n ≤ hi ∧ a ≠ '_' ∧ b ≠ '_' then some (n, r) else none
  | _ => none

/-- The number of days of a month. -/
def daysIn (year month : Nat) : Nat :=
  if month = 2 then
    if year % 4 = 0 ∧ (year % 100 ≠ 0 ∨ year % 400 = 0) then 29 else 28
  else if month = 4 ∨ month = 6 ∨ month = 9 ∨ month = 11 then 30
  else 31

/-- What is left after a date. -/
def date? : List Char → Option (List Char)
  | a :: b :: c :: d :: '-' :: r => do
    let year ← digits? 10 [a, b, c, d]
    let (month, r) ← twoDigits? 1 12 r
    match r with
    | '-' :: r =>
      let (_, r) ← twoDigits? 1 (daysIn year month) r
      some r
    | _ => none
  | _ => none

/-- What is left after a time of day. -/
def time? (s : List Char) : Option (List Char) := do
  let (_, s) ← twoDigits? 0 23 s
  match s with
  | ':' :: s =>
    let (_, s) ← twoDigits? 0 59 s
    match s with
    | ':' :: s =>
      let (_, s) ← twoDigits? 0 60 s
      match s with
      | '.' :: s =>
        if (s.takeWhile Char.isDigit).isEmpty then none else some (s.dropWhile Char.isDigit)
      | _ => some s
    | _ => none
  | _ => none

/-- Whether the text is an offset from universal time, or nothing. -/
def isOffset : List Char → Bool
  | [] => true
  | ['Z'] => true
  | ['z'] => true
  | c :: r =>
    (c == '+' || c == '-') &&
      match twoDigits? 0 23 r with
      | some (_, ':' :: r) =>
        match twoDigits? 0 59 r with
        | some (_, []) => true
        | _ => false
      | _ => false

/-- Whether the text is a time, perhaps with an offset. -/
def isTimeWithOffset (s : List Char) : Bool := (time? s).any isOffset

/-- Whether the text is a date, a time, or both. -/
def isDateTime (s : List Char) : Bool :=
  match date? s with
  | some [] => true
  | some (c :: r) => (c == 'T' || c == 't' || c == ' ') && isTimeWithOffset r
  | none => (time? s).any (·.isEmpty)

/-! ## Words -/

/-- Characters of numbers, dates and the words for truth values. -/
def isWordChar (c : Char) : Bool :=
  c.isAlphanum || c == '+' || c == '-' || c == '_' || c == '.' || c == ':'

/-- A value without brackets or quotes. -/
def ofWord? (s : List Char) : Option Value :=
  if s = "true".toList then some (.boolean true)
  else if s = "false".toList then some (.boolean false)
  else if isDateTime s then some .dateTime
  else if isFloat s then some .float
  else (integer? s).map .integer

/-- A value without brackets or quotes.  A blank may stand between a date and
    a time. -/
def word : Parser Value := fun s =>
  let w := s.takeWhile isWordChar
  let r := s.dropWhile isWordChar
  match (date? w), r with
  | some [], ' ' :: c :: r' =>
    if c.isDigit then
      let t := (c :: r').takeWhile isWordChar
      (ofWord? (w ++ ' ' :: t)).map (·, (c :: r').dropWhile isWordChar)
    else (ofWord? w).map (·, r)
  | _, _ => (ofWord? w).map (·, r)

end Gitwork.Toml
