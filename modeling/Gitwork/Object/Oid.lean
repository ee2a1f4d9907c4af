/-! # Object ids

    An object is named by forty hexadecimal digits, in lower case.  Forty
    zeros name no object. -/

namespace Gitwork

/-- The name of an object. -/
structure Oid where
  hex : String
deriving DecidableEq, Repr, Inhabited

namespace Oid

/-- The number of digits of an id. -/
def digits : Nat := 40

/-- The id that names no object. -/
def zero : Oid := ⟨"0000000000000000000000000000000000000000"⟩

def isZero (id : Oid) : Bool := id == zero

def isHexDigit (c : Char) : Bool :=
  ('0' ≤ c && c ≤ '9') || ('a' ≤ c && c ≤ 'f') || ('A' ≤ c && c ≤ 'F')

/-- The id that a text of forty hexadecimal digits spells. -/
def ofHex? (s : String) : Option Oid :=
  if s.length = digits ∧ s.all isHexDigit then some ⟨s.map Char.toLower⟩ else none

/-- The first seven digits, for display. -/
def short (id : Oid) : String := (id.hex.take 7).toString

end Oid

end Gitwork
