/-! # Sizes in bytes

    A size below 1024 is written as it is.  Above, it is divided by 1024 as
    often as it stays at least 1024, three times at most, and written with one
    digit after the point.  A size of more than 53 bits counts as the nearest
    number of 53 bits.  Both roundings send a half to the even neighbour. -/

namespace Gitwork.Text

/-- The quotient rounded to the nearest whole number, a half to the even one. -/
def roundHalfEven (num den : Nat) : Nat :=
  let q := num / den
  let twice := 2 * (num % den)
  if twice < den then q
  else if den < twice then q + 1
  else if q % 2 = 0 then q else q + 1

/-- The nearest number that has at most 53 significant bits. -/
def to53Bits (n : Nat) : Nat :=
  if n < 1 <<< 53 then n
  else
    let unit := 1 <<< (n.log2 - 52)
    roundHalfEven n unit * unit

/-- How often a size is divided by 1024. -/
def sizeUnit (n : Nat) : Nat :=
  if n < 1 <<< 10 then 0 else if n < 1 <<< 20 then 1 else if n < 1 <<< 30 then 2 else 3

def unitName : Nat → String
  | 0 => "B"
  | 1 => "KiB"
  | 2 => "MiB"
  | _ => "GiB"

/-- A size as people read it. -/
def byteSize (n : Nat) : String :=
  let value := to53Bits n
  let unit := sizeUnit value
  if unit = 0 then toString n ++ " " ++ unitName 0
  else
    let tenths := roundHalfEven (value * 10) (1 <<< (10 * unit))
    toString (tenths / 10) ++ "." ++ toString (tenths % 10) ++ " " ++ unitName unit

end Gitwork.Text
