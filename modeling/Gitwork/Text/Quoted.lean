import Gitwork.Text.Unprintable

/-! # Quoted text

    A text in double quotes, in which a quote, a backslash and the characters
    without a glyph are escaped. -/

namespace Gitwork.Text

/-- The digits of a number in base sixteen, in lower case. -/
def hexDigits (n : Nat) : String := String.ofList (Nat.toDigits 16 n)

/-- How one character is written between the quotes. -/
def quoteChar (c : Char) : String :=
  if c = '"' then "\\\""
  else if c = '\\' then "\\\\"
  else if c = '\n' then "\\n"
  else if c = '\r' then "\\r"
  else if c = '\t' then "\\t"
  else if c.toNat = 0 then "\\0"
  else if c.toNat < 32 || c.toNat = 127 || (128 ≤ c.toNat && isUnprintable c) then
    "\\u\x7b" ++ hexDigits c.toNat ++ "\x7d"
  else c.toString

/-- The text between double quotes. -/
def quote (s : String) : String :=
  "\"" ++ s.foldl (fun acc c => acc ++ quoteChar c) "" ++ "\""

/-- A list of quoted texts in square brackets. -/
def quoteList (xs : List String) : String :=
  "[" ++ ", ".intercalate (xs.map quote) ++ "]"

end Gitwork.Text
