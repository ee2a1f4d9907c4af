/-! # Blanks

    The blank characters of all scripts, and texts without the blanks at their
    ends. -/

namespace Gitwork.Text

/-- Whether a character is blank: it has the property `White_Space`. -/
def isBlank (c : Char) : Bool :=
  let n := c.toNat
  (9 ≤ n && n ≤ 13) || n = 0x20 || n = 0x85 || n = 0xA0 || n = 0x1680
    || (0x2000 ≤ n && n ≤ 0x200A) || n = 0x2028 || n = 0x2029 || n = 0x202F || n = 0x205F
    || n = 0x3000

/-- Removes the blanks at the end. -/
def trimEnd (cs : List Char) : List Char := (cs.reverse.dropWhile isBlank).reverse

/-- Removes the blanks at both ends. -/
def trim (cs : List Char) : List Char := trimEnd (cs.dropWhile isBlank)

end Gitwork.Text
