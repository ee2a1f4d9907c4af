/-! # Hexadecimal

    Bytes as pairs of hexadecimal digits, in lower case when written. -/

namespace Gitwork.Text

/-- The value of a digit. -/
def hexValue (c : Char) : UInt8 :=
  UInt8.ofNat (if c.isDigit then c.toNat - 48 else c.toLower.toNat - 87)

/-- The bytes that pairs of digits spell. -/
def decodeHex : List Char → List UInt8
  | high :: low :: rest => (hexValue high * 16 + hexValue low) :: decodeHex rest
  | _ => []

/-- The two digits of a byte. -/
def hexByte (b : UInt8) : String :=
  String.ofList [Nat.digitChar (b.toNat / 16), Nat.digitChar (b.toNat % 16)]

/-- The digits of bytes. -/
def encodeHex (bytes : List UInt8) : String := bytes.foldl (fun acc b => acc ++ hexByte b) ""

end Gitwork.Text
