/-! # UTF-8

    Texts as bytes, and the texts that some bytes spell. -/

namespace Gitwork.Text

/-- The bytes of a text. -/
def encodeUtf8 (s : String) : List UInt8 := s.toUTF8.toList

/-- The text that the bytes spell, if they are well formed. -/
def decodeUtf8? (bytes : List UInt8) : Option String := String.fromUTF8? ⟨bytes.toArray⟩

end Gitwork.Text
