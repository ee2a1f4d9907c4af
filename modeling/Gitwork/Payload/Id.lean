/-! # Payload ids

    A callback carries one 64-bit word.  Its low half is the index of a slot,
    its high half the generation that the slot had when the id was issued. -/

namespace Gitwork

/-- The word by which a callback names its payload. -/
structure PayloadId where
  raw : UInt64
deriving DecidableEq, Repr, Inhabited

namespace PayloadId

/-- Index below, generation above. -/
def pack (index generation : UInt32) : PayloadId :=
  ⟨(generation.toUInt64 <<< 32) ||| index.toUInt64⟩

def index (id : PayloadId) : UInt32 := id.raw.toUInt32

def generation (id : PayloadId) : UInt32 := (id.raw >>> 32).toUInt32

def text (id : PayloadId) : String :=
  toString id.index.toNat ++ "#" ++ toString id.generation.toNat

end PayloadId

end Gitwork
