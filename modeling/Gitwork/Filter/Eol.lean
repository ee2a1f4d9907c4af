import Gitwork.Handler.Call

/-! # Ends of lines

    Text is kept with LF in the object database and may have CRLF in the
    working tree.  The converter takes content in pieces of any length; one
    bit carries over from piece to piece.  Towards the working tree it says
    that the byte before was a CR; towards the database it says that a CR is
    held back until the next byte shows whether an LF follows. -/

namespace Gitwork

/-- Which way content moves. -/
inductive Direction
  | toWorktree
  | toOdb
deriving DecidableEq, Repr, Inhabited

def Direction.name : Direction → String
  | toWorktree => "ToWorktree"
  | toOdb => "ToOdb"

namespace Eol

def cr : UInt8 := 13
def lf : UInt8 := 10

/-- What one byte adds to the output, and the bit after it. -/
def step : Direction → Bool → UInt8 → Bytes × Bool
  | .toWorktree, afterCr, b => (if b = lf ∧ !afterCr then [cr, b] else [b], b = cr)
  | .toOdb, held, b =>
    if held ∧ b = lf then ([lf], false)
    else
      let out := if held then [cr] else []
      if b = cr then (out, true) else (out ++ [b], false)

/-- Converts a piece, given the bit, in front of what is already converted and
    stands in reverse. -/
def convertOnto (d : Direction) : Bytes → Bool → Bytes → Bytes × Bool
  | acc, bit, [] => (acc, bit)
  | acc, bit, b :: rest =>
    let (out, bit) := step d bit b
    convertOnto d (out.reverse ++ acc) bit rest

end Eol

/-- A converter between two pieces. -/
structure EolConverter where
  direction : Direction
  /-- To the working tree: the last byte was a CR.  To the database: a CR is
      held back. -/
  bit : Bool
deriving DecidableEq, Repr, Inhabited

namespace EolConverter

def new (d : Direction) : EolConverter := ⟨d, false⟩

/-- Converts the next piece. -/
def convert (c : EolConverter) (piece : Bytes) : Bytes × EolConverter :=
  let (out, bit) := Eol.convertOnto c.direction [] c.bit piece
  (out.reverse, { c with bit })

/-- Gives out what is held back, and is as new. -/
def finish (c : EolConverter) : Bytes × EolConverter :=
  (if c.direction = .toOdb ∧ c.bit then [Eol.cr] else [], new c.direction)

/-- Converts all of a content at once. -/
def convertAll (d : Direction) (content : Bytes) : Bytes :=
  let (out, c) := (new d).convert content
  out ++ c.finish.1

end EolConverter

end Gitwork
