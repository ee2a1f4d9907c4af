/-! # The digest that names objects

    SHA-1 over a list of bytes: pad to blocks of sixty-four bytes, stretch
    each block to eighty words, and mix the words into five. -/

namespace Gitwork.Sha1

/-- The five words that blocks are mixed into. -/
structure State where
  a : UInt32
  b : UInt32
  c : UInt32
  d : UInt32
  e : UInt32
deriving DecidableEq, Repr

def initial : State := ⟨0x67452301, 0xefcdab89, 0x98badcfe, 0x10325476, 0xc3d2e1f0⟩

def rotateLeft (x n : UInt32) : UInt32 := (x <<< n) ||| (x >>> (32 - n))

/-- A one bit, zeros up to eight bytes before a full block, and the number of
    bits in those eight bytes. -/
def pad (data : List UInt8) : List UInt8 :=
  let n := data.length
  let zeros := (119 - n % 64) % 64
  let bits := 8 * n
  data ++ (0x80 : UInt8) :: List.replicate zeros 0
    ++ (List.range 8).map fun i => UInt8.ofNat (bits >>> (8 * (7 - i)))

/-- Four bytes as a word, the highest first. -/
def words : List UInt8 → List UInt32
  | w :: x :: y :: z :: rest =>
    (w.toUInt32 <<< 24 ||| x.toUInt32 <<< 16 ||| y.toUInt32 <<< 8 ||| z.toUInt32) :: words rest
  | _ => []

/-- The eighty words of a block. -/
def schedule (block : Array UInt32) : Array UInt32 :=
  (List.range 64).foldl
    (fun w i =>
      let x := w.getD (i + 13) 0 ^^^ w.getD (i + 8) 0 ^^^ w.getD (i + 2) 0 ^^^ w.getD i 0
      w.push (rotateLeft x 1))
    block

/-- One of the eighty rounds. -/
def round (s : State) (i : Nat) (w : UInt32) : State :=
  let (f, k) : UInt32 × UInt32 :=
    if i < 20 then ((s.b &&& s.c) ||| (~~~s.b &&& s.d), 0x5a827999)
    else if i < 40 then (s.b ^^^ s.c ^^^ s.d, 0x6ed9eba1)
    else if i < 60 then ((s.b &&& s.c) ||| (s.b &&& s.d) ||| (s.c &&& s.d), 0x8f1bbcdc)
    else (s.b ^^^ s.c ^^^ s.d, 0xca62c1d6)
  ⟨rotateLeft s.a 5 + f + s.e + k + w, s.a, rotateLeft s.b 30, s.c, s.d⟩

def mixBlock (s : State) (block : Array UInt32) : State :=
  let w := schedule block
  let t := (List.range 80).foldl (fun t i => round t i (w.getD i 0)) s
  ⟨s.a + t.a, s.b + t.b, s.c + t.c, s.d + t.d, s.e + t.e⟩

/-- Mixes the words in, a block of sixteen at a time; `fuel` bounds the
    blocks. -/
def mixAll : Nat → State → List UInt32 → State
  | 0, s, _ => s
  | _ + 1, s, [] => s
  | fuel + 1, s, ws => mixAll fuel (mixBlock s (ws.take 16).toArray) (ws.drop 16)

def hexDigit (n : UInt32) : Char := (Nat.digitChar n.toNat)

/-- Eight hexadecimal digits. -/
def hexWord (w : UInt32) : List Char :=
  ([28, 24, 20, 16, 12, 8, 4, 0] : List UInt32).map fun shift => hexDigit ((w >>> shift) &&& 0xf)

/-- The digest as forty hexadecimal digits. -/
def hex (data : List UInt8) : String :=
  let ws := words (pad data)
  let s := mixAll (ws.length / 16 + 1) initial ws
  String.ofList ([s.a, s.b, s.c, s.d, s.e].flatMap hexWord)

end Gitwork.Sha1
