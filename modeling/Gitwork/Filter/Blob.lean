import Gitwork.Filter.Attributes
import Gitwork.Filter.Eol
import Gitwork.Repo.Basic
import Gitwork.Stream.Script

/-! # Streams of blobs

    A blob is streamed through the end-of-line filter if the attributes of a
    path and the setting `core.autocrlf` ask for it, and unchanged otherwise.
    The content passes the filter in pieces of the stream's chunk size, so no
    more than a piece is ever held. -/

namespace Gitwork

/-- How to filter a blob. -/
structure FilterOptions where
  /-- The path whose attributes count. -/
  asPath : String
  direction : Direction
  /-- Whether binary content is left alone. -/
  checkForBinary : Bool
  chunkSize : Nat
deriving DecidableEq, Repr, Inhabited

/-- What `core.autocrlf` asks for. -/
inductive AutoCrlf
  | both
  | input
  | off
deriving DecidableEq, Repr, Inhabited

namespace AutoCrlf

/-- Reads the setting; letters of both cases are the same, blanks count. -/
def ofSetting (value : Option String) : AutoCrlf :=
  match value.map fun v => v.map Char.toLower with
  | some "true" | some "yes" | some "on" | some "1" => both
  | some "input" => input
  | _ => off

end AutoCrlf

namespace Binary

/-- The number of bytes that decide. -/
def window : Nat := 8000

/-- Removes a mark of UTF-8, or says that the content is in wider units. -/
def withoutMark : Bytes → Option Bytes
  | 0xEF :: 0xBB :: 0xBF :: rest => some rest
  | 0xFE :: 0xFF :: _ => none
  | 0xFF :: 0xFE :: _ => none
  | 0 :: 0 :: 0xFE :: 0xFF :: _ => none
  | content => some content

def isPrintable (b : UInt8) : Bool := (31 < b && b != 127) || b = 8 || b = 12 || b = 27

def isSpace (b : UInt8) : Bool := b = 32 || (9 ≤ b && b ≤ 13)

/-- Whether content is binary: it has a NUL byte, is in wider units, or has
    more than one odd byte for every 128 printable ones. -/
def isBinary (content : Bytes) : Bool :=
  match withoutMark (content.take window) with
  | none => true
  | some bytes =>
    bytes.contains 0 ||
      bytes.countP isPrintable / 128 < bytes.countP fun b => !isPrintable b && !isSpace b

end Binary

namespace FilterOptions

/-- Whether content is converted, given what is said of the path. -/
def wantsConversion (o : FilterOptions) (binary : Bool) (textAttr eolAttr : Option AttributeValue)
    (autocrlf : AutoCrlf) : Bool :=
  if o.checkForBinary && binary then false
  else if textAttr = some .unset then false
  else
    match o.direction with
    | .toOdb =>
      (textAttr.isSome && textAttr ≠ some .unspecified) || eolAttr.isSome || autocrlf ≠ .off
    | .toWorktree =>
      match eolAttr with
      | some (.text "crlf") => true
      | some (.text "lf") => false
      | _ => autocrlf = .both

/-- Cuts content into pieces; `fuel` bounds their number. -/
def pieces (size : Nat) : Nat → Bytes → List Bytes
  | 0, _ => []
  | fuel + 1, content =>
    if content = [] then [] else content.take size :: pieces size fuel (content.drop size)

/-- What a worker writes for content that is converted. -/
def convertedPieces (d : Direction) (ps : List Bytes) : List Bytes :=
  let (out, c) := ps.foldl
    (fun (acc : List Bytes × EolConverter) p =>
      let (b, c) := acc.2.convert p
      (b :: acc.1, c)) ([], EolConverter.new d)
  (c.finish.1 :: out).reverse

end FilterOptions

namespace Repo

/-- What the worker of a stream of a blob does. -/
def blobWork (r : Repo) (id : Oid) (o : FilterOptions) : List Stream.SinkOp :=
  match r.objects.get? id with
  | some (.blob content) =>
    let attr (name : String) := Attributes.get? [r.files, r.index.entries] name o.asPath
    let autocrlf := AutoCrlf.ofSetting (r.settings.get? "core.autocrlf")
    if o.wantsConversion (Binary.isBinary content) (attr "text") (attr "eol") autocrlf then
      let size := Stream.effectiveChunkSize o.chunkSize
      let ps := FilterOptions.pieces size (content.length + 1) content
      (FilterOptions.convertedPieces o.direction ps).map .writeAll
    else [.writeAll content]
  | _ => [.fail (.ofNative .notFound)]

/-- A stream of a blob. -/
def blobStream (r : Repo) (id : Oid) (o : FilterOptions) : Stream.Scripted :=
  .spawn o.chunkSize (r.blobWork id o)

end Repo

end Gitwork
