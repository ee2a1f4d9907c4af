import Gitwork.Object.Files
import Gitwork.Object.Sha1
import Gitwork.Text.Hex

/-! # Objects

    Blobs, trees, commits and annotated tags.  The name of an object is the
    digest of its kind, its size and its encoding, so equal objects have one
    name wherever they are stored. -/

namespace Gitwork

inductive ObjectKind
  | blob
  | tree
  | commit
  | tag
deriving DecidableEq, Repr, Inhabited

namespace ObjectKind

def name : ObjectKind → String
  | blob => "blob"
  | tree => "tree"
  | commit => "commit"
  | tag => "tag"

def ofName? (s : String) : Option ObjectKind := [blob, tree, commit, tag].find? (·.name == s)

end ObjectKind

/-- Who made a commit or moved a reference, and when, if that is known. -/
structure Signature where
  name : String
  email : String
  /-- Seconds since the epoch, and minutes east of Greenwich. -/
  time : Option (Int × Int)
deriving DecidableEq, Repr, Inhabited

structure Commit where
  tree : Files
  parents : List Oid
  author : Signature
  message : String
deriving DecidableEq, Repr, Inhabited

/-- An annotated tag. -/
structure Tag where
  target : Oid
  targetKind : ObjectKind
  name : String
  tagger : Signature
  message : String
deriving DecidableEq, Repr, Inhabited

inductive Object
  | blob (content : Bytes)
  | tree (files : Files)
  | commit (commit : Commit)
  | tag (tag : Tag)
deriving DecidableEq, Repr, Inhabited

/-- The bytes that an id spells. -/
def Oid.raw (id : Oid) : Bytes := Text.decodeHex id.hex.toList

namespace Object

def kind : Object → ObjectKind
  | blob _ => .blob
  | tree _ => .tree
  | commit _ => .commit
  | tag _ => .tag

/-- The digest of a kind and an encoding. -/
def idOf (kind : ObjectKind) (body : Bytes) : Oid :=
  ⟨Sha1.hex (Text.encodeUtf8 (kind.name ++ " " ++ toString body.length) ++ 0 :: body)⟩

/-- The encoding of a tree; `depth` bounds the directories in it. -/
def encodeTree : Nat → Files → Bytes
  | 0, _ => []
  | depth + 1, files =>
    files.topEntries.flatMap fun
      | (name, some content) =>
        Text.encodeUtf8 ("100644 " ++ name) ++ 0 :: (idOf .blob content).raw
      | (name, none) =>
        Text.encodeUtf8 ("40000 " ++ name) ++ 0 ::
          (idOf .tree (encodeTree depth (files.under name))).raw

/-- One more than the number of directories that a path can have. -/
def treeDepth (files : Files) : Nat :=
  files.foldl (fun n f => max n (f.1.splitOn "/").length) 0 + 1

def treeId (files : Files) : Oid := idOf .tree (encodeTree (treeDepth files) files)

/-- The time part of a signature; an unknown time is the epoch. -/
def encodeTime (t : Option (Int × Int)) : String :=
  match t with
  | none => "0 +0000"
  | some (seconds, offset) => toString seconds ++ " " ++ toString offset

def encodeSignature (role : String) (s : Signature) : String :=
  role ++ " " ++ s.name ++ " <" ++ s.email ++ "> " ++ encodeTime s.time ++ "\n"

def encode : Object → Bytes
  | blob content => content
  | tree files => encodeTree (treeDepth files) files
  | commit c =>
    Text.encodeUtf8 <|
      "tree " ++ (treeId c.tree).hex ++ "\n"
        ++ String.join (c.parents.map fun p => "parent " ++ p.hex ++ "\n")
        ++ encodeSignature "author" c.author ++ encodeSignature "committer" c.author
        ++ "\n" ++ c.message
  | tag t =>
    Text.encodeUtf8 <|
      "object " ++ t.target.hex ++ "\ntype " ++ t.targetKind.name ++ "\ntag " ++ t.name ++ "\n"
        ++ encodeSignature "tagger" t.tagger ++ "\n" ++ t.message

/-- The name of an object. -/
def id (o : Object) : Oid := idOf o.kind o.encode

/-- An object with all that it holds: the trees and blobs of a tree. -/
def withParts : Object → List Object
  | commit c => commit c :: treeParts c.tree
  | tree files => treeParts files
  | o => [o]
where
  treeParts (files : Files) : List Object :=
    tree files :: (files.dirs.map fun d => tree (files.under d))
      ++ files.map fun f => blob f.2

end Object

end Gitwork
