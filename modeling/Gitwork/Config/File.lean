import Gitwork.Toml.Document

/-! # Configuration files

    What one file may set.  Every key is optional, in every section, and no
    other key is allowed.  A section may also be given as an array of the
    values of its keys, in the order of their declaration. -/

namespace Gitwork

structure StreamSection where
  chunkSize : Option Nat
deriving DecidableEq, Repr, Inhabited

structure RemoteSection where
  proxy : Option String
  prune : Option Bool
  depth : Option Nat
deriving DecidableEq, Repr, Inhabited

structure TransactionSection where
  reflogMessage : Option String
deriving DecidableEq, Repr, Inhabited

/-- The content of one file. -/
structure FileConfig where
  stream : Option StreamSection
  remote : Option RemoteSection
  transaction : Option TransactionSection
deriving DecidableEq, Repr, Inhabited

namespace FileConfig

/-- The file that sets nothing. -/
def empty : FileConfig := ⟨none, none, none⟩

/-! ## From a document -/

/-- The values of a section's keys, in the order of the keys.  Later items of
    an array do not count. -/
def fields? (keys : List String) : Toml.Value → Option (List (Option Toml.Value))
  | .table _ entries =>
    if entries.all fun e => keys.contains e.1 then some (keys.map fun k => entries.lookup k)
    else none
  | .array items => some ((keys.zipIdx).map fun k => items[k.2]?)
  | .tables tables => some ((keys.zipIdx).map fun k => (tables[k.2]?).map (.table .header))
  | _ => none

/-- A key that may be missing, but has to fit when it is there. -/
def optional {α : Type} (read : Toml.Value → Option α) :
    Option Toml.Value → Option (Option α)
  | none => some none
  | some v => (read v).map some

def text? : Toml.Value → Option String
  | .string s => some s
  | _ => none

def bool? : Toml.Value → Option Bool
  | .boolean b => some b
  | _ => none

/-- A number from zero up to a limit. -/
def nat? (limit : Nat) : Toml.Value → Option Nat
  | .integer n => if 0 ≤ n ∧ n.toNat < limit then some n.toNat else none
  | _ => none

def stream? (v : Toml.Value) : Option StreamSection := do
  match ← fields? ["chunk_size"] v with
  | [chunkSize] => some ⟨← optional (nat? UInt64.size) chunkSize⟩
  | _ => none

def remote? (v : Toml.Value) : Option RemoteSection := do
  match ← fields? ["proxy", "prune", "depth"] v with
  | [proxy, prune, depth] =>
    some ⟨← optional text? proxy, ← optional bool? prune, ← optional (nat? UInt32.size) depth⟩
  | _ => none

def transaction? (v : Toml.Value) : Option TransactionSection := do
  match ← fields? ["reflog_message"] v with
  | [message] => some ⟨← optional text? message⟩
  | _ => none

def ofEntries? (t : Toml.Entries) : Option FileConfig := do
  match ← fields? ["stream", "remote", "transaction"] (.table .header t) with
  | [stream, remote, transaction] =>
    some ⟨← optional stream? stream, ← optional remote? remote,
      ← optional transaction? transaction⟩
  | _ => none

/-- Reads the text of a file. -/
def parse? (text : String) : Option FileConfig := do ofEntries? (← Toml.parse? text)

end FileConfig

end Gitwork
