import Gitwork.Config.Basic

/-! # The keys of configuration files

    A file sets a key if its document has an entry for it: under the name of
    the key in the table of its section, or at the place of the key if the
    section is given as an array.  Reading a document into a `FileConfig` keeps
    exactly these entries.

    * a section is read as the list of its keys' entries
      (`FileConfig.fields?_eq_some`), so a section that was read holds the entry
      of each key, read as the key's type;
    * the same goes for the document with its three sections
      (`FileConfig.ofEntries?_sections`), so for every key the value in the
      file is its entry in the document (`ConfigKey.Lawful`). -/

namespace Gitwork

/-- The entry that a section has for a key with a name and a place. -/
def Toml.Value.entry? (name : String) (place : Nat) : Toml.Value → Option Toml.Value
  | .table _ entries => entries.lookup name
  | .array items => items[place]?
  | .tables items => (items[place]?).map (.table .header)
  | _ => none

/-- A key of the files: where its entry stands, how the entry is read, and
    where a file that was read has the value. -/
structure ConfigKey (α : Type) where
  group : String
  name : String
  /-- The place among the keys of the section. -/
  place : Nat
  read : Toml.Value → Option α
  get : FileConfig → Option α

namespace ConfigKey

variable {α : Type}

def chunkSize : ConfigKey Nat where
  group := "stream"
  name := "chunk_size"
  place := 0
  read := FileConfig.nat? UInt64.size
  get f := f.stream.bind (·.chunkSize)

def proxy : ConfigKey String where
  group := "remote"
  name := "proxy"
  place := 0
  read := FileConfig.text?
  get f := f.remote.bind (·.proxy)

def prune : ConfigKey Bool where
  group := "remote"
  name := "prune"
  place := 1
  read := FileConfig.bool?
  get f := f.remote.bind (·.prune)

def depth : ConfigKey Nat where
  group := "remote"
  name := "depth"
  place := 2
  read := FileConfig.nat? UInt32.size
  get f := f.remote.bind (·.depth)

def reflogMessage : ConfigKey String where
  group := "transaction"
  name := "reflog_message"
  place := 0
  read := FileConfig.text?
  get f := f.transaction.bind (·.reflogMessage)

/-- The entry that a document has for a key. -/
def entry? (key : ConfigKey α) (document : Toml.Entries) : Option Toml.Value :=
  (document.lookup key.group).bind (Toml.Value.entry? key.name key.place)

end ConfigKey

namespace FileConfig

/-! ## Sections -/

/-- A section is read as the entries of its keys. -/
theorem fields?_eq_some {keys : List String} {v : Toml.Value}
    {values : List (Option Toml.Value)} (h : fields? keys v = some values) :
    values = keys.zipIdx.map fun k => v.entry? k.1 k.2 := by
  cases v with
  | table form entries =>
      simp only [fields?] at h
      split at h
      · rw [← Option.some.inj h]
        show keys.map _ = keys.zipIdx.map ((fun k => entries.lookup k) ∘ Prod.fst)
        rw [← List.map_map, List.zipIdx_map_fst]
      · exact nomatch h
  | array items => exact (Option.some.inj h).symm
  | tables tables => exact (Option.some.inj h).symm
  | string | integer | float | boolean | dateTime => exact nomatch h

/-- The one entry of the stream section. -/
theorem stream?_eq_some {v : Toml.Value} {s : StreamSection} (h : stream? v = some s) :
    optional (nat? UInt64.size) (v.entry? "chunk_size" 0) = some s.chunkSize := by
  simp only [stream?, Option.bind_eq_bind, Option.bind_eq_some_iff] at h
  obtain ⟨values, hvalues, h⟩ := h
  rw [fields?_eq_some hvalues] at h
  obtain ⟨chunkSize, hchunk, h⟩ := Option.bind_eq_some_iff.mp h
  rw [← Option.some.inj h]
  exact hchunk

/-- The entries of the remote section, in the order of its keys. -/
theorem remote?_eq_some {v : Toml.Value} {r : RemoteSection} (h : remote? v = some r) :
    optional text? (v.entry? "proxy" 0) = some r.proxy
      ∧ optional bool? (v.entry? "prune" 1) = some r.prune
      ∧ optional (nat? UInt32.size) (v.entry? "depth" 2) = some r.depth := by
  simp only [remote?, Option.bind_eq_bind, Option.bind_eq_some_iff] at h
  obtain ⟨values, hvalues, h⟩ := h
  rw [fields?_eq_some hvalues] at h
  obtain ⟨proxy, hproxy, h⟩ := Option.bind_eq_some_iff.mp h
  obtain ⟨prune, hprune, h⟩ := Option.bind_eq_some_iff.mp h
  obtain ⟨depth, hdepth, h⟩ := Option.bind_eq_some_iff.mp h
  rw [← Option.some.inj h]
  exact ⟨hproxy, hprune, hdepth⟩

/-- The one entry of the transaction section. -/
theorem transaction?_eq_some {v : Toml.Value} {t : TransactionSection}
    (h : transaction? v = some t) :
    optional text? (v.entry? "reflog_message" 0) = some t.reflogMessage := by
  simp only [transaction?, Option.bind_eq_bind, Option.bind_eq_some_iff] at h
  obtain ⟨values, hvalues, h⟩ := h
  rw [fields?_eq_some hvalues] at h
  obtain ⟨message, hmessage, h⟩ := Option.bind_eq_some_iff.mp h
  rw [← Option.some.inj h]
  exact hmessage

/-- A document is read as its three sections. -/
theorem ofEntries?_sections {document : Toml.Entries} {f : FileConfig}
    (h : ofEntries? document = some f) :
    optional stream? (document.lookup "stream") = some f.stream
      ∧ optional remote? (document.lookup "remote") = some f.remote
      ∧ optional transaction? (document.lookup "transaction") = some f.transaction := by
  simp only [ofEntries?, Option.bind_eq_bind, Option.bind_eq_some_iff] at h
  obtain ⟨values, hvalues, h⟩ := h
  rw [fields?_eq_some hvalues] at h
  obtain ⟨stream, hstream, h⟩ := Option.bind_eq_some_iff.mp h
  obtain ⟨remote, hremote, h⟩ := Option.bind_eq_some_iff.mp h
  obtain ⟨transaction, htransaction, h⟩ := Option.bind_eq_some_iff.mp h
  rw [← Option.some.inj h]
  exact ⟨hstream, hremote, htransaction⟩

/-- A key of a section that may be missing may be missing. -/
theorem optional_bind {σ α : Type} {readSection : Toml.Value → Option σ}
    {read : Toml.Value → Option α} {field : σ → Option α} {entry : Toml.Value → Option Toml.Value}
    {section? : Option Toml.Value} {s : Option σ} (hsection : optional readSection section? = some s)
    (hfield : ∀ v s, readSection v = some s → optional read (entry v) = some (field s)) :
    optional read (section?.bind entry) = some (s.bind field) := by
  cases section? with
  | none =>
      rw [← Option.some.inj hsection]
      rfl
  | some v =>
      obtain ⟨value, hvalue, rfl⟩ := Option.map_eq_some_iff.mp hsection
      exact hfield v value hvalue

end FileConfig

namespace ConfigKey

variable {α : Type}

/-- A file has a value for the key exactly if its document has an entry, and it
    is the entry as the key reads it. -/
structure Lawful (key : ConfigKey α) : Prop where
  empty : key.get .empty = none
  get : ∀ document f, FileConfig.ofEntries? document = some f →
    FileConfig.optional key.read (key.entry? document) = some (key.get f)

theorem chunkSize_lawful : chunkSize.Lawful where
  empty := rfl
  get _ _ h := FileConfig.optional_bind (FileConfig.ofEntries?_sections h).1
    fun _ _ => FileConfig.stream?_eq_some

theorem proxy_lawful : proxy.Lawful where
  empty := rfl
  get _ _ h := FileConfig.optional_bind (FileConfig.ofEntries?_sections h).2.1
    fun _ _ hremote => (FileConfig.remote?_eq_some hremote).1

theorem prune_lawful : prune.Lawful where
  empty := rfl
  get _ _ h := FileConfig.optional_bind (FileConfig.ofEntries?_sections h).2.1
    fun _ _ hremote => (FileConfig.remote?_eq_some hremote).2.1

theorem depth_lawful : depth.Lawful where
  empty := rfl
  get _ _ h := FileConfig.optional_bind (FileConfig.ofEntries?_sections h).2.1
    fun _ _ hremote => (FileConfig.remote?_eq_some hremote).2.2

theorem reflogMessage_lawful : reflogMessage.Lawful where
  empty := rfl
  get _ _ h := FileConfig.optional_bind (FileConfig.ofEntries?_sections h).2.2
    fun _ _ => FileConfig.transaction?_eq_some

end ConfigKey

end Gitwork
