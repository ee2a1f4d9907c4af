import Gitwork.Proofs.Config.Entries
import Gitwork.Proofs.Error

/-! # What a loaded configuration holds

    Two files make a configuration.  If it can be loaded, every key has the
    value of the repository's file where that has an entry for it, else that of
    the user's file, else none; and the values are admissible, because each
    file was checked, also for what the other one overrides.

    * a file that was read has the values of its document's entries, and a file
      that is not there has none (`ConfigKey.Lawful.load`);
    * so the value that is picked is the entry that prevails, read as the key's
      type (`ConfigKey.Lawful.prevails`);
    * a file passes the check exactly if its entries are valid ones
      (`ConfigSource.check_iff`), and a configuration is loaded exactly if both
      files can be read and pass (`Config.load_ok_iff`). -/

namespace Gitwork

variable {α : Type} {key : ConfigKey α} {source global repo : ConfigSource} {c : Config}

/-! ## The entries of a file -/

namespace ConfigSource

/-- The document at the path of a file, if there is one. -/
def document? : ConfigSource → Option Toml.Entries
  | missing | directory => none
  | file content => do Toml.parse? (← Text.decodeUtf8? content)

/-- The entry that a file has for a key. -/
def entry? (source : ConfigSource) (key : ConfigKey α) : Option Toml.Value :=
  source.document?.bind key.entry?

/-- Only what is not there is read as nothing. -/
theorem load_none (h : source.load = .ok none) : source = .missing := by
  cases source with
  | missing => rfl
  | directory => exact nomatch h
  | file content =>
      simp only [load] at h
      split at h
      · exact nomatch h
      · split at h
        · exact nomatch Except.ok.inj h
        · exact nomatch h

/-- What is read as a file has a document. -/
theorem load_some {f : FileConfig} (h : source.load = .ok (some f)) :
    ∃ document, source.document? = some document
      ∧ FileConfig.ofEntries? document = some f := by
  cases source with
  | missing => exact nomatch Except.ok.inj h
  | directory => exact nomatch h
  | file content =>
      simp only [load] at h
      split at h
      · exact nomatch h
      · next text htext =>
          split at h
          · next f' hf =>
              obtain rfl : f' = f := Option.some.inj (Except.ok.inj h)
              obtain ⟨document, hdocument, hentries⟩ := Option.bind_eq_some_iff.mp hf
              refine ⟨document, ?_, hentries⟩
              show (Text.decodeUtf8? content).bind Toml.parse? = _
              rw [htext]
              exact hdocument
          · exact nomatch h

end ConfigSource

/-- A file that was read has the entries as the keys read them. -/
theorem ConfigKey.Lawful.load (hkey : key.Lawful) {file : Option FileConfig}
    (h : source.load = .ok file) :
    FileConfig.optional key.read (source.entry? key) = some (key.get (file.getD .empty)) := by
  cases file with
  | none =>
      rw [ConfigSource.load_none h]
      exact congrArg some hkey.empty.symm
  | some f =>
      obtain ⟨document, hdocument, hentries⟩ := ConfigSource.load_some h
      rw [ConfigSource.entry?, hdocument]
      exact hkey.get document f hentries

/-! ## Checks -/

/-- What a proxy may be: one of two words, or an address with a scheme. -/
def IsProxy (text : String) : Prop :=
  text = "none" ∨ text = "auto" ∨ "://".toList <:+: text.toList

theorem FileConfig.isProxy_iff (text : String) : FileConfig.isProxy text = true ↔ IsProxy text := by
  simp only [FileConfig.isProxy, IsProxy, Bool.or_eq_true, beq_iff_eq, String.contains_string_iff,
    or_assoc]

namespace FileConfig

/-- A chunk size passes the check within its range, and so does a section without one. -/
theorem checkStream_iff (s : StreamSection) : checkStream s = .ok () ↔
    ∀ n, s.chunkSize = some n → 1 ≤ n ∧ n ≤ maxChunkSize := by
  rw [checkStream]
  cases hn : s.chunkSize with
  | none => exact ⟨fun _ => nofun, fun _ => rfl⟩
  | some n =>
      simp only [Option.some.injEq, forall_eq']
      cases n with
      | zero => exact ⟨nofun, fun h => absurd h.1 (by decide)⟩
      | succ n =>
          show (if maxChunkSize < n + 1 then _ else _) = _ ↔ _
          by_cases hbig : maxChunkSize < n + 1
          · rw [if_pos hbig]
            exact ⟨nofun, fun h => absurd h.2 (Nat.not_le_of_lt hbig)⟩
          · rw [if_neg hbig]
            exact ⟨fun _ => ⟨Nat.succ_pos n, Nat.le_of_not_lt hbig⟩, fun _ => rfl⟩

/-- A proxy passes the check in one of its forms, and so does a section without one. -/
theorem checkRemote_iff (r : RemoteSection) : checkRemote r = .ok () ↔
    ∀ p, r.proxy = some p → IsProxy p := by
  rw [checkRemote]
  cases hp : r.proxy with
  | none => exact ⟨fun _ => nofun, fun _ => rfl⟩
  | some p =>
      simp only [Option.some.injEq, forall_eq', ← isProxy_iff]
      by_cases hproxy : isProxy p = true
      · rw [if_pos hproxy]
        exact ⟨fun _ => hproxy, fun _ => rfl⟩
      · rw [if_neg hproxy]
        exact ⟨nofun, fun h => absurd h hproxy⟩

/-- A section that is not there is checked as one that sets nothing. -/
theorem check_eq (f : FileConfig) : f.check =
    checkStream (f.stream.getD ⟨none⟩) >>=
      fun _ => checkRemote (f.remote.getD ⟨none, none, none⟩) := by
  obtain ⟨stream, remote, transaction⟩ := f
  cases stream with
  | none => cases remote with
    | none => rfl
    | some r => rfl
  | some s => cases remote with
    | none => rfl
    | some r => rfl

/-- A file passes if its chunk size and its proxy do. -/
theorem check_iff (f : FileConfig) : f.check = .ok () ↔
    (∀ n, ConfigKey.chunkSize.get f = some n → 1 ≤ n ∧ n ≤ maxChunkSize)
      ∧ ∀ p, ConfigKey.proxy.get f = some p → IsProxy p := by
  have hstream : ConfigKey.chunkSize.get f = (f.stream.getD ⟨none⟩).chunkSize := by
    show f.stream.bind _ = _
    cases f.stream with
    | none => rfl
    | some s => rfl
  have hremote : ConfigKey.proxy.get f = (f.remote.getD ⟨none, none, none⟩).proxy := by
    show f.remote.bind _ = _
    cases f.remote with
    | none => rfl
    | some r => rfl
  rw [hstream, hremote, ← checkStream_iff, ← checkRemote_iff, check_eq,
    bind_eq_ok_iff]
  constructor
  · rintro ⟨_, hs, hr⟩
    exact ⟨hs, hr⟩
  · rintro ⟨hs, hr⟩
    exact ⟨_, hs, hr⟩

end FileConfig

/-! ## Loading -/

namespace Config

/-- Both files are read and parsed, the user's first, and then both are checked. -/
theorem load_eq_bind (global repo : ConfigSource) : load global repo =
    global.load >>= fun g => repo.load >>= fun r =>
      (g.getD .empty).check >>= fun _ => (r.getD .empty).check >>= fun _ => .ok ⟨g, r⟩ := by
  rw [load]
  congr
  funext g
  congr
  funext r
  -- a file that is not there is checked as one that sets nothing
  cases r with
  | none => rfl
  | some f => rfl

/-- A configuration is what its two files were read as, if both pass the check. -/
theorem load_eq_ok_iff : load global repo = .ok c ↔
    global.load = .ok c.globalFile ∧ repo.load = .ok c.repoFile
      ∧ (c.globalFile.getD .empty).check = .ok () ∧ (c.repoFile.getD .empty).check = .ok () := by
  simp only [load_eq_bind, bind_eq_ok_iff]
  constructor
  · rintro ⟨g, hg, r, hr, _, hcheck, _, hcheck', hc⟩
    rw [← Except.ok.inj hc]
    exact ⟨hg, hr, hcheck, hcheck'⟩
  · rintro ⟨hg, hr, hcheck, hcheck'⟩
    exact ⟨_, hg, _, hr, _, hcheck, _, hcheck', rfl⟩

end Config

/-! ## Valid files -/

/-- What may be missing is missing, or it fits. -/
theorem FileConfig.optional_cases {read : Toml.Value → Option α} {entry : Option Toml.Value}
    {a : Option α} (h : optional read entry = some a) :
    entry = none ∧ a = none ∨ ∃ v b, entry = some v ∧ read v = some b ∧ a = some b := by
  cases entry with
  | none => exact .inl ⟨rfl, (Option.some.inj h).symm⟩
  | some v =>
      obtain ⟨b, hb, rfl⟩ := Option.map_eq_some_iff.mp h
      exact .inr ⟨v, b, rfl, hb, rfl⟩

/-- An entry is read as a value with a property. -/
def ConfigKey.Reads (key : ConfigKey α) (P : α → Prop) (v : Toml.Value) : Prop :=
  ∃ a, key.read v = some a ∧ P a

/-- What holds of the value in a file holds of its entry. -/
theorem ConfigKey.Lawful.forall_get_iff (hkey : key.Lawful) {file : Option FileConfig}
    (h : source.load = .ok file) (P : α → Prop) :
    (∀ a, key.get (file.getD .empty) = some a → P a)
      ↔ ∀ v, source.entry? key = some v → key.Reads P v := by
  -- a key is absent from document and file alike, or its entry was read
  rcases FileConfig.optional_cases (hkey.load h) with ⟨hnone, hget⟩ | ⟨v, a, hentry, hread, hget⟩
  · rw [hnone, hget]
    exact ⟨fun _ => nofun, fun _ => nofun⟩
  · rw [hentry, hget]
    simp only [Option.some.injEq, forall_eq']
    constructor
    · intro hP
      exact ⟨a, hread, hP⟩
    · rintro ⟨b, hb, hP⟩
      rw [Option.some.inj (hread.symm.trans hb)]
      exact hP

/-- What a file may have for the chunk size. -/
def ValidChunkSize (v : Toml.Value) : Prop :=
  ∃ n : Nat, v = .integer n ∧ 1 ≤ n ∧ n ≤ maxChunkSize

/-- What a file may have for the proxy. -/
def ValidProxy (v : Toml.Value) : Prop :=
  ∃ text, v = .string text ∧ IsProxy text

/-- The valid chunk sizes are the entries that are read as one within the range. -/
theorem validChunkSize_iff (v : Toml.Value) :
    ValidChunkSize v ↔ ConfigKey.chunkSize.Reads (fun n => 1 ≤ n ∧ n ≤ maxChunkSize) v := by
  constructor
  · rintro ⟨n, rfl, hrange⟩
    -- the largest chunk size fits a word
    have hword : n < UInt64.size := Nat.lt_of_le_of_lt hrange.2 (by decide)
    exact ⟨n, if_pos ⟨Int.natCast_nonneg n, hword⟩, hrange⟩
  · rintro ⟨n, hread, hrange⟩
    cases v with
    | integer m =>
        replace hread : (if 0 ≤ m ∧ m.toNat < UInt64.size then some m.toNat else none) = some n :=
          hread
        obtain ⟨hm, hn⟩ := Option.ite_none_right_eq_some.mp hread
        rw [← Option.some.inj hn] at hrange
        exact ⟨m.toNat, by rw [Int.toNat_of_nonneg hm.1], hrange⟩
    | string | float | boolean | dateTime | array | table | tables => exact nomatch hread

/-- The valid proxies are the entries that are read as text of the right form. -/
theorem validProxy_iff (v : Toml.Value) :
    ValidProxy v ↔ ConfigKey.proxy.Reads IsProxy v := by
  constructor
  · rintro ⟨text, rfl, hform⟩
    exact ⟨text, rfl, hform⟩
  · rintro ⟨text, hread, hform⟩
    cases v with
    | string t =>
        obtain rfl : t = text := Option.some.inj hread
        exact ⟨t, rfl, hform⟩
    | integer | float | boolean | dateTime | array | table | tables => exact nomatch hread

namespace ConfigSource

/-- What a file has for the two keys that are checked is valid. -/
structure Valid (source : ConfigSource) : Prop where
  chunkSize : ∀ v, source.entry? .chunkSize = some v → ValidChunkSize v
  proxy : ∀ v, source.entry? .proxy = some v → ValidProxy v

/-- A file that can be read passes the check exactly if it is valid. -/
theorem check_iff {file : Option FileConfig} (h : source.load = .ok file) :
    (file.getD .empty).check = .ok () ↔ source.Valid := by
  rw [FileConfig.check_iff, ConfigKey.chunkSize_lawful.forall_get_iff h,
    ConfigKey.proxy_lawful.forall_get_iff h]
  constructor
  · rintro ⟨hsize, hform⟩
    exact ⟨fun v hv => (validChunkSize_iff v).mpr (hsize v hv),
      fun v hv => (validProxy_iff v).mpr (hform v hv)⟩
  · rintro ⟨hsize, hform⟩
    exact ⟨fun v hv => (validChunkSize_iff v).mp (hsize v hv),
      fun v hv => (validProxy_iff v).mp (hform v hv)⟩

end ConfigSource

/-- A configuration is loaded exactly if both files can be read and are valid. -/
theorem Config.load_ok_iff : (∃ c, Config.load global repo = .ok c) ↔
    ((∃ file, global.load = .ok file) ∧ global.Valid)
      ∧ (∃ file, repo.load = .ok file) ∧ repo.Valid := by
  constructor
  · rintro ⟨c, hc⟩
    obtain ⟨hg, hr, hcheck, hcheck'⟩ := load_eq_ok_iff.mp hc
    exact ⟨⟨⟨_, hg⟩, (ConfigSource.check_iff hg).mp hcheck⟩, ⟨_, hr⟩,
      (ConfigSource.check_iff hr).mp hcheck'⟩
  · rintro ⟨⟨⟨g, hg⟩, hvalid⟩, ⟨r, hr⟩, hvalid'⟩
    exact ⟨⟨g, r⟩, load_eq_ok_iff.mpr ⟨hg, hr, (ConfigSource.check_iff hg).mpr hvalid,
      (ConfigSource.check_iff hr).mpr hvalid'⟩⟩

/-! ## The entry that prevails -/

/-- The value of a key that two files make: the repository's entry, else that
    of the user, as the key reads it. -/
inductive Prevails (key : ConfigKey α) (global repo : ConfigSource) : Option α → Prop
  | repository {v : Toml.Value} {a : α} (entry : repo.entry? key = some v)
      (value : key.read v = some a) : Prevails key global repo (some a)
  | user {v : Toml.Value} {a : α} (noEntry : repo.entry? key = none)
      (entry : global.entry? key = some v) (value : key.read v = some a) :
      Prevails key global repo (some a)
  | nobody (noEntry : repo.entry? key = none) (neither : global.entry? key = none) :
      Prevails key global repo none

/-- What is picked is the entry that prevails. -/
theorem ConfigKey.Lawful.prevails (hkey : key.Lawful) (h : Config.load global repo = .ok c) :
    Prevails key global repo (c.pick key.get) := by
  obtain ⟨hg, hr, -, -⟩ := Config.load_eq_ok_iff.mp h
  have hpick : c.pick key.get
      = (key.get (c.repoFile.getD .empty)).or (key.get (c.globalFile.getD .empty)) := by
    rw [Config.pick, Config.global, Option.orElse_eq_or]
    cases c.repoFile with
    | none => exact congrArg (Option.or · _) hkey.empty.symm
    | some f => rfl
  rw [hpick]
  -- the repository's entry decides if there is one, and the user's if not
  rcases FileConfig.optional_cases (hkey.load hr) with ⟨hnone, hget⟩ | ⟨v, a, hentry, hread, hget⟩
  · rw [hget, Option.none_or]
    rcases FileConfig.optional_cases (hkey.load hg) with
      ⟨hneither, hget'⟩ | ⟨v, a, hentry, hread, hget'⟩
    · rw [hget']
      exact .nobody hnone hneither
    · rw [hget']
      exact .user hnone hentry hread
  · rw [hget]
    exact .repository hentry hread

/-- A value that prevails has what both files' entries have. -/
theorem Prevails.of_entries {a : α} {P : α → Prop} (h : Prevails key global repo (some a))
    (hglobal : ∀ v, global.entry? key = some v → key.Reads P v)
    (hrepo : ∀ v, repo.entry? key = some v → key.Reads P v) : P a := by
  cases h with
  | repository entry value =>
      obtain ⟨b, hread, hP⟩ := hrepo _ entry
      rw [Option.some.inj (value.symm.trans hread)]
      exact hP
  | user _ entry value =>
      obtain ⟨b, hread, hP⟩ := hglobal _ entry
      rw [Option.some.inj (value.symm.trans hread)]
      exact hP

/-! ## What is loaded -/

/-- What the entry for the proxy stands for. -/
def proxyOf : Option String → Proxy
  | none => .none
  | some "none" => .none
  | some "auto" => .auto
  | some address => .url address

/-- The address of a proxy is the text that stands for it. -/
theorem proxyOf_cases (text : String) :
    proxyOf (some text) = .none ∨ proxyOf (some text) = .auto
      ∨ proxyOf (some text) = .url text := by
  unfold proxyOf
  split
  · exact .inl rfl
  · exact .inl rfl
  · exact .inr (.inl rfl)
  · next heq => exact .inr (.inr (by rw [Option.some.inj heq]))

namespace Config

/-- Every key has the value that prevails, or its default. -/
structure Merges (c : Config) (global repo : ConfigSource) : Prop where
  chunkSize : ∃ n, Prevails .chunkSize global repo n ∧ c.chunkSize = n.getD (64 * 1024)
  proxy : ∃ text, Prevails .proxy global repo text ∧ c.proxy = proxyOf text
  prune : ∃ b, Prevails .prune global repo b ∧ c.prune = b.getD false
  /-- A depth of zero asks for the whole history. -/
  depth : ∃ n, Prevails .depth global repo n ∧ c.depth = n.filter (0 < ·)
  reflogMessage : ∃ text, Prevails .reflogMessage global repo text
    ∧ c.reflogMessage = text.getD "gitbridge: update refs"

/-- Each setting of a configuration is the entry that prevails, or its default. -/
theorem merges (h : load global repo = .ok c) : c.Merges global repo where
  chunkSize := ⟨_, ConfigKey.chunkSize_lawful.prevails h, rfl⟩
  proxy := ⟨_, ConfigKey.proxy_lawful.prevails h, rfl⟩
  prune := ⟨_, ConfigKey.prune_lawful.prevails h, rfl⟩
  depth := ⟨_, ConfigKey.depth_lawful.prevails h, rfl⟩
  reflogMessage := ⟨_, ConfigKey.reflogMessage_lawful.prevails h, rfl⟩

/-- What an operation may rely on. -/
structure Admissible (c : Config) : Prop where
  chunkSize : 1 ≤ c.chunkSize ∧ c.chunkSize ≤ 16 * 1024 * 1024
  proxy : c.proxy = .none ∨ c.proxy = .auto
    ∨ ∃ address, c.proxy = .url address ∧ "://".toList <:+: address.toList
  depth : c.depth ≠ some 0

/-- The settings of a configuration that was loaded are admissible. -/
theorem admissible (h : load global repo = .ok c) : c.Admissible := by
  obtain ⟨⟨-, hglobal⟩, -, hrepo⟩ := load_ok_iff.mp ⟨c, h⟩
  have hmerges := merges h
  refine ⟨?_, ?_, ?_⟩
  · obtain ⟨n, hprevails, hsize⟩ := hmerges.chunkSize
    rw [hsize]
    cases n with
    | none => exact ⟨by decide, by decide⟩
    | some n =>
        exact hprevails.of_entries (fun v hv => (validChunkSize_iff v).mp (hglobal.chunkSize v hv))
          (fun v hv => (validChunkSize_iff v).mp (hrepo.chunkSize v hv))
  · obtain ⟨text, hprevails, hproxy⟩ := hmerges.proxy
    rw [hproxy]
    cases text with
    | none => exact .inl rfl
    | some text =>
        have hform : IsProxy text :=
          hprevails.of_entries (fun v hv => (validProxy_iff v).mp (hglobal.proxy v hv))
            (fun v hv => (validProxy_iff v).mp (hrepo.proxy v hv))
        rcases hform with rfl | rfl | hscheme
        · exact .inl rfl
        · exact .inr (.inl rfl)
        · rcases proxyOf_cases text with hnone | hauto | haddress
          · exact .inl hnone
          · exact .inr (.inl hauto)
          · exact .inr (.inr ⟨text, haddress, hscheme⟩)
  · obtain ⟨n, -, hdepth⟩ := hmerges.depth
    rw [hdepth]
    intro hzero
    exact absurd (Option.filter_eq_some_iff.mp hzero).2 (by decide)

/-- The repository's zero is an entry, so it takes the place of the user's depth. -/
theorem depth_zero (h : load global repo = .ok c)
    (hzero : repo.entry? .depth = some (.integer 0)) : c.depth = none := by
  obtain ⟨n, hprevails, hdepth⟩ := (merges h).depth
  rw [hdepth]
  cases hprevails with
  | @repository v n entry value =>
      obtain rfl : v = .integer 0 := Option.some.inj (entry.symm.trans hzero)
      obtain rfl : 0 = n := Option.some.inj value
      rfl
  | user noEntry | nobody noEntry => exact nomatch hzero.symm.trans noEntry

/-- **A loaded configuration is admissible, and made key by key.**

    If two files, each of which may be missing, can be loaded: every key has the
    value of the repository's entry, else of the user's, else its default; the
    values are admissible; a depth of zero in the repository's file asks for
    the whole history, whatever the user's file has; and operations get the
    same values.  They can be loaded exactly if both can be read and the chunk
    size and the proxy of each are valid, so an invalid one makes loading fail
    also where the other file overrides it. -/
theorem load_merges (global repo : ConfigSource) :
    (∀ c, load global repo = .ok c →
      c.Merges global repo ∧ c.Admissible
        ∧ (repo.entry? .depth = some (.integer 0) → c.depth = none)
        ∧ FetchSettings.ofConfig c = ⟨c.proxy, c.prune, c.depth⟩
        ∧ (PushSettings.ofConfig c).proxy = c.proxy)
      ∧ ((∃ c, load global repo = .ok c) ↔
        ((∃ file, global.load = .ok file) ∧ global.Valid)
          ∧ (∃ file, repo.load = .ok file) ∧ repo.Valid)
      ∧ (¬ global.Valid ∨ ¬ repo.Valid → ∃ e, load global repo = .error e) := by
  refine ⟨?_, load_ok_iff, ?_⟩
  · intro c h
    exact ⟨merges h, admissible h, depth_zero h, rfl, rfl⟩
  · intro hinvalid
    cases h : load global repo with
    | error e => exact ⟨e, rfl⟩
    | ok c =>
        obtain ⟨⟨-, hglobal⟩, -, hrepo⟩ := load_ok_iff.mp ⟨c, h⟩
        exact hinvalid.elim (absurd hglobal) (absurd hrepo)

end Config

/-! ## Two files -/

namespace ConfigSource

/-- The file with a text. -/
def ofText (text : String) : ConfigSource := .file text.toByteArray.data.toList

/-- A file that holds a text is read as the text. -/
theorem document?_ofText (text : String) : (ofText text).document? = Toml.parse? text := by
  have hdecode : Text.decodeUtf8? text.toByteArray.data.toList = some text := by
    show String.fromUTF8? ⟨text.toByteArray.data.toList.toArray⟩ = _
    rw [Array.toArray_toList]
    exact dif_pos text.isValidUTF8
  show (Text.decodeUtf8? text.toByteArray.data.toList).bind Toml.parse? = _
  rw [hdecode]
  rfl

/-- A document with sections that fit is read. -/
theorem load_of_document? {document : Toml.Entries} {f : FileConfig}
    (hdocument : source.document? = some document)
    (hentries : FileConfig.ofEntries? document = some f) : source.load = .ok (some f) := by
  cases source with
  | missing | directory => exact nomatch hdocument
  | file content =>
      obtain ⟨text, htext, hparse⟩ := Option.bind_eq_some_iff.mp hdocument
      have hfile : FileConfig.parse? text = some f := by
        show (Toml.parse? text).bind FileConfig.ofEntries? = _
        rw [hparse]
        exact hentries
      rw [load, htext]
      simp only [hfile]

/-- The user asks for three commits, and sets the chunk size. -/
def userFile : ConfigSource := ofText "[stream]\nchunk_size = 1_024\n[remote]\ndepth = 3\n"

/-- The repository asks for the whole history. -/
def repoFile : ConfigSource := ofText "[remote]\ndepth = 0\nprune = true\n"

theorem document?_userFile : userFile.document? =
    some [("stream", .table .header [("chunk_size", .integer 1024)]),
      ("remote", .table .header [("depth", .integer 3)])] := by
  rw [userFile, document?_ofText, Toml.parse?]
  simp only [String.reduceToList]
  rfl

theorem document?_repoFile : repoFile.document? =
    some [("remote", .table .header [("depth", .integer 0), ("prune", .boolean true)])] := by
  rw [repoFile, document?_ofText, Toml.parse?]
  simp only [String.reduceToList]
  rfl

end ConfigSource

namespace Config

/-- What the two files make. -/
def twoFiles : Config where
  globalFile := some ⟨some ⟨some 1024⟩, some ⟨none, none, some 3⟩, none⟩
  repoFile := some ⟨none, some ⟨none, some true, some 0⟩, none⟩

theorem load_twoFiles : load .userFile .repoFile = .ok twoFiles :=
  load_eq_ok_iff.mpr ⟨ConfigSource.load_of_document? ConfigSource.document?_userFile rfl,
    ConfigSource.load_of_document? ConfigSource.document?_repoFile rfl, rfl, rfl⟩

/-- The repository's depth of zero prevails over the user's three commits. -/
theorem load_merges_twoFiles :
    load .userFile .repoFile = .ok twoFiles
      ∧ twoFiles.Merges .userFile .repoFile ∧ twoFiles.Admissible
      ∧ ConfigSource.repoFile.entry? .depth = some (.integer 0) ∧ twoFiles.depth = none := by
  have hzero : ConfigSource.repoFile.entry? .depth = some (.integer 0) := by
    rw [ConfigSource.entry?, ConfigSource.document?_repoFile]
    rfl
  obtain ⟨hmerges, hadmissible, hdepth, -, -⟩ :=
    (load_merges .userFile .repoFile).1 twoFiles load_twoFiles
  exact ⟨load_twoFiles, hmerges, hadmissible, hzero, hdepth hzero⟩

end Config

end Gitwork
