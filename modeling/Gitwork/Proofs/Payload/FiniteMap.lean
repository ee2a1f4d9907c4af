import Mathlib.Data.Finmap
import Gitwork.Proofs.Payload.Registration

/-! # The registry is a finite map

    Beside the registry stands a map from ids to entries.  An insert that
    succeeds extends the map at the id that it returns, a remove deletes its id
    from it, whatever the registry answers; the removes may be of any words,
    issued or not.

    * an insert changes the look-up of its own id, which was free, and of no
      other (`Registry.get?_insert`), and so does a remove (`Registry.get?_remove`);
    * each of them changes the number of full slots by one (`Registry.size_insert`,
      `Registry.size_remove`), and an insert fails only when all 2^32 slots are
      full (`Registry.insert_error_iff`);
    * hence, after any run, the registry and the map agree on every word
      (`Registry.Mapped.Faithful.run`). -/

namespace Gitwork

namespace Registry

variable {α : Type} {r r' : Registry α} {id other : PayloadId} {a : α}

/-! ## The number of entries -/

/-- The slots that count. -/
def isFull (slot : Slot α) : Bool := slot.entry.isSome

/-- Writing a slot changes the number of entries by what it had and what it has. -/
theorem countP_set {slots : List (Slot α)} {i : Nat} {slot : Slot α} (h : slots[i]? = some slot)
    (new : Slot α) : (slots.set i new).countP isFull + (if isFull slot then 1 else 0)
      = slots.countP isFull + (if isFull new then 1 else 0) := by
  obtain ⟨hlt, hslot⟩ := List.getElem?_eq_some_iff.mp h
  have hset : (slots.set i new).countP isFull
      = slots.countP isFull - (if isFull slots[i] then 1 else 0) + if isFull new then 1 else 0 :=
    List.countP_set hlt
  rw [hset, hslot]
  by_cases hfull : isFull slot = true
  · -- a full slot is one of those counted, so nothing is taken from zero
    have hpos : 0 < slots.countP isFull :=
      List.countP_pos_iff.mpr ⟨slot, hslot ▸ List.getElem_mem hlt, hfull⟩
    rw [if_pos hfull]
    omega
  · rw [if_neg hfull]
    omega

theorem size_insert (hr : r.Sound) (h : r.insert a = .ok (id, r')) : r'.size = r.size + 1 := by
  rcases insert_cases hr h with ⟨i, rest, generation, -, hslot, -, rfl⟩ | ⟨-, -, -, rfl⟩
  · exact countP_set hslot ⟨generation, some a⟩
  · exact List.countP_append

/-- A remove that finds an entry empties one slot. -/
theorem size_remove (hlive : r.get? id = some a) : (r.remove id).2.size + 1 = r.size := by
  rcases remove_cases r id with ⟨b, -, hrem⟩ | ⟨hnone, -⟩
  · rw [hrem]
    exact countP_set (get?_eq_some.mp hlive) ⟨id.generation + 1, none⟩
  · rw [hnone] at hlive
    exact nomatch hlive

/-- No slot is free exactly if all of them are full. -/
theorem Sound.free_eq_nil_iff (hr : r.Sound) : r.free = [] ↔ r.size = r.slots.length := by
  show _ ↔ r.slots.countP isFull = _
  rw [List.countP_eq_length]
  constructor
  · intro hfree slot hmem
    by_cases hfull : isFull slot = true
    · exact hfull
    · -- an empty slot has an index, and that is on the stack
      obtain ⟨i, hi⟩ := List.mem_iff_getElem?.mp hmem
      have hlt : i < UInt32.size :=
        Nat.lt_of_lt_of_le (List.getElem?_eq_some_iff.mp hi).1 hr.indexed
      have hempty : slot.entry = none := by simpa [isFull] using hfull
      have hfreed : UInt32.ofNat i ∈ r.free := by
        rw [hr.free_iff, UInt32.toNat_ofNat_of_lt' hlt]
        exact ⟨slot, hi, hempty⟩
      rw [hfree] at hfreed
      exact nomatch hfreed
  · intro hall
    -- a free slot is empty, so with all slots full there is none
    apply List.eq_nil_iff_forall_not_mem.mpr
    intro i hi
    obtain ⟨slot, hslot, hempty⟩ := (hr.free_iff i).mp hi
    have hfull := hall slot (List.mem_of_getElem? hslot)
    rw [isFull, hempty] at hfull
    exact nomatch hfull

/-- An insert fails because of the indices only. -/
theorem insert_error (hr : r.Sound) {e : Error} (h : r.insert a = .error e) :
    r.free = [] ∧ ¬ r.slots.length < UInt32.size ∧ e = .registryFull := by
  cases hf : r.free with
  | nil =>
      simp only [insert, hf, grow] at h
      split at h
      · cases h
      · next hfull => exact ⟨rfl, hfull, (Except.error.inj h).symm⟩
  | cons i rest =>
      obtain ⟨slot, hslot, -⟩ := (hr.free_iff i).mp (hf ▸ List.mem_cons_self)
      simp only [insert, hf, hslot] at h
      cases h

/-- An insert fails exactly if there is an entry for every index. -/
theorem insert_error_iff (hr : r.Sound) (a : α) :
    (∃ e, r.insert a = .error e) ↔ r.size = UInt32.size := by
  constructor
  · rintro ⟨e, he⟩
    obtain ⟨hfree, hfull, -⟩ := insert_error hr he
    rw [hr.free_eq_nil_iff.mp hfree]
    exact Nat.le_antisymm hr.indexed (Nat.le_of_not_lt hfull)
  · intro hsize
    have hcount : r.size ≤ r.slots.length := List.countP_le_length
    have hlength : r.slots.length = UInt32.size := by
      have hindexed := hr.indexed
      omega
    have hfree : r.free = [] := hr.free_eq_nil_iff.mpr (hsize.trans hlength.symm)
    refine ⟨.registryFull, ?_⟩
    simp only [insert, hfree, grow]
    exact if_neg (by rw [hlength]; exact Nat.lt_irrefl _)

/-! ## Runs beside a map -/

/-- What an insert that fails leaves: it has taken an index from the stack, if
    there was one. -/
def failed (r : Registry α) : Registry α := { r with free := r.free.tail }

/-- A change of the registry. -/
inductive Edit (α : Type)
  | insert (a : α)
  | remove (id : PayloadId)

/-- A registry and the map that it stands for. -/
structure Mapped (α : Type) where
  registry : Registry α
  /-- What was inserted and not removed since, by id. -/
  live : Finmap fun _ : PayloadId => α

namespace Mapped

def empty : Mapped α := ⟨.empty, ∅⟩

/-- A change, of the registry and of the map.  An insert enters the id that it
    returns; a remove deletes its id from the map, whatever it answers. -/
def edit (m : Mapped α) : Edit α → Mapped α
  | .insert a => match m.registry.insert a with
    | .ok (id, r) => ⟨r, m.live.insert id a⟩
    | .error _ => ⟨m.registry.failed, m.live⟩
  | .remove id => ⟨(m.registry.remove id).2, m.live.erase id⟩

/-- A run of changes from the start on. -/
def run (edits : List (Edit α)) : Mapped α := edits.foldl edit empty

/-- The registry is what the map says. -/
structure Faithful (m : Mapped α) : Prop where
  sound : m.registry.Sound
  get? : ∀ id, m.registry.get? id = m.live.lookup id
  size : m.registry.size = m.live.keys.card

namespace Faithful

variable {m : Mapped α}

theorem empty : (empty : Mapped α).Faithful where
  sound := Sound.empty
  get? := fun _ => rfl
  size := rfl

/-- The map has an id exactly if the id resolves. -/
theorem mem_live (h : m.Faithful) : id ∈ m.live ↔ ∃ a, m.registry.get? id = some a := by
  rw [Finmap.mem_iff]
  simp only [h.get? id]

/-- A failed insert has found the stack empty. -/
theorem failed (h : m.Faithful) {e : Error} (he : m.registry.insert a = .error e) :
    m.registry.failed = m.registry := by
  obtain ⟨hfree, -, -⟩ := insert_error h.sound he
  show Registry.mk m.registry.slots m.registry.free.tail = m.registry
  rw [hfree]
  show Registry.mk m.registry.slots [] = m.registry
  rw [← hfree]

/-- An insert extends the map at an id that is new to it. -/
theorem insert (h : m.Faithful) (hins : m.registry.insert a = .ok (id, r)) :
    id ∉ m.live ∧ Faithful ⟨r, m.live.insert id a⟩ := by
  have hnew : id ∉ m.live := by
    rw [h.mem_live, get?_fresh h.sound hins]
    exact nofun
  refine ⟨hnew, h.sound.insert hins, ?_, ?_⟩
  · intro other
    rw [get?_insert h.sound hins]
    split
    · next heq => rw [heq, Finmap.lookup_insert]
    · next hne => rw [Finmap.lookup_insert_of_ne _ hne, h.get? other]
  · have hkeys : (m.live.insert id a).keys = Insert.insert id m.live.keys := by
      ext other
      rw [Finmap.mem_keys, Finmap.mem_insert, Finset.mem_insert, Finmap.mem_keys]
    rw [size_insert h.sound hins, h.size, hkeys,
      Finset.card_insert_of_notMem (fun hmem => hnew (Finmap.mem_keys.mp hmem))]

/-- A remove deletes its own id from the map. -/
theorem remove (h : m.Faithful) (id : PayloadId) :
    Faithful ⟨(m.registry.remove id).2, m.live.erase id⟩ where
  sound := h.sound.remove id
  get? := by
    intro other
    rw [get?_remove]
    split
    · next heq => rw [heq, Finmap.lookup_erase]
    · next hne => rw [Finmap.lookup_erase_ne hne, h.get? other]
  size := by
    have hbefore := h.size
    show (m.registry.remove id).2.size = (m.live.erase id).keys.card
    rw [Finmap.keys_erase]
    cases hlive : m.registry.get? id with
    | some a =>
        have hmem : id ∈ m.live.keys := Finmap.mem_keys.mpr (h.mem_live.mpr ⟨a, hlive⟩)
        have hcard := Finset.card_erase_add_one hmem
        have hsize := size_remove hlive
        omega
    | none =>
        -- neither side has the id, so neither changes
        have hmem : id ∉ m.live.keys := by
          rw [Finmap.mem_keys, h.mem_live, hlive]
          exact nofun
        rw [remove_none hlive, Finset.erase_eq_of_notMem hmem]
        exact hbefore

/-- Every change keeps the two alike. -/
theorem edit (h : m.Faithful) (e : Edit α) : (m.edit e).Faithful := by
  cases e with
  | insert a =>
      rw [Mapped.edit]
      cases hins : m.registry.insert a with
      | error e => exact (h.failed hins).symm ▸ h
      | ok issued => exact (h.insert hins).2
  | remove id => exact h.remove id

theorem run (edits : List (Edit α)) : (run edits).Faithful := by
  have hfold : ∀ m : Mapped α, m.Faithful → (edits.foldl Mapped.edit m).Faithful := by
    induction edits with
    | nil => exact fun _ h => h
    | cons e rest ih => exact fun m h => ih (m.edit e) (h.edit e)
  exact hfold Mapped.empty Faithful.empty

end Faithful

end Mapped

/-- **The registry is a finite map.**

    After any run of inserts and removes of any words: every word resolves to
    what the map has for it; an insert returns an id that the map does not have
    and extends it there, unless the map has 2^32 entries; a remove returns what
    the map has for its word and deletes that; the size is that of the map; and
    what fails or finds nothing changes nothing. -/
theorem finite_map (edits : List (Edit α)) :
    let m := Mapped.run edits
    (∀ id, m.registry.get? id = m.live.lookup id)
      ∧ m.registry.size = m.live.keys.card
      ∧ (∀ a id r, m.registry.insert a = .ok (id, r) →
        id ∉ m.live ∧ ∀ other, r.get? other = (m.live.insert id a).lookup other)
      ∧ (∀ a, (∃ e, m.registry.insert a = .error e) ↔ m.live.keys.card = UInt32.size)
      ∧ (∀ a e, m.registry.insert a = .error e →
        e = .registryFull ∧ m.registry.failed = m.registry)
      ∧ (∀ id, (m.registry.remove id).1 = m.live.lookup id
        ∧ ∀ other, (m.registry.remove id).2.get? other = (m.live.erase id).lookup other)
      ∧ ∀ id, m.live.lookup id = none → m.registry.remove id = (none, m.registry) := by
  intro m
  have h : m.Faithful := Mapped.Faithful.run edits
  refine ⟨h.get?, h.size, ?_, ?_, ?_, ?_, ?_⟩
  · intro a id r hins
    obtain ⟨hnew, hafter⟩ := h.insert hins
    exact ⟨hnew, hafter.get?⟩
  · intro a
    rw [← h.size]
    exact insert_error_iff h.sound a
  · intro a e he
    exact ⟨(insert_error h.sound he).2.2, h.failed he⟩
  · intro id
    refine ⟨?_, (h.remove id).get?⟩
    rw [← h.get? id]
    exact remove_fst m.registry id
  · intro id hnone
    rw [← h.get? id] at hnone
    exact remove_none hnone

end Registry

end Gitwork
