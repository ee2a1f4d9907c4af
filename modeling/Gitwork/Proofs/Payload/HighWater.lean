import Mathlib.Order.Bounds.Basic
import Gitwork.Proofs.Payload.FiniteMap

/-! # A slot is used again before a new one is made

    The arena of the registry never shrinks, and it grows only when it has to:
    there are as many slots as there were entries at the busiest moment.

    * an insert makes a slot only if all slots are full, and a remove keeps
      every slot, so each change leaves as many slots as before or as there are
      entries after it, whichever is more (`Registry.Mapped.Faithful.slots_edit`);
    * the busiest moment of a longer run is its last or one before it
      (`Registry.Mapped.sizes_concat`), so by induction on the run the slots
      count the entries of the busiest one (`Registry.Mapped.slots_isGreatest`);
    * a slot that is lost, or freed twice, would show in the stack of free
      slots, which lists the empty slots by their places, each once
      (`Registry.Sound.mem_free_iff`). -/

namespace Gitwork

namespace Registry

variable {α : Type} {r r' : Registry α} {id : PayloadId} {a : α}

/-! ## One change -/

/-- There are not more entries than slots. -/
theorem size_le_slots (r : Registry α) : r.size ≤ r.slots.length :=
  List.countP_le_length

/-- An insert makes a slot only if its entry has no place otherwise. -/
theorem slots_insert (hr : r.Sound) (h : r.insert a = .ok (id, r')) :
    r'.slots.length = max r.slots.length r'.size := by
  have hsize := size_insert hr h
  have hroom := size_le_slots r'
  rcases insert_cases hr h with ⟨i, rest, generation, -, -, -, rfl⟩ | ⟨hfree, -, -, rfl⟩
  · -- the slot was there already
    rw [show (r.slots.set i.toNat ⟨generation, some a⟩).length = r.slots.length
      from List.length_set] at hroom ⊢
    exact (Nat.max_eq_left hroom).symm
  · -- all slots were full, so that entries and slots were as many
    have hfull := hr.free_eq_nil_iff.mp hfree
    have hlength : (r.slots ++ [(⟨0, some a⟩ : Slot α)]).length = r.slots.length + 1 :=
      List.length_append
    rw [hsize, hfull, hlength]
    exact (Nat.max_eq_right (Nat.le_succ _)).symm

/-- A remove keeps every slot. -/
theorem slots_remove (r : Registry α) (id : PayloadId) :
    (r.remove id).2.slots.length = r.slots.length := by
  rcases remove_cases r id with ⟨a, -, hrem⟩ | ⟨-, hrem⟩
  · rw [hrem]
    exact List.length_set
  · rw [hrem]

/-- The stack of free slots lists the places of the empty slots. -/
theorem Sound.mem_free_iff (hr : r.Sound) (i : Nat) :
    i ∈ r.free.map UInt32.toNat ↔ ∃ slot, r.slots[i]? = some slot ∧ slot.entry = none := by
  constructor
  · intro hmem
    obtain ⟨j, hj, rfl⟩ := List.mem_map.mp hmem
    exact (hr.free_iff j).mp hj
  · rintro ⟨slot, hslot, hempty⟩
    -- every slot has an index, so its place is a word
    have hlt : i < UInt32.size :=
      Nat.lt_of_lt_of_le (List.getElem?_eq_some_iff.mp hslot).1 hr.indexed
    refine List.mem_map.mpr ⟨.ofNat i, ?_, UInt32.toNat_ofNat_of_lt' hlt⟩
    rw [hr.free_iff, UInt32.toNat_ofNat_of_lt' hlt]
    exact ⟨slot, hslot, hempty⟩

namespace Mapped

variable {m : Mapped α}

/-- A change leaves as many slots as before, or as there are entries now. -/
theorem Faithful.slots_edit (h : m.Faithful) (e : Edit α) :
    (m.edit e).registry.slots.length
      = max m.registry.slots.length (m.edit e).live.keys.card := by
  rw [← (h.edit e).size]
  cases e with
  | insert a =>
      rw [Mapped.edit]
      cases hins : m.registry.insert a with
      | error e =>
          show m.registry.failed.slots.length = max _ m.registry.failed.size
          rw [h.failed hins]
          exact (Nat.max_eq_left (size_le_slots _)).symm
      | ok issued => exact slots_insert h.sound hins
  | remove id =>
      have hroom := size_le_slots (m.registry.remove id).2
      show (m.registry.remove id).2.slots.length = max _ (m.registry.remove id).2.size
      rw [slots_remove] at hroom ⊢
      exact (Nat.max_eq_left hroom).symm

/-- An insert fails exactly if there is an entry for every index. -/
theorem Faithful.insert_eq_error_iff (h : m.Faithful) (a : α) (e : Error) :
    m.registry.insert a = .error e ↔
      e = .registryFull ∧ m.live.keys.card = UInt32.size := by
  rw [← h.size, ← insert_error_iff h.sound a]
  constructor
  · intro he
    exact ⟨(insert_error h.sound he).2.2, e, he⟩
  · rintro ⟨rfl, e, he⟩
    rw [he, (insert_error h.sound he).2.2]

/-! ## The busiest moment of a run -/

/-- The numbers of entries that a run has gone through, that of its start included. -/
def sizes (edits : List (Edit α)) : Set Nat :=
  {n | ∃ before, before <+: edits ∧ (run before).live.keys.card = n}

theorem run_concat (edits : List (Edit α)) (e : Edit α) :
    run (edits ++ [e]) = (run edits).edit e :=
  List.foldl_append

/-- At the start there are no entries. -/
theorem sizes_nil : sizes ([] : List (Edit α)) = {0} := by
  ext n
  constructor
  · rintro ⟨before, hbefore, rfl⟩
    rw [List.prefix_nil.mp hbefore]
    exact rfl
  · intro hn
    obtain rfl : n = 0 := hn
    exact ⟨[], List.prefix_rfl, rfl⟩

/-- A change adds one moment. -/
theorem sizes_concat (edits : List (Edit α)) (e : Edit α) :
    sizes (edits ++ [e]) = Insert.insert (run (edits ++ [e])).live.keys.card (sizes edits) := by
  ext n
  constructor
  · rintro ⟨before, hbefore, rfl⟩
    rcases List.prefix_concat_iff.mp hbefore with hall | hearlier
    · rw [hall]
      exact Set.mem_insert _ _
    · exact Set.mem_insert_of_mem _ ⟨before, hearlier, rfl⟩
  · intro hn
    rcases Set.mem_insert_iff.mp hn with rfl | ⟨before, hbefore, rfl⟩
    · exact ⟨edits ++ [e], List.prefix_rfl, rfl⟩
    · exact ⟨before, hbefore.trans (List.prefix_append edits [e]), rfl⟩

/-- The slots count the entries of the busiest moment. -/
theorem slots_isGreatest (edits : List (Edit α)) :
    IsGreatest (sizes edits) (run edits).registry.slots.length := by
  induction edits using List.reverseRecOn with
  | nil =>
      rw [sizes_nil]
      exact isGreatest_singleton
  | append_singleton edits e ih =>
      have hstep := (Faithful.run edits).slots_edit e
      rw [← run_concat] at hstep
      rw [hstep, sizes_concat, Nat.max_comm]
      exact ih.insert _

end Mapped

/-- **The arena grows only at a new high of its entries.**

    After any run of inserts and removes of any words: there are as many slots
    as there were entries at the busiest moment of the run; the stack of free
    slots lists the places of the empty slots, each of them once; and an insert
    fails, with `registryFull`, exactly if there are 2^32 entries now. -/
theorem slots_match_busiest (edits : List (Edit α)) :
    let m := Mapped.run edits
    IsGreatest (Mapped.sizes edits) m.registry.slots.length
      ∧ m.registry.free.Nodup
      ∧ (∀ i, i ∈ m.registry.free.map UInt32.toNat ↔
        ∃ slot, m.registry.slots[i]? = some slot ∧ slot.entry = none)
      ∧ ∀ a e, m.registry.insert a = .error e ↔
        e = .registryFull ∧ m.live.keys.card = UInt32.size := by
  intro m
  have h : m.Faithful := Mapped.Faithful.run edits
  exact ⟨Mapped.slots_isGreatest edits, h.sound.nodup, h.sound.mem_free_iff,
    h.insert_eq_error_iff⟩

/-- Three payloads, of which there are never more than two at a time; one is
    removed twice, and a word is removed that was never issued. -/
example : (Mapped.run [.insert 'a', .insert 'b', .remove (.pack 0 0), .remove (.pack 0 0),
    .remove (.pack 7 3), .insert 'c']).registry.slots.length = 2 := rfl

end Registry

end Gitwork
