import Gitwork.Payload.Dispatch

/-! # Registered payloads

    A payload that is in the registry is reached by its id and by no other
    word, whatever else goes on in the registry.

    * an id is its index and its generation, nothing more (`PayloadId.ext_parts`);
    * the stack of free slots lists the empty slots, each once
      (`Registry.Sound`), so an insert never lands on a payload;
    * hence inserts, removes and callbacks of others leave the payload of an id
      alone (`Registry.get?_apply`), and a callback with the id itself is a
      callback of the payload (`Registry.fire_registered`). -/

namespace Gitwork

/-! ## Ids -/

namespace PayloadId

/-- The index is the lower half of the word. -/
theorem toNat_index (id : PayloadId) : id.index.toNat = id.raw.toNat % UInt32.size :=
  UInt64.toNat_toUInt32 id.raw

/-- The generation is the upper half of the word. -/
theorem toNat_generation (id : PayloadId) : id.generation.toNat = id.raw.toNat / UInt32.size := by
  have hlt : id.raw.toNat < 2 ^ 64 := id.raw.toNat_lt
  show ((id.raw >>> 32).toUInt32).toNat = _
  rw [UInt64.toNat_toUInt32, UInt64.toNat_shiftRight, Nat.shiftRight_eq_div_pow]
  show id.raw.toNat / 2 ^ 32 % 2 ^ 32 = id.raw.toNat / 2 ^ 32
  omega

/-- The word of a packed id, as a number. -/
theorem toNat_pack (index generation : UInt32) :
    (pack index generation).raw.toNat = generation.toNat * UInt32.size + index.toNat := by
  have hi : index.toNat < 2 ^ 32 := index.toNat_lt
  have hg : generation.toNat < 2 ^ 32 := generation.toNat_lt
  show ((generation.toUInt64 <<< 32) ||| index.toUInt64).toNat = _
  rw [UInt64.toNat_or, UInt64.toNat_shiftLeft, UInt32.toNat_toUInt64, UInt32.toNat_toUInt64]
  show (generation.toNat <<< 32) % 2 ^ 64 ||| index.toNat = _
  have hfit : (generation.toNat <<< 32) % 2 ^ 64 = generation.toNat <<< 32 := by
    rw [Nat.shiftLeft_eq]
    omega
  rw [hfit, ← Nat.shiftLeft_add_eq_or_of_lt hi, Nat.shiftLeft_eq]

@[simp] theorem index_pack (index generation : UInt32) : (pack index generation).index = index := by
  have hi : index.toNat < 2 ^ 32 := index.toNat_lt
  apply UInt32.toNat_inj.mp
  rw [toNat_index, toNat_pack, UInt32.size]
  omega

@[simp] theorem generation_pack (index generation : UInt32) :
    (pack index generation).generation = generation := by
  have hi : index.toNat < 2 ^ 32 := index.toNat_lt
  apply UInt32.toNat_inj.mp
  rw [toNat_generation, toNat_pack, UInt32.size]
  omega

/-- Index and generation are all there is to an id. -/
theorem ext_parts {id other : PayloadId} (hi : id.index = other.index)
    (hg : id.generation = other.generation) : id = other := by
  have hi' := congrArg UInt32.toNat hi
  have hg' := congrArg UInt32.toNat hg
  rw [toNat_index, toNat_index, UInt32.size] at hi'
  rw [toNat_generation, toNat_generation, UInt32.size] at hg'
  have hraw : id.raw.toNat = other.raw.toNat := by omega
  obtain ⟨raw⟩ := id
  obtain ⟨raw'⟩ := other
  exact congrArg PayloadId.mk (UInt64.toNat_inj.mp hraw)

end PayloadId

/-! ## The slots of a registry -/

namespace Registry

variable {α : Type} {r r' : Registry α} {id other : PayloadId} {a : α}

/-- The stack of free slots lists the empty slots, each of them once. -/
structure Sound (r : Registry α) : Prop where
  free_iff : ∀ i, i ∈ r.free ↔ ∃ slot, r.slots[i.toNat]? = some slot ∧ slot.entry = none
  nodup : r.free.Nodup
  /-- Every slot has an index. -/
  indexed : r.slots.length ≤ UInt32.size

/-- An empty registry has neither slots nor free ones. -/
theorem Sound.empty : (Registry.empty : Registry α).Sound where
  free_iff := by
    intro i
    constructor
    · exact nofun
    · rintro ⟨slot, hslot, _⟩
      exact nomatch hslot
  nodup := List.nodup_nil
  indexed := Nat.zero_le _

/-- An id resolves to the entry of its slot, if it fits the slot. -/
theorem get?_eq_some : r.get? id = some a ↔
    r.slots[id.index.toNat]? = some ⟨id.generation, some a⟩ := by
  show (r.slots[id.index.toNat]?).bind
    (fun slot => if slot.generation = id.generation then slot.entry else none) = some a ↔ _
  cases hs : r.slots[id.index.toNat]? with
  | none => simp
  | some slot =>
      obtain ⟨generation, entry⟩ := slot
      by_cases hg : generation = id.generation
      · simp [hg]
      · simp [hg]

/-- The two ways of an insert: into the slot freed last, or into a new one. -/
theorem insert_cases (hr : r.Sound) (h : r.insert a = .ok (id, r')) :
    (∃ i rest generation, r.free = i :: rest ∧ r.slots[i.toNat]? = some ⟨generation, none⟩
      ∧ id = .pack i generation ∧ r' = ⟨r.slots.set i.toNat ⟨generation, some a⟩, rest⟩)
    ∨ (r.free = [] ∧ r.slots.length < UInt32.size ∧ id = .pack (.ofNat r.slots.length) 0
      ∧ r' = ⟨r.slots ++ [⟨0, some a⟩], []⟩) := by
  cases hf : r.free with
  | nil =>
      right
      simp only [insert, hf, grow] at h
      split at h
      · next hlt =>
          obtain ⟨rfl, rfl⟩ := Prod.mk.inj (Except.ok.inj h)
          exact ⟨rfl, hlt, rfl, rfl⟩
      · exact nomatch h
  | cons i rest =>
      left
      obtain ⟨⟨generation, entry⟩, hslot, hentry⟩ := (hr.free_iff i).mp (hf ▸ List.mem_cons_self)
      simp only [insert, hf, hslot] at h
      obtain ⟨rfl, rfl⟩ := Prod.mk.inj (Except.ok.inj h)
      obtain rfl : entry = none := hentry
      exact ⟨i, rest, generation, rfl, hslot, rfl, rfl⟩

/-- The two ways of a remove: it empties the slot of a live id, or does nothing. -/
theorem remove_cases (r : Registry α) (id : PayloadId) :
    (∃ a, r.get? id = some a ∧ r.remove id = (some a,
        ⟨r.slots.set id.index.toNat ⟨id.generation + 1, none⟩, id.index :: r.free⟩))
    ∨ (r.get? id = none ∧ r.remove id = (none, r)) := by
  cases hs : r.slots[id.index.toNat]? with
  | none =>
      right
      constructor
      · simp [get?, hs]
      · simp [remove, hs]
  | some slot =>
      obtain ⟨generation, entry⟩ := slot
      -- the slot answers only to its present generation
      by_cases hg : generation = id.generation
      · subst hg
        cases entry with
        | none =>
            right
            constructor
            · simp [get?, hs]
            · simp [remove, hs]
        | some a =>
            left
            refine ⟨a, get?_eq_some.mpr hs, ?_⟩
            simp [remove, hs]
      · right
        constructor
        · simp [get?, hs, hg]
        · simp [remove, hs, hg]

/-- Changing the entry of an id changes a slot that the id fits, or nothing. -/
theorem modify_cases (r : Registry α) (id : PayloadId) (f : α → α) :
    (∃ entry, r.slots[id.index.toNat]? = some ⟨id.generation, entry⟩ ∧ r.modify id f
        = { r with slots := r.slots.set id.index.toNat ⟨id.generation, entry.map f⟩ })
    ∨ (r.get? id = none ∧ r.modify id f = r) := by
  cases hs : r.slots[id.index.toNat]? with
  | none =>
      right
      constructor
      · simp [get?, hs]
      · simp [modify, hs]
  | some slot =>
      obtain ⟨generation, entry⟩ := slot
      by_cases hg : generation = id.generation
      · subst hg
        left
        exact ⟨entry, rfl, by simp [modify, hs]⟩
      · right
        constructor
        · simp [get?, hs, hg]
        · simp [modify, hs, hg]

/-! ## The stack of free slots -/

theorem toNat_inj_of_ne {i j : UInt32} (h : i ≠ j) : i.toNat ≠ j.toNat :=
  fun he => h (UInt32.toNat_inj.mp he)

/-- Writing a slot keeps the books if the stack follows the slot. -/
theorem Sound.set (hr : r.Sound) {i : UInt32} {slot : Slot α} {free : List UInt32}
    (hlt : i.toNat < r.slots.length) (hi : i ∈ free ↔ slot.entry = none)
    (hother : ∀ j, j ≠ i → (j ∈ free ↔ j ∈ r.free)) (hnodup : free.Nodup) :
    Sound ⟨r.slots.set i.toNat slot, free⟩ where
  free_iff := by
    intro j
    by_cases hj : j = i
    · subst hj
      rw [hi]
      show _ ↔ ∃ s, (r.slots.set j.toNat slot)[j.toNat]? = some s ∧ s.entry = none
      rw [List.getElem?_set_self hlt]
      constructor
      · intro hnone
        exact ⟨slot, rfl, hnone⟩
      · rintro ⟨s, hs, hnone⟩
        rw [Option.some.inj hs]
        exact hnone
    · rw [hother j hj, hr.free_iff j]
      show _ ↔ ∃ s, (r.slots.set i.toNat slot)[j.toNat]? = some s ∧ s.entry = none
      rw [List.getElem?_set_ne (toNat_inj_of_ne (Ne.symm hj))]
  nodup := hnodup
  indexed := by
    show (r.slots.set i.toNat slot).length ≤ _
    rw [List.length_set]
    exact hr.indexed

theorem lt_of_slot {i : UInt32} {slot : Slot α} (h : r.slots[i.toNat]? = some slot) :
    i.toNat < r.slots.length :=
  (List.getElem?_eq_some_iff.mp h).1

/-- An insert takes the top of the stack, or makes a slot at the end. -/
theorem Sound.insert (hr : r.Sound) (h : r.insert a = .ok (id, r')) : r'.Sound := by
  rcases insert_cases hr h with ⟨i, rest, generation, hf, hslot, -, rfl⟩ | ⟨hf, hlt, -, rfl⟩
  · have hnodup : (i :: rest).Nodup := hf ▸ hr.nodup
    have hi : i ∉ rest := (List.nodup_cons.mp hnodup).1
    refine hr.set (lt_of_slot hslot) ?_ ?_ (List.nodup_cons.mp hnodup).2
    · exact ⟨fun hmem => absurd hmem hi, nofun⟩
    · intro j hj
      rw [hf, List.mem_cons]
      exact ⟨Or.inr, fun hmem => hmem.resolve_left hj⟩
  · refine ⟨?_, List.nodup_nil, ?_⟩
    · intro i
      constructor
      · exact nofun
      · rintro ⟨slot, hslot, hnone⟩
        -- the new slot is full, and no older one is empty
        have hslot : (r.slots ++ [⟨0, some a⟩])[i.toNat]? = some slot := hslot
        rcases Nat.lt_trichotomy i.toNat r.slots.length with hi | hi | hi
        · rw [List.getElem?_append_left hi] at hslot
          exact absurd ((hr.free_iff i).mpr ⟨slot, hslot, hnone⟩) (hf ▸ List.not_mem_nil)
        · rw [hi, List.getElem?_concat_length] at hslot
          rw [← Option.some.inj hslot] at hnone
          exact nomatch hnone
        · rw [List.getElem?_eq_none (by rw [List.length_append]; exact hi)] at hslot
          exact nomatch hslot
    · show (r.slots ++ [_]).length ≤ _
      rw [List.length_append]
      exact hlt

/-- A remove puts the index of its slot on the stack, which did not have it. -/
theorem Sound.remove (hr : r.Sound) (id : PayloadId) : (r.remove id).2.Sound := by
  rcases remove_cases r id with ⟨a, hget, hrem⟩ | ⟨-, hrem⟩
  · rw [hrem]
    have hslot := get?_eq_some.mp hget
    -- the slot of a live id is not among the free ones
    have hfull : id.index ∉ r.free := by
      intro hmem
      obtain ⟨slot, hslot', hnone⟩ := (hr.free_iff _).mp hmem
      rw [hslot] at hslot'
      rw [← Option.some.inj hslot'] at hnone
      exact nomatch hnone
    refine hr.set (lt_of_slot hslot) ?_ ?_ (List.nodup_cons.mpr ⟨hfull, hr.nodup⟩)
    · exact ⟨fun _ => rfl, fun _ => List.mem_cons_self⟩
    · intro j hj
      rw [List.mem_cons]
      exact ⟨fun hmem => hmem.resolve_left hj, Or.inr⟩
  · rw [hrem]
    exact hr

/-- A full slot stays full, and an empty one is not found. -/
theorem Sound.modify (hr : r.Sound) (id : PayloadId) (f : α → α) : (r.modify id f).Sound := by
  rcases modify_cases r id f with ⟨entry, hslot, hmod⟩ | ⟨-, hmod⟩
  · rw [hmod]
    refine hr.set (lt_of_slot hslot) ?_ (fun _ _ => Iff.rfl) hr.nodup
    rw [hr.free_iff, hslot]
    constructor
    · rintro ⟨slot, hs, hnone⟩
      rw [← Option.some.inj hs] at hnone
      exact congrArg (Option.map f) hnone
    · intro hnone
      exact ⟨_, rfl, Option.map_eq_none_iff.mp hnone⟩
  · rw [hmod]
    exact hr

/-! ## What an id resolves to -/

/-- An id resolves the same as long as its slot is the same. -/
theorem get?_congr (h : r'.slots[id.index.toNat]? = r.slots[id.index.toNat]?) :
    r'.get? id = r.get? id := by
  show (r'.slots[id.index.toNat]?).bind _ = (r.slots[id.index.toNat]?).bind _
  rw [h]

/-- What was inserted is what its id resolves to. -/
theorem get?_insert_self (hr : r.Sound) (h : r.insert a = .ok (id, r')) :
    r'.get? id = some a := by
  apply get?_eq_some.mpr
  rcases insert_cases hr h with ⟨i, rest, generation, -, hslot, rfl, rfl⟩ | ⟨-, hlt, rfl, rfl⟩
  · rw [PayloadId.index_pack, PayloadId.generation_pack]
    exact List.getElem?_set_self (lt_of_slot hslot)
  · rw [PayloadId.index_pack, PayloadId.generation_pack, UInt32.toNat_ofNat_of_lt' hlt]
    exact List.getElem?_concat_length

/-- An insert leaves the entries of all live ids in place. -/
theorem get?_insert_other (hr : r.Sound) {b : α} (hlive : r.get? other = some b)
    (h : r.insert a = .ok (id, r')) : r'.get? other = some b := by
  rw [← hlive]
  apply get?_congr
  have hslot := get?_eq_some.mp hlive
  rcases insert_cases hr h with ⟨i, rest, generation, -, hempty, -, rfl⟩ | ⟨-, -, -, rfl⟩
  · -- a free slot is empty, and the slot of a live id is not
    have hne : i.toNat ≠ other.index.toNat := by
      intro he
      rw [← he, hempty] at hslot
      exact nomatch congrArg Slot.entry (Option.some.inj hslot)
    exact List.getElem?_set_ne hne
  · exact List.getElem?_append_left (lt_of_slot hslot)

/-- Two live ids have slots of their own. -/
theorem index_ne (hne : other ≠ id) {b : α} (hlive : r.get? other = some b) {entry : Option α}
    (hslot : r.slots[id.index.toNat]? = some ⟨id.generation, entry⟩) :
    id.index.toNat ≠ other.index.toNat := by
  intro hi
  have hslot' := get?_eq_some.mp hlive
  rw [← hi, hslot] at hslot'
  -- ids with one slot have one generation, and so are the same
  have hg : id.generation = other.generation := congrArg Slot.generation (Option.some.inj hslot')
  exact hne (PayloadId.ext_parts (UInt32.toNat_inj.mp hi) hg).symm

/-- The id of an insert resolves to nothing before. -/
theorem get?_fresh (hr : r.Sound) (h : r.insert a = .ok (id, r')) : r.get? id = none := by
  cases hlive : r.get? id with
  | none => rfl
  | some b =>
      have hslot := get?_eq_some.mp hlive
      rcases insert_cases hr h with ⟨i, rest, generation, -, hempty, rfl, -⟩ | ⟨-, hlt, rfl, -⟩
      · rw [PayloadId.index_pack, hempty] at hslot
        exact nomatch congrArg Slot.entry (Option.some.inj hslot)
      · -- the slot was not there yet
        rw [PayloadId.index_pack, UInt32.toNat_ofNat_of_lt' hlt,
          List.getElem?_eq_none (Nat.le_refl _)] at hslot
        exact nomatch hslot

/-- An insert writes the slot of its id and no other. -/
theorem insert_slots (hr : r.Sound) (h : r.insert a = .ok (id, r')) {j : Nat}
    (hj : j ≠ id.index.toNat) : r'.slots[j]? = r.slots[j]? := by
  rcases insert_cases hr h with ⟨i, rest, generation, -, -, rfl, rfl⟩ | ⟨-, hlt, rfl, rfl⟩
  · rw [PayloadId.index_pack] at hj
    exact List.getElem?_set_ne (Ne.symm hj)
  · rw [PayloadId.index_pack, UInt32.toNat_ofNat_of_lt' hlt] at hj
    show (r.slots ++ [_])[j]? = _
    rcases Nat.lt_or_gt_of_ne hj with hbelow | habove
    · exact List.getElem?_append_left hbelow
    · rw [List.getElem?_eq_none (by rw [List.length_append]; exact habove),
        List.getElem?_eq_none (Nat.le_of_lt habove)]

/-- An insert changes the look-up of its id only. -/
theorem get?_insert (hr : r.Sound) (h : r.insert a = .ok (id, r')) (other : PayloadId) :
    r'.get? other = if other = id then some a else r.get? other := by
  split
  · next heq =>
      rw [heq]
      exact get?_insert_self hr h
  · next hne =>
      cases hlive : r.get? other with
      | some b => exact get?_insert_other hr hlive h
      | none =>
          by_cases hi : other.index = id.index
          · -- the slot is that of the new id, so another generation does not fit it
            cases hafter : r'.get? other with
            | none => rfl
            | some b =>
                have hself := get?_eq_some.mp (get?_insert_self hr h)
                have hother := get?_eq_some.mp hafter
                rw [hi, hself] at hother
                have hg : id.generation = other.generation :=
                  congrArg Slot.generation (Option.some.inj hother)
                exact absurd (PayloadId.ext_parts hi hg.symm) hne
          · rw [get?_congr (insert_slots hr h (toNat_inj_of_ne hi)), hlive]

/-- A remove takes away the entry of its own id only. -/
theorem get?_remove_other (hne : other ≠ id) {b : α} (hlive : r.get? other = some b) :
    (r.remove id).2.get? other = some b := by
  rcases remove_cases r id with ⟨a, hget, hrem⟩ | ⟨-, hrem⟩
  · rw [hrem, ← hlive]
    apply get?_congr
    exact List.getElem?_set_ne (index_ne hne hlive (get?_eq_some.mp hget))
  · rw [hrem]
    exact hlive

/-- A remove changes the look-up of its id only. -/
theorem get?_remove (r : Registry α) (id other : PayloadId) :
    (r.remove id).2.get? other = if other = id then none else r.get? other := by
  rcases remove_cases r id with ⟨a, hlive, hrem⟩ | ⟨hnone, hrem⟩
  · have hslot := get?_eq_some.mp hlive
    by_cases hi : other.index = id.index
    · -- the slot is empty now, and it had no other id before
      have hafter : (r.remove id).2.get? other = none := by
        cases hget : (r.remove id).2.get? other with
        | none => rfl
        | some b =>
            have hempty := get?_eq_some.mp hget
            rw [hrem, hi] at hempty
            rw [List.getElem?_set_self (lt_of_slot hslot)] at hempty
            exact nomatch congrArg Slot.entry (Option.some.inj hempty)
      rw [hafter]
      split
      · rfl
      · next hne =>
          cases hother : r.get? other with
          | none => rfl
          | some b => exact absurd (congrArg UInt32.toNat hi.symm) (index_ne hne hother hslot)
    · have hne : other ≠ id := fun heq => hi (congrArg PayloadId.index heq)
      rw [if_neg hne, hrem]
      exact get?_congr (List.getElem?_set_ne (toNat_inj_of_ne (Ne.symm hi)))
  · rw [hrem]
    split
    · next heq => rw [heq, hnone]
    · rfl

/-- A remove returns what its id resolves to. -/
theorem remove_fst (r : Registry α) (id : PayloadId) : (r.remove id).1 = r.get? id := by
  rcases remove_cases r id with ⟨a, hlive, hrem⟩ | ⟨hnone, hrem⟩
  · rw [hrem, hlive]
  · rw [hrem, hnone]

/-- A remove that finds nothing does nothing. -/
theorem remove_none (h : r.get? id = none) : r.remove id = (none, r) := by
  rcases remove_cases r id with ⟨a, hlive, -⟩ | ⟨-, hrem⟩
  · rw [h] at hlive
    exact nomatch hlive
  · exact hrem

/-- A change is seen under its own id. -/
theorem get?_modify_self (hlive : r.get? id = some a) (f : α → α) :
    (r.modify id f).get? id = some (f a) := by
  rcases modify_cases r id f with ⟨entry, hslot, hmod⟩ | ⟨hnone, -⟩
  · have hslot' := get?_eq_some.mp hlive
    rw [hslot] at hslot'
    obtain rfl : entry = some a := congrArg Slot.entry (Option.some.inj hslot')
    rw [hmod]
    exact get?_eq_some.mpr (List.getElem?_set_self (lt_of_slot hslot))
  · rw [hnone] at hlive
    exact nomatch hlive

/-- And under no other one. -/
theorem get?_modify_other (hne : other ≠ id) {b : α} (hlive : r.get? other = some b) (f : α → α) :
    (r.modify id f).get? other = some b := by
  rcases modify_cases r id f with ⟨entry, hslot, hmod⟩ | ⟨-, hmod⟩
  · rw [hmod, ← hlive]
    apply get?_congr
    exact List.getElem?_set_ne (index_ne hne hlive hslot)
  · rw [hmod]
    exact hlive

/-! ## Callbacks by id, among others -/

variable {payloads : Registry Payload} {p : Payload}

/-- A callback with the id of a registered payload is a callback of the payload. -/
theorem fire_registered (hp : payloads.get? id = some p) (caller : ThreadId) (call : Call) :
    (payloads.fire id p.handlers.kind caller call).1 = (p.fire caller call).1
      ∧ (payloads.fire id p.handlers.kind caller call).2
        = payloads.modify id fun _ => (p.fire caller call).2 := by
  simp [fire, hp]

/-- A callback changes the registry by changing one entry, if at all. -/
theorem fire_modifies (payloads : Registry Payload) (id : PayloadId) (kind : SetKind)
    (caller : ThreadId) (call : Call) :
    (payloads.fire id kind caller call).2 = payloads
      ∨ ∃ f, (payloads.fire id kind caller call).2 = payloads.modify id f := by
  cases hp : payloads.get? id with
  | none =>
      left
      simp [fire, hp]
  | some p =>
      by_cases hk : p.handlers.kind = kind
      · right
        subst hk
        exact ⟨_, (fire_registered hp caller call).2⟩
      · left
        simp [fire, hp, hk]

/-- What may be done to a registry. -/
inductive Move
  | insert (p : Payload)
  | remove (id : PayloadId)
  | fire (id : PayloadId) (kind : SetKind) (caller : ThreadId) (call : Call)

/-- Whether a move is by somebody else: an insert, or one that goes by another id. -/
def Move.Spares (id : PayloadId) : Move → Prop
  | insert _ => True
  | remove other => other ≠ id
  | fire other .. => other ≠ id

/-- The registry after a move; an insert into a full one leaves it alone. -/
def apply (payloads : Registry Payload) : Move → Registry Payload
  | .insert p => match payloads.insert p with
    | .ok (_, after) => after
    | .error _ => payloads
  | .remove id => (payloads.remove id).2
  | .fire id kind caller call => (payloads.fire id kind caller call).2

/-- What a payload does with its registration keeps the registry sound. -/
theorem Sound.apply (h : payloads.Sound) (m : Move) : (payloads.apply m).Sound := by
  cases m with
  | insert q =>
      show Sound (match payloads.insert q with | .ok (_, after) => after | .error _ => payloads)
      cases hi : payloads.insert q with
      | error e => exact h
      | ok issued => exact h.insert hi
  | remove other => exact h.remove other
  | fire other kind caller call =>
      show Sound (payloads.fire other kind caller call).2
      rcases fire_modifies payloads other kind caller call with hsame | ⟨f, hmod⟩
      · rw [hsame]
        exact h
      · rw [hmod]
        exact h.modify other f

/-- **A registered payload is out of reach of others.** -/
theorem get?_apply (h : payloads.Sound) (hp : payloads.get? id = some p) {m : Move}
    (hm : m.Spares id) : (payloads.apply m).get? id = some p := by
  cases m with
  | insert q =>
      show Registry.get? (match payloads.insert q with
        | .ok (_, after) => after
        | .error _ => payloads) id = some p
      cases hi : payloads.insert q with
      | error e => exact hp
      | ok issued => exact get?_insert_other h hp hi
  | remove other => exact get?_remove_other (Ne.symm hm) hp
  | fire other kind caller call =>
      show (payloads.fire other kind caller call).2.get? id = some p
      rcases fire_modifies payloads other kind caller call with hsame | ⟨f, hmod⟩
      · rw [hsame]
        exact hp
      · rw [hmod]
        exact get?_modify_other (Ne.symm hm) hp f

/-- The registry after moves from the start of the process on. -/
def history (moves : List Move) : Registry Payload := moves.foldl apply empty

/-- So the registry is sound at any time. -/
theorem Sound.history (moves : List Move) : (history moves).Sound := by
  have hfold : ∀ payloads : Registry Payload, payloads.Sound →
      (moves.foldl Registry.apply payloads).Sound := by
    induction moves with
    | nil =>
        intro payloads h
        exact h
    | cons m rest ih =>
        intro payloads h
        exact ih (payloads.apply m) (h.apply m)
  exact hfold Registry.empty Sound.empty

end Registry

end Gitwork
