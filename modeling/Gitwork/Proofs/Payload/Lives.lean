import Gitwork.Proofs.Payload.Steps
import Gitwork.Proofs.Payload.Generations
import Gitwork.Proofs.Payload.FiniteMap

/-! # The life of a payload

    Under its name a payload is made, lives and is dropped, while others come
    and go in the same registry.

    * the id of a dropped payload is behind the generation of its slot
      (`Registry.Past`), and stays so as long as generations do not wrap;
    * so live names have payloads of their own, and dropped ones have none
      (`PayloadRun.Dated`);
    * what a step does to the life of its name is what it does alone, and to other
      lives it does nothing (`PayloadRun.LikeAlone`), whether it asks, runs a
      callback, drops or makes a payload. -/

namespace Gitwork

/-! ## Ids of the past -/

namespace Registry

variable {α : Type} {r r' : Registry α} {id : PayloadId} {a : α} {n : Nat}

/-- The slot of an id has a later generation than the id. -/
def Past (r : Registry α) (id : PayloadId) : Prop :=
  ∃ slot, r.slots[id.index.toNat]? = some slot ∧ id.generation.toNat < slot.generation.toNat

/-- No slot has a generation above a number. -/
def Young (r : Registry α) (n : Nat) : Prop :=
  ∀ slot ∈ r.slots, slot.generation.toNat ≤ n

/-- An id its slot has outgrown resolves to nothing. -/
theorem Past.get?_eq_none (h : r.Past id) : r.get? id = none := by
  obtain ⟨slot, hslot, hlt⟩ := h
  cases hget : r.get? id with
  | none => rfl
  | some a =>
      rw [get?_eq_some, hslot] at hget
      rw [Option.some.inj hget] at hlt
      exact absurd hlt (Nat.lt_irrefl _)

/-- No insert brings an outgrown id back: it opens a slot or fills one at its generation. -/
theorem Past.insert (hr : r.Sound) (hins : r.insert a = .ok (id, r')) {other : PayloadId}
    (h : r.Past other) : r'.Past other := by
  obtain ⟨slot, hslot, hlt⟩ := h
  obtain ⟨entry, hafter⟩ := insert_generation hr hins hslot
  exact ⟨_, hafter, hlt⟩

/-- An id of the past is not issued again. -/
theorem Past.ne_of_insert (hr : r.Sound) (hins : r.insert a = .ok (id, r')) {other : PayloadId}
    (h : r.Past other) : other ≠ id := by
  rintro rfl
  have hnone := (h.insert hr hins).get?_eq_none
  rw [get?_insert_self hr hins] at hnone
  cases hnone

theorem Past.modify (h : r.Past id) (other : PayloadId) (f : α → α) :
    (r.modify other f).Past id := by
  obtain ⟨slot, hslot, hlt⟩ := h
  obtain ⟨entry, hafter⟩ := modify_generation other f hslot
  exact ⟨_, hafter, hlt⟩

/-- The next generation of a young slot does not wrap around. -/
theorem Young.toNat_add_one (hr : r.Young n) (hn : n + 1 < UInt32.size) {i : Nat}
    {slot : Slot α} (hslot : r.slots[i]? = some slot) :
    (slot.generation + 1).toNat = slot.generation.toNat + 1 := by
  have hle := hr slot (List.mem_of_getElem? hslot)
  have hone : (1 : UInt32).toNat = 1 := rfl
  rw [UInt32.size] at hn
  rw [UInt32.toNat_add, hone]
  omega

/-- A remove only raises generations, as long as none of them wraps around. -/
theorem Past.remove (hr : r.Young n) (hn : n + 1 < UInt32.size) (h : r.Past id)
    (other : PayloadId) : (r.remove other).2.Past id := by
  obtain ⟨slot, hslot, hlt⟩ := h
  obtain ⟨entry, hafter⟩ := remove_generation other hslot
  refine ⟨_, hafter, ?_⟩
  dsimp only
  split
  · rw [hr.toNat_add_one hn hslot]
    exact Nat.lt_succ_of_lt hlt
  · rw [UInt32.add_zero]
    exact hlt

/-- An id that is removed is one of the past. -/
theorem Past.of_remove (hr : r.Young n) (hn : n + 1 < UInt32.size) (hlive : r.get? id = some a) :
    (r.remove id).2.Past id := by
  have hslot := get?_eq_some.mp hlive
  obtain ⟨entry, hafter⟩ := remove_generation id hslot
  rw [hlive, if_pos ⟨rfl, rfl⟩] at hafter
  refine ⟨_, hafter, ?_⟩
  rw [hr.toNat_add_one hn hslot]
  exact Nat.lt_succ_self _

theorem Young.set (hr : r.Young n) {i : Nat} {new : Slot α} (hnew : new.generation.toNat ≤ n)
    (free : List UInt32) : Young ⟨r.slots.set i new, free⟩ n := by
  intro slot hmem
  rcases List.mem_or_eq_of_mem_set hmem with hold | rfl
  · exact hr slot hold
  · exact hnew

/-- An insert raises no generation. -/
theorem Young.insert (hr : r.Sound) (hins : r.insert a = .ok (id, r')) (h : r.Young n) :
    r'.Young n := by
  rcases insert_cases hr hins with ⟨i, rest, generation, -, hslot, -, rfl⟩ | ⟨-, -, -, rfl⟩
  · have hle := h _ (List.mem_of_getElem? hslot)
    refine h.set ?_ rest
    exact hle
  · intro slot hmem
    rcases List.mem_append.mp hmem with hold | hnew
    · exact h slot hold
    · rw [List.mem_singleton.mp hnew]
      exact Nat.zero_le n

/-- Writing into an entry raises no generation. -/
theorem Young.modify (h : r.Young n) (id : PayloadId) (f : α → α) : (r.modify id f).Young n := by
  rcases modify_cases r id f with ⟨entry, hslot, hmod⟩ | ⟨-, hmod⟩
  · rw [hmod]
    have hle := h _ (List.mem_of_getElem? hslot)
    refine h.set ?_ r.free
    exact hle
  · rw [hmod]
    exact h

/-- A remove raises a generation by one at most. -/
theorem Young.remove (h : r.Young n) (id : PayloadId) : (r.remove id).2.Young (n + 1) := by
  have hlater : r.Young (n + 1) := fun slot hmem => Nat.le_succ_of_le (h slot hmem)
  rcases remove_cases r id with ⟨a, hlive, hrem⟩ | ⟨-, hrem⟩
  · rw [hrem]
    refine hlater.set ?_ _
    have hle : id.generation.toNat ≤ n := h _ (List.mem_of_getElem? (get?_eq_some.mp hlive))
    show (id.generation + 1).toNat ≤ n + 1
    rw [UInt32.toNat_add]
    exact Nat.le_trans (Nat.mod_le _ _) (Nat.succ_le_succ hle)
  · rw [hrem]
    exact hlater

/-- Changing an entry does not change the number of entries. -/
theorem size_modify (r : Registry α) (id : PayloadId) (f : α → α) :
    (r.modify id f).size = r.size := by
  rcases modify_cases r id f with ⟨entry, hslot, hmod⟩ | ⟨-, hmod⟩
  · have hcount := countP_set hslot ⟨id.generation, entry.map f⟩
    have hfull : isFull (⟨id.generation, entry.map f⟩ : Slot α) = isFull ⟨id.generation, entry⟩ :=
      Option.isSome_map
    rw [hfull] at hcount
    rw [hmod]
    exact Nat.add_right_cancel hcount
  · rw [hmod]

end Registry

/-! ## The life of a name -/

/-- What has become of the payload of a name. -/
inductive Life
  | unborn
  | alive (p : Payload)
  | dropped

namespace PayloadRun

/-- A name without an id never had a payload. -/
def life (r : PayloadRun) (name : String) : Life :=
  (r.ids.lookup name).elim .unborn fun _ => (r.payload? name).elim .dropped .alive

variable {r o : PayloadRun} {name other : String} {id : PayloadId} {p : Payload} {n : Nat}

theorem id_eq (hid : r.ids.lookup name = some id) : r.id name = id := by
  rw [PayloadRun.id, hid]
  rfl

theorem payload?_live (hlive : name ∈ r.live) (hid : r.ids.lookup name = some id) :
    r.payload? name = r.registry.get? id := by
  rw [payload?, if_pos (List.contains_iff_mem.mpr hlive), id_eq hid]

theorem payload?_not_live (hlive : name ∉ r.live) : r.payload? name = none :=
  if_neg fun hmem => hlive (List.contains_iff_mem.mp hmem)

theorem life_unborn (hid : r.ids.lookup name = none) : r.life name = .unborn := by
  rw [life, hid]
  rfl

theorem life_alive (hid : r.ids.lookup name = some id) (hlive : name ∈ r.live)
    (hget : r.registry.get? id = some p) : r.life name = .alive p := by
  rw [life, payload?_live hlive hid, hid, hget]
  rfl

theorem life_dropped (hid : r.ids.lookup name = some id) (hlive : name ∉ r.live) :
    r.life name = .dropped := by
  rw [life, payload?_not_live hlive, hid]
  rfl

/-- The life of a name is in its id, in whether it is live, and in what its id
    resolves to. -/
theorem life_congr (hids : o.ids.lookup name = r.ids.lookup name)
    (hlive : name ∈ o.live ↔ name ∈ r.live)
    (hget : ∀ id, r.ids.lookup name = some id → name ∈ r.live →
      o.registry.get? id = r.registry.get? id) : o.life name = r.life name := by
  cases hid : r.ids.lookup name with
  | none => rw [life_unborn hid, life_unborn (hids.trans hid)]
  | some id =>
      by_cases hmem : name ∈ r.live
      · rw [life, life, payload?_live hmem hid, payload?_live (hlive.mpr hmem) (hids.trans hid),
          hids, hget id hid hmem]
      · rw [life_dropped hid hmem,
          life_dropped (hids.trans hid) fun hmem' => hmem (hlive.mp hmem')]

/-- Live names have payloads of their own, and the ids of dropped ones are of
    the past. -/
structure Dated (r : PayloadRun) (n : Nat) : Prop where
  sound : r.registry.Sound
  young : r.registry.Young n
  nodup : r.live.Nodup
  alive : ∀ name ∈ r.live, ∃ id p, r.ids.lookup name = some id ∧ r.registry.get? id = some p
  past : ∀ name id, r.ids.lookup name = some id → name ∉ r.live → r.registry.Past id
  apart : ∀ name other id, r.ids.lookup name = some id → r.ids.lookup other = some id →
    name = other

/-- Before the first step every name is unborn and the registry is empty. -/
theorem Dated.empty : PayloadRun.empty.Dated 0 where
  sound := Registry.Sound.empty
  young := fun _ hmem => nomatch hmem
  nodup := List.nodup_nil
  alive := fun _ hmem => nomatch hmem
  past := fun _ _ hid _ => nomatch hid
  apart := fun _ _ _ hid _ => nomatch hid

/-- Where a name stands: it never had a payload, it has one, or it had one. -/
theorem Dated.life_cases (hr : r.Dated n) (name : String) :
    (r.ids.lookup name = none ∧ name ∉ r.live ∧ r.life name = .unborn)
      ∨ (∃ id p, r.ids.lookup name = some id ∧ name ∈ r.live ∧ r.registry.get? id = some p
        ∧ r.life name = .alive p)
      ∨ ∃ id, r.ids.lookup name = some id ∧ name ∉ r.live ∧ r.registry.get? id = none
        ∧ r.life name = .dropped := by
  by_cases hlive : name ∈ r.live
  · obtain ⟨id, p, hid, hget⟩ := hr.alive name hlive
    exact Or.inr (Or.inl ⟨id, p, hid, hlive, hget, life_alive hid hlive hget⟩)
  · cases hid : r.ids.lookup name with
    | none => exact Or.inl ⟨rfl, hlive, life_unborn hid⟩
    | some id =>
        right
        right
        exact ⟨id, rfl, hlive, (hr.past name id hid hlive).get?_eq_none, life_dropped hid hlive⟩

/-- The id of a dropped name resolves to nothing. -/
theorem Dated.get?_of_dropped (hr : r.Dated n) (h : r.life name = .dropped) :
    r.registry.get? (r.id name) = none := by
  rcases hr.life_cases name with ⟨-, -, hlife⟩ | ⟨id, p, -, -, -, hlife⟩
    | ⟨id, hid, -, hget, -⟩
  · rw [h] at hlife
    cases hlife
  · rw [h] at hlife
    cases hlife
  · rw [id_eq hid, hget]

/-- A name that is alive has an id, and the id resolves to its payload. -/
theorem Dated.of_alive (hr : r.Dated n) (h : r.life name = .alive p) :
    ∃ id, r.ids.lookup name = some id ∧ name ∈ r.live ∧ r.registry.get? id = some p := by
  rcases hr.life_cases name with ⟨-, -, hlife⟩ | ⟨id, q, hid, hlive, hget, hlife⟩
    | ⟨id, -, -, -, hlife⟩
  · rw [h] at hlife
    cases hlife
  · rw [h] at hlife
    cases hlife
    exact ⟨id, hid, hlive, hget⟩
  · rw [h] at hlife
    cases hlife

/-! ## Changes of a run -/

/-- Filtering one key out of a list of pairs leaves the lookups of the others. -/
theorem lookup_filter_ne (ids : List (String × PayloadId)) (hne : other ≠ name) :
    (ids.filter (·.1 != name)).lookup other = ids.lookup other := by
  induction ids with
  | nil => rfl
  | cons e rest ih =>
      obtain ⟨key, id⟩ := e
      by_cases hkey : key = name
      · subst hkey
        simp [List.lookup_cons, beq_false_of_ne hne, ih]
      · simp [hkey, List.lookup_cons, ih]

/-- Adopting an id for a name changes the lookup of that name alone. -/
theorem lookup_adopt (r : PayloadRun) (name : String) (id : PayloadId) (other : String) :
    (r.adopt name id).ids.lookup other
      = if other = name then some id else r.ids.lookup other := by
  show ((name, id) :: r.ids.filter (·.1 != name)).lookup other = _
  by_cases heq : other = name
  · simp [heq]
  · simp [List.lookup_cons, heq, beq_false_of_ne heq, lookup_filter_ne r.ids heq]

theorem drop_live (hlive : name ∈ r.live) (hid : r.ids.lookup name = some id) :
    r.drop name
      = (true, { r with registry := (r.registry.remove id).2, live := r.live.erase name }) := by
  rw [PayloadRun.drop, if_pos (List.contains_iff_mem.mpr hlive), id_eq hid]

theorem drop_not_live (hlive : name ∉ r.live) : r.drop name = (false, r) :=
  if_neg fun hmem => hlive (List.contains_iff_mem.mp hmem)

/-- Two names do not share an id. -/
theorem Dated.id_ne (hr : r.Dated n) (hne : other ≠ name) (hid : r.ids.lookup name = some id)
    {id' : PayloadId} (hid' : r.ids.lookup other = some id') : id' ≠ id := by
  rintro rfl
  exact hne (hr.apart other name id' hid' hid)

/-! ### Putting a payload back -/

/-- Replacing the payload of a live name keeps the run dated. -/
theorem Dated.put (hr : r.Dated n) (hid : r.ids.lookup name = some id)
    (hget : r.registry.get? id = some p) (q : Payload) : (r.put name q).Dated n where
  sound := hr.sound.modify _ _
  young := hr.young.modify _ _
  nodup := hr.nodup
  alive := by
    intro other hlive
    obtain ⟨id', p', hid', hget'⟩ := hr.alive other hlive
    -- only the entry behind the name's own id is written
    by_cases heq : id' = id
    · subst heq
      refine ⟨id', q, hid', ?_⟩
      show (r.registry.modify (r.id name) _).get? id' = some q
      rw [id_eq hid]
      exact Registry.get?_modify_self hget _
    · refine ⟨id', p', hid', ?_⟩
      show (r.registry.modify (r.id name) _).get? id' = some p'
      rw [id_eq hid]
      exact Registry.get?_modify_other heq hget' _
  past := fun other id' hid' hlive => (hr.past other id' hid' hlive).modify _ _
  apart := hr.apart

/-- A name whose payload is replaced is alive with the new one. -/
theorem life_put (hid : r.ids.lookup name = some id) (hlive : name ∈ r.live)
    (hget : r.registry.get? id = some p) (q : Payload) : (r.put name q).life name = .alive q := by
  refine life_alive (r := r.put name q) hid hlive ?_
  show (r.registry.modify (r.id name) _).get? id = some q
  rw [id_eq hid]
  exact Registry.get?_modify_self hget _

/-- Replacing the payload of a name touches no other life. -/
theorem Dated.life_put_other (hr : r.Dated n) (hne : other ≠ name)
    (hid : r.ids.lookup name = some id) (q : Payload) :
    (r.put name q).life other = r.life other := by
  refine life_congr (o := r.put name q) rfl Iff.rfl ?_
  intro id' hid' hlive
  obtain ⟨id'', p', hid'', hget'⟩ := hr.alive other hlive
  obtain rfl : id'' = id' := Option.some.inj (hid''.symm.trans hid')
  show (r.registry.modify (r.id name) _).get? id'' = _
  rw [id_eq hid, Registry.get?_modify_other (hr.id_ne hne hid hid') hget' _, hget']

/-! ### Dropping a payload -/

theorem drop_fst (r : PayloadRun) (name : String) : (r.drop name).1 = r.live.contains name := by
  by_cases hlive : name ∈ r.live
  · rw [PayloadRun.drop, if_pos (List.contains_iff_mem.mpr hlive), List.contains_iff_mem.mpr hlive]
  · rw [drop_not_live hlive, List.contains_eq_mem, decide_eq_false hlive]

theorem drop_ids (r : PayloadRun) (name : String) : (r.drop name).2.ids = r.ids := by
  rw [PayloadRun.drop]
  split
  · rfl
  · rfl

/-- After a drop the name is not registered. -/
theorem Dated.not_mem_drop (hr : r.Dated n) (name : String) : name ∉ (r.drop name).2.live := by
  by_cases hlive : name ∈ r.live
  · obtain ⟨id, p, hid, -⟩ := hr.alive name hlive
    rw [drop_live hlive hid]
    exact hr.nodup.not_mem_erase
  · rw [drop_not_live hlive]
    exact hlive

/-- Dropping a live name keeps the run dated, one removal later. -/
theorem Dated.drop_live (hr : r.Dated n) (hn : n + 1 < UInt32.size) (hlive : name ∈ r.live)
    (hid : r.ids.lookup name = some id) (hget : r.registry.get? id = some p) :
    Dated { r with registry := (r.registry.remove id).2, live := r.live.erase name } (n + 1) where
  sound := hr.sound.remove id
  young := hr.young.remove id
  nodup := hr.nodup.erase name
  alive := by
    intro other hmem
    obtain ⟨hne, hmem⟩ := hr.nodup.mem_erase_iff.mp hmem
    obtain ⟨id', q, hid', hget'⟩ := hr.alive other hmem
    exact ⟨id', q, hid', Registry.get?_remove_other (hr.id_ne hne hid hid') hget'⟩
  past := by
    intro other id' hid' hmem
    -- the removed id is outgrown from now on; ids outgrown before stay so
    by_cases heq : other = name
    · subst heq
      obtain rfl : id' = id := Option.some.inj (hid'.symm.trans hid)
      exact Registry.Past.of_remove hr.young hn hget
    · have hmem : other ∉ r.live := fun h => hmem (hr.nodup.mem_erase_iff.mpr ⟨heq, h⟩)
      exact (hr.past other id' hid' hmem).remove hr.young hn id
  apart := hr.apart

/-! ### Taking a new payload in -/

/-- An insert keeps the run dated before the new id is handed out. -/
theorem Dated.insert (hr : r.Dated n) {registry : Registry Payload}
    (hins : r.registry.insert p = .ok (id, registry)) :
    ({ r with registry } : PayloadRun).Dated n where
  sound := hr.sound.insert hins
  young := hr.young.insert hr.sound hins
  nodup := hr.nodup
  alive := by
    intro name hlive
    obtain ⟨id', q, hid, hget⟩ := hr.alive name hlive
    exact ⟨id', q, hid, Registry.get?_insert_other hr.sound hget hins⟩
  past := fun name id' hid hlive => (hr.past name id' hid hlive).insert hr.sound hins
  apart := hr.apart

/-- The id of a new payload is that of no name. -/
theorem Dated.fresh (hr : r.Dated n) {registry : Registry Payload}
    (hins : r.registry.insert p = .ok (id, registry)) (name : String) :
    r.ids.lookup name ≠ some id := by
  intro hid
  by_cases hlive : name ∈ r.live
  · obtain ⟨id', q, hid', hget⟩ := hr.alive name hlive
    obtain rfl : id' = id := Option.some.inj (hid'.symm.trans hid)
    rw [Registry.get?_fresh hr.sound hins] at hget
    cases hget
  · exact (hr.past name id hid hlive).ne_of_insert hr.sound hins rfl

/-- An insert changes no life before its id is handed out. -/
theorem Dated.life_insert (hr : r.Dated n) {registry : Registry Payload}
    (hins : r.registry.insert p = .ok (id, registry)) (name : String) :
    ({ r with registry } : PayloadRun).life name = r.life name := by
  refine life_congr (o := { r with registry }) rfl Iff.rfl ?_
  intro id' hid hlive
  obtain ⟨id'', q, hid', hget⟩ := hr.alive name hlive
  obtain rfl : id'' = id' := Option.some.inj (hid'.symm.trans hid)
  rw [hget]
  exact Registry.get?_insert_other hr.sound hget hins

/-- A drop spares a payload whose id is that of no name. -/
theorem drop_get? (hfresh : ∀ other, r.ids.lookup other ≠ some id)
    (hget : r.registry.get? id = some p) (hr : r.Dated n) (name : String) :
    (r.drop name).2.registry.get? id = some p := by
  by_cases hlive : name ∈ r.live
  · obtain ⟨id', q, hid, -⟩ := hr.alive name hlive
    rw [drop_live hlive hid]
    refine Registry.get?_remove_other ?_ hget
    rintro rfl
    exact hfresh name hid
  · rw [drop_not_live hlive]
    exact hget

/-- Adopting a new id for an unregistered name keeps the run dated. -/
theorem Dated.adopt (hr : r.Dated n) (hlive : name ∉ r.live)
    (hfresh : ∀ other, r.ids.lookup other ≠ some id) (hget : r.registry.get? id = some p) :
    (r.adopt name id).Dated n where
  sound := hr.sound
  young := hr.young
  nodup := List.nodup_cons.mpr ⟨hlive, hr.nodup⟩
  alive := by
    intro other hmem
    by_cases heq : other = name
    · exact ⟨id, p, by rw [lookup_adopt, if_pos heq], hget⟩
    · obtain ⟨id', q, hid', hget'⟩ := hr.alive other ((List.mem_cons.mp hmem).resolve_left heq)
      exact ⟨id', q, by rw [lookup_adopt, if_neg heq, hid'], hget'⟩
  past := by
    intro other id' hid' hmem
    have heq : other ≠ name := fun h => hmem (h ▸ List.mem_cons_self)
    rw [lookup_adopt, if_neg heq] at hid'
    exact hr.past other id' hid' fun h => hmem (List.mem_cons_of_mem _ h)
  apart := by
    intro one two id' hone htwo
    rw [lookup_adopt] at hone htwo
    -- no other name has the fresh id, so two names with one id are one name
    by_cases h1 : one = name
    · by_cases h2 : two = name
      · exact h1.trans h2.symm
      · rw [if_neg h2] at htwo
        rw [if_pos h1] at hone
        exact absurd (htwo.trans hone.symm) (hfresh two)
    · by_cases h2 : two = name
      · rw [if_neg h1] at hone
        rw [if_pos h2] at htwo
        exact absurd (hone.trans htwo.symm) (hfresh one)
      · rw [if_neg h1] at hone
        rw [if_neg h2] at htwo
        exact hr.apart one two id' hone htwo

/-! ## Steps as they are alone -/

end PayloadRun

namespace Life

def payload? : Life → Option Payload
  | alive p => some p
  | unborn | dropped => none

def ask {α : Type} : Life → (Payload → α × Payload) → Option α × Life
  | alive p, f => (some (f p).1, alive (f p).2)
  | unborn, _ => (none, unborn)
  | dropped, _ => (none, dropped)

def drop : Life → Bool × Life
  | alive _ => (true, dropped)
  | unborn => (false, unborn)
  | dropped => (false, dropped)

def fire : Life → Option SetKind → ThreadId → (call : Call) →
    Option (Fired call.site.Value × List Call) × Life
  | unborn, _, _, _ => (none, unborn)
  | dropped, _, _, _ => (some (.replied (.ofStatus .user), []), dropped)
  | alive p, kind, caller, call =>
    if kind.getD p.handlers.kind = p.handlers.kind then
      (some ((p.fire caller call).1, p.callsIn caller call), alive (p.fire caller call).2)
    else (some (.replied (.ofStatus .user), []), alive p)

/-- What a step of a name does if there are no other names. -/
def play (l : Life) : (s : PayloadStep) → s.Answer × Life
  | .new _ owner handlers => (.ok l.drop.1, alive (.new owner handlers))
  | .fire _ kind caller call => l.fire kind caller call
  | .hasError _ => (l.payload?.map (·.hasError), l)
  | .takeError _ => l.ask (·.takeError)
  | .check _ native => l.ask (·.check native)
  | .checkStatus _ s => l.ask (·.checkStatus s)
  | .drop _ => l.drop

end Life

namespace PayloadRun

variable {r : PayloadRun} {name : String} {id : PayloadId} {p : Payload} {n : Nat} {α : Type}

/-- What is done to the payload of a name has the result that it has alone, and
    leaves the lives of all other names as they are. -/
structure LikeAlone (r : PayloadRun) (n : Nat) (name : String) (done : α × PayloadRun)
    (alone : α × Life) : Prop where
  answer : done.1 = alone.1
  own : done.2.life name = alone.2
  others : ∀ other, other ≠ name → done.2.life other = r.life other
  dated : done.2.Dated n
  /-- There are as many new payloads as there are new live names. -/
  count : done.2.registry.size + r.live.length = r.registry.size + done.2.live.length

/-- A step that changes nothing and answers as the life does is played like alone. -/
theorem LikeAlone.stay (hr : r.Dated n) {l : Life} (hlife : r.life name = l) (a : α) :
    LikeAlone r n name (a, r) (a, l) where
  answer := rfl
  own := hlife
  others := fun _ _ => rfl
  dated := hr
  count := rfl

/-- A step that replaces the payload of a live name is played like alone. -/
theorem LikeAlone.put (hr : r.Dated n) (hid : r.ids.lookup name = some id)
    (hlive : name ∈ r.live) (hget : r.registry.get? id = some p) (a : α) (q : Payload) :
    LikeAlone r n name (a, r.put name q) (a, .alive q) where
  answer := rfl
  own := life_put hid hlive hget q
  others := fun _ hne => hr.life_put_other hne hid q
  dated := hr.put hid hget q
  count := by
    show (r.registry.modify (r.id name) _).size + _ = _
    rw [Registry.size_modify]
    rfl

/-- A question put to a name is answered like alone. -/
theorem Dated.ask (hr : r.Dated n) (name : String) (f : Payload → α × Payload) :
    LikeAlone r n name (r.ask name f) ((r.life name).ask f) := by
  rcases hr.life_cases name with ⟨-, hlive, hlife⟩ | ⟨id, p, hid, hlive, hget, hlife⟩
    | ⟨id, -, hlive, -, hlife⟩
  · rw [ask_none (payload?_not_live hlive), hlife]
    exact .stay hr hlife none
  · rw [ask_alive ((payload?_live hlive hid).trans hget), hlife]
    exact .put hr hid hlive hget _ _
  · rw [ask_none (payload?_not_live hlive), hlife]
    exact .stay hr hlife none

/-- Asking for a parked error is answered like alone. -/
theorem Dated.hasError (hr : r.Dated n) (name : String) :
    LikeAlone r n name ((r.payload? name).map (·.hasError), r)
      ((r.life name).payload?.map (·.hasError), r.life name) := by
  rcases hr.life_cases name with ⟨-, hlive, hlife⟩ | ⟨id, p, hid, hlive, hget, hlife⟩
    | ⟨id, -, hlive, -, hlife⟩
  · rw [payload?_not_live hlive, hlife]
    exact .stay hr hlife none
  · rw [payload?_live hlive hid, hget, hlife]
    exact .stay hr hlife (some p.hasError)
  · rw [payload?_not_live hlive, hlife]
    exact .stay hr hlife none

/-- A callback with the id of a name. -/
theorem play_fire (hid : r.ids.lookup name = some id) (kind : Option SetKind) (caller : ThreadId)
    (call : Call) :
    r.play (.fire name kind caller call)
      = (some ((r.fire name kind caller call).1, (r.fire name kind caller call).2.1),
        (r.fire name kind caller call).2.2) := by
  rw [play, hid]
  rfl

/-- A callback is answered like alone. -/
theorem Dated.fire (hr : r.Dated n) (name : String) (kind : Option SetKind) (caller : ThreadId)
    (call : Call) :
    LikeAlone r n name (r.play (.fire name kind caller call))
      ((r.life name).fire kind caller call) := by
  rcases hr.life_cases name with ⟨hid, -, hlife⟩ | ⟨id, p, hid, hlive, hget, hlife⟩
    | ⟨id, hid, -, hget, hlife⟩
  · rw [play, hid, hlife]
    exact .stay hr hlife none
  · have hown : r.registry.get? (r.id name) = some p := by rw [id_eq hid, hget]
    rw [play_fire hid, hlife, Life.fire]
    -- the name is alive: the kind of its set decides whether the payload is reached
    by_cases hkind : kind.getD p.handlers.kind = p.handlers.kind
    · rw [fire_alive hown hkind, if_pos hkind]
      exact .put hr hid hlive hget _ _
    · rw [fire_mistaken hown hkind, if_neg hkind]
      exact .stay hr hlife _
  · have hown : r.registry.get? (r.id name) = none := by rw [id_eq hid, hget]
    rw [play_fire hid, hlife, fire_dead hown]
    exact .stay hr hlife _

/-- Dropping a live name is played like alone. -/
theorem LikeAlone.drop (hr : r.Dated n) (hn : n + 1 < UInt32.size)
    (hid : r.ids.lookup name = some id) (hlive : name ∈ r.live)
    (hget : r.registry.get? id = some p) :
    LikeAlone r (n + 1) name (r.drop name) (true, .dropped) := by
  rw [drop_live hlive hid]
  exact {
    answer := rfl
    own := life_dropped (r := ⟨_, _, _⟩) hid hr.nodup.not_mem_erase
    others := by
      intro other hne
      refine life_congr (o := ⟨_, _, _⟩) rfl (List.mem_erase_of_ne hne) ?_
      intro id' hid' hmem
      show (r.registry.remove id).2.get? id' = _
      rw [Registry.get?_remove, if_neg (hr.id_ne hne hid hid')]
    dated := hr.drop_live hn hlive hid hget
    count := by
      have hsize := Registry.size_remove hget
      have hlength := List.length_erase_of_mem hlive
      have hpos := List.length_pos_of_mem hlive
      show (r.registry.remove id).2.size + r.live.length
        = r.registry.size + (r.live.erase name).length
      omega }

/-- The number of payloads that a drop of a name drops. -/
def droppable (r : PayloadRun) (name : String) : Nat := if r.live.contains name then 1 else 0

/-- A registered name counts one removal. -/
theorem droppable_live (hlive : name ∈ r.live) : r.droppable name = 1 :=
  if_pos (List.contains_iff_mem.mpr hlive)

theorem droppable_not_live (hlive : name ∉ r.live) : r.droppable name = 0 :=
  if_neg fun hmem => hlive (List.contains_iff_mem.mp hmem)

/-- A drop is played like alone, also of a name that was never registered. -/
theorem Dated.drop (hr : r.Dated n) (name : String)
    (hn : n + r.droppable name < UInt32.size) :
    LikeAlone r (n + r.droppable name) name (r.drop name) (r.life name).drop := by
  rcases hr.life_cases name with ⟨-, hlive, hlife⟩ | ⟨id, p, hid, hlive, hget, hlife⟩
    | ⟨id, -, hlive, -, hlife⟩
  · rw [drop_not_live hlive, droppable_not_live hlive, hlife]
    exact .stay hr hlife _
  · rw [droppable_live hlive] at hn ⊢
    rw [hlife]
    exact .drop hr hn hid hlive hget
  · rw [drop_not_live hlive, droppable_not_live hlive, hlife]
    exact .stay hr hlife _

/-- A registration that succeeds is played like alone: it drops the life before it. -/
theorem Dated.new (hr : r.Dated n) (hn : n + r.droppable name < UInt32.size) {owner : ThreadId}
    {handlers : HandlerSet} {registry : Registry Payload}
    (hins : r.registry.insert (.new owner handlers) = .ok (id, registry)) :
    LikeAlone r (n + r.droppable name) name (r.play (.new name owner handlers))
      ((r.life name).play (.new name owner handlers)) := by
  -- the new payload is there before the earlier one of the name goes
  have hmid : ({ r with registry } : PayloadRun).Dated n := hr.insert hins
  have hlife : ∀ other, ({ r with registry } : PayloadRun).life other = r.life other :=
    hr.life_insert hins
  have hdrop := hmid.drop name hn
  have hfresh := hr.fresh hins
  have hget := drop_get? (r := { r with registry }) hfresh
    (Registry.get?_insert_self hr.sound hins) hmid name
  rw [play_new_ok hins]
  have hids := drop_ids { r with registry } name
  exact {
    answer := by
      show Except.ok _ = Except.ok (r.life name).drop.1
      rw [← hlife, ← hdrop.answer, drop_fst]
    own := by
      refine life_alive ?_ List.mem_cons_self hget
      rw [lookup_adopt, if_pos rfl]
    others := by
      intro other hne
      rw [← hlife, ← hdrop.others other hne]
      refine life_congr ?_ ?_ fun _ _ _ => rfl
      · rw [lookup_adopt, if_neg hne]
      · exact List.mem_cons.trans (or_iff_right hne)
    dated := by
      refine hdrop.dated.adopt (hmid.not_mem_drop name) ?_ hget
      intro other
      rw [hids]
      exact hfresh other
    count := by
      have hcount := hdrop.count
      have hsize := Registry.size_insert hr.sound hins
      show (({ r with registry } : PayloadRun).drop name).2.registry.size + r.live.length
        = r.registry.size + ((({ r with registry } : PayloadRun).drop name).2.live.length + 1)
      have hcount : (({ r with registry } : PayloadRun).drop name).2.registry.size + r.live.length
        = registry.size + (({ r with registry } : PayloadRun).drop name).2.live.length := hcount
      omega }

end PayloadRun

end Gitwork
