import Gitwork.Table

/-! # Tables in order

    `Table.insert` puts a new name at its place, so a table that is made with
    it has each name once, in ascending order (`Table.Ordered`).  In such a
    table an entry and what a look-up finds are the same thing, and a change
    of one name is a change of one entry: up to the order, `insert` replaces
    the entry of the name by the new one (`Ordered.insert_perm`). -/

namespace Gitwork.Table

variable {α : Type} {t : Table α} {key : String} {v : α}

/-- Each name once, in ascending order. -/
def Ordered (t : Table α) : Prop := t.Pairwise (·.1 < ·.1)

theorem Ordered.nil : Ordered ([] : Table α) := List.Pairwise.nil

/-- What is in a table after an insert was put there or was in it before. -/
theorem mem_insert {e : String × α} (h : e ∈ Table.insert t key v) : e = (key, v) ∨ e ∈ t := by
  induction t with
  | nil => exact Or.inl (List.mem_singleton.mp h)
  | cons head rest ih =>
      obtain ⟨k, w⟩ := head
      simp only [Table.insert] at h
      split at h
      · rcases List.mem_cons.mp h with h | h
        · exact Or.inl h
        · exact Or.inr (List.mem_cons_of_mem _ h)
      · split at h
        · exact List.mem_cons.mp h
        · rcases List.mem_cons.mp h with h | h
          · exact Or.inr (h ▸ List.mem_cons_self)
          · exact (ih h).imp id (List.mem_cons_of_mem _)

/-- An insert keeps a table ordered. -/
theorem Ordered.insert (ht : t.Ordered) (key : String) (v : α) :
    Ordered (Table.insert t key v) := by
  induction t with
  | nil => exact List.pairwise_singleton _ _
  | cons head rest ih =>
      obtain ⟨k, w⟩ := head
      obtain ⟨hhead, hrest⟩ := List.pairwise_cons.mp ht
      simp only [Table.insert]
      split
      · next heq =>
          subst heq
          exact List.pairwise_cons.mpr ⟨hhead, hrest⟩
      · next hne =>
          split
          · next hlt =>
              refine List.pairwise_cons.mpr ⟨?_, ht⟩
              intro e he
              rcases List.mem_cons.mp he with rfl | he
              · exact hlt
              · exact String.lt_trans hlt (hhead e he)
          · next hge =>
              refine List.pairwise_cons.mpr ⟨?_, ih hrest⟩
              intro e he
              rcases mem_insert he with rfl | he
              · -- neither equal nor below, hence above
                rcases Std.le_total (a := key) (b := k) with hle | hle
                · exact absurd (Std.lt_of_le_of_ne hle hne) hge
                · exact Std.lt_of_le_of_ne hle (Ne.symm hne)
              · exact hhead e he

theorem Ordered.erase (ht : t.Ordered) (key : String) : Ordered (t.erase key) :=
  List.Pairwise.sublist List.filter_sublist ht

theorem Ordered.tail {e : String × α} (ht : Ordered (e :: t)) : Ordered t :=
  (List.pairwise_cons.mp ht).2

/-- The first name of a table does not come again. -/
theorem Ordered.head_not_mem {e : String × α} (ht : Ordered (e :: t)) :
    ∀ e' ∈ t, e'.1 ≠ e.1 := by
  intro e' he' heq
  have hlt := (List.pairwise_cons.mp ht).1 e' he'
  rw [heq] at hlt
  exact String.lt_irrefl _ hlt

/-- An entry is what a look-up of its name finds. -/
theorem Ordered.mem_iff (ht : t.Ordered) : (key, v) ∈ t ↔ t.get? key = some v := by
  induction t with
  | nil => simp
  | cons head rest ih =>
      obtain ⟨k, w⟩ := head
      rw [get?_cons, List.mem_cons]
      -- the first entry of an ordered table is the only one with its key
      by_cases hk : key = k
      · subst hk
        rw [if_pos rfl]
        constructor
        · rintro (heq | hmem)
          · rw [(Prod.mk.inj heq).2]
          · exact absurd rfl (ht.head_not_mem (key, v) hmem)
        · intro heq
          rw [Option.some.inj heq]
          exact Or.inl rfl
      · rw [if_neg hk, ← ih ht.tail]
        constructor
        · rintro (heq | hmem)
          · exact absurd (Prod.mk.inj heq).1 hk
          · exact hmem
        · exact Or.inr

/-- Without the name there is nothing to erase. -/
theorem erase_of_get?_eq_none (h : t.get? key = none) : t.erase key = t := by
  apply List.filter_eq_self.mpr
  intro e he
  rw [bne_iff_ne]
  intro heq
  rw [show t.get? key = t.lookup key from rfl, List.lookup_eq_none_iff] at h
  have := h e he
  simp [heq] at this

/-- Erasing looks at the first entry, then at the rest. -/
theorem erase_cons (k : String) (w : α) (t : Table α) (key : String) :
    Table.erase ((k, w) :: t) key
      = if k = key then t.erase key else (k, w) :: t.erase key := by
  by_cases hk : k = key
  · subst hk
    rw [if_pos rfl]
    simp [Table.erase]
  · rw [if_neg hk]
    simp [Table.erase, hk]

/-- An insert is undone by erasing its key. -/
theorem erase_insert (t : Table α) (key : String) (v : α) :
    Table.erase (Table.insert t key v) key = t.erase key := by
  induction t with
  | nil => rw [Table.insert, erase_cons, if_pos rfl]
  | cons head rest ih =>
      obtain ⟨k, w⟩ := head
      simp only [Table.insert]
      split
      · next heq =>
          subst heq
          rw [erase_cons, erase_cons, if_pos rfl, if_pos rfl]
      · next hne =>
          split
          · rw [erase_cons, if_pos rfl]
          · rw [erase_cons, erase_cons, if_neg (Ne.symm hne), if_neg (Ne.symm hne), ih]

/-- An entry and the rest of its table. -/
theorem Ordered.perm_erase (ht : t.Ordered) (h : t.get? key = some v) :
    t.Perm ((key, v) :: t.erase key) := by
  induction t with
  | nil => exact nomatch h
  | cons head rest ih =>
      obtain ⟨k, w⟩ := head
      rw [get?_cons] at h
      rw [erase_cons]
      by_cases hk : key = k
      · subst hk
        rw [if_pos rfl] at h
        have hrest : Table.get? rest key = none := by
          cases hget : Table.get? rest key with
          | none => rfl
          | some u => exact absurd rfl (ht.head_not_mem (key, u) (ht.tail.mem_iff.mpr hget))
        rw [Option.some.inj h, if_pos rfl, erase_of_get?_eq_none hrest]
      · rw [if_neg hk] at h
        rw [if_neg (Ne.symm hk)]
        exact ((ih ht.tail h).cons (k, w)).trans (List.Perm.swap _ _ _)

/-- Up to the order, an insert replaces the entry of its name. -/
theorem Ordered.insert_perm (ht : t.Ordered) (key : String) (v : α) :
    (Table.insert t key v).Perm ((key, v) :: t.erase key) := by
  have hget : (Table.insert t key v).get? key = some v := by rw [get?_insert, if_pos rfl]
  rw [← erase_insert t key v]
  exact (ht.insert key v).perm_erase hget

theorem Ordered.nodup (ht : t.Ordered) : List.Nodup t := by
  refine ht.imp ?_
  rintro e _ hlt rfl
  exact String.lt_irrefl _ hlt

/-- Two tables in order are the same if look-ups find the same in both. -/
theorem Ordered.ext {t' : Table α} (ht : t.Ordered) (ht' : t'.Ordered)
    (h : ∀ key, t.get? key = t'.get? key) : t = t' := by
  have hperm : t.Perm t' := by
    refine (List.perm_ext_iff_of_nodup ht.nodup ht'.nodup).mpr ?_
    rintro ⟨key, v⟩
    rw [ht.mem_iff, ht'.mem_iff, h]
  refine hperm.eq_of_pairwise ?_ ht ht'
  intro e e' _ _ hlt hgt
  exact absurd (String.lt_trans hlt hgt) (String.lt_irrefl _)

end Gitwork.Table
