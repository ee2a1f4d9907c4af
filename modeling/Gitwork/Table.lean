/-! # Tables

    Values by name, in the order of names.  `insert` keeps the order and
    replaces what a name had; the laws at the end say what a look-up finds
    after each change. -/

namespace Gitwork

/-- Values by name. -/
abbrev Table (α : Type) := List (String × α)

namespace Table

variable {α : Type}

def get? (t : Table α) (key : String) : Option α := t.lookup key

def has (t : Table α) (key : String) : Bool := (t.get? key).isSome

def keys (t : Table α) : List String := t.map (·.1)

/-- Sets the value of a name, at its place in the order. -/
def insert (t : Table α) (key : String) (value : α) : Table α :=
  match t with
  | [] => [(key, value)]
  | (k, v) :: rest =>
    if key = k then (key, value) :: rest
    else if key < k then (key, value) :: (k, v) :: rest
    else (k, v) :: Table.insert rest key value

def erase (t : Table α) (key : String) : Table α := t.filter (·.1 != key)

/-- Sets a value, or erases it. -/
def put (t : Table α) (key : String) (value : Option α) : Table α :=
  match value with
  | some v => Table.insert t key v
  | none => t.erase key

/-- A table of entries in any order, later ones counting. -/
def ofList (entries : List (String × α)) : Table α :=
  entries.foldl (fun t e => Table.insert t e.1 e.2) []

/-! ## Laws -/

@[simp] theorem get?_nil (key : String) : get? ([] : Table α) key = none := rfl

theorem get?_cons (k : String) (v : α) (t : Table α) (key : String) :
    get? ((k, v) :: t) key = if key = k then some v else t.get? key := by
  by_cases h : key = k
  · simp [get?, h]
  · have hb : (key == k) = false := by simp [h]
    simp [get?, List.lookup_cons, h, hb]

theorem get?_insert (t : Table α) (key other : String) (value : α) :
    get? (Table.insert t key value) other = if other = key then some value else t.get? other := by
  induction t with
  | nil => simp [Table.insert, get?_cons]
  | cons e rest ih =>
    obtain ⟨k, v⟩ := e
    simp only [Table.insert]
    by_cases hk : key = k
    · subst hk
      simp only [if_pos, get?_cons]
      split <;> rfl
    · by_cases hlt : key < k
      · simp [hk, hlt, get?_cons]
      · simp only [hk, hlt, if_false, get?_cons, ih]
        by_cases ho : other = k
        · subst ho
          have hne : other ≠ key := fun h => hk h.symm
          simp [hne]
        · simp [ho]

theorem get?_erase (t : Table α) (key other : String) :
    get? (t.erase key) other = if other = key then none else t.get? other := by
  induction t with
  | nil => simp [erase]
  | cons e rest ih =>
    obtain ⟨k, v⟩ := e
    unfold erase at ih ⊢
    by_cases hk : k = key
    · subst hk
      simp only [List.filter_cons, bne_self_eq_false, Bool.false_eq_true, if_false, ih, get?_cons]
      split <;> rfl
    · have hb : (k != key) = true := by simp [hk]
      simp only [List.filter_cons, hb, if_true, get?_cons, ih]
      by_cases ho : other = k
      · simp [ho, hk]
      · simp [ho]

end Table

end Gitwork
