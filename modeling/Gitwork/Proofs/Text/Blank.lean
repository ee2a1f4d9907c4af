import Mathlib.Data.List.Basic
import Mathlib.Data.List.TakeWhile
import Gitwork.Text.Blank

/-! # Texts without blanks at their ends

    Every text is its trimmed text with blanks around it
    (`Text.exists_around_trim`), and blanks around a trimmed text are all that
    trimming takes away (`Text.trim_around`).  So the two determine each other
    (`Text.trim_eq_iff`). -/

namespace Gitwork.Text

/-- There is no blank at either end. -/
structure Trimmed (cs : List Char) : Prop where
  head : ∀ c ∈ cs.head?, isBlank c = false
  last : ∀ c ∈ cs.getLast?, isBlank c = false

/-- Blanks only. -/
abbrev Blanks := { cs : List Char // ∀ c ∈ cs, isBlank c = true }

namespace Blanks

def none : Blanks := ⟨[], nofun⟩

/-- Characters that are tested one by one. -/
def ofAll (cs : List Char) (h : cs.all isBlank = true) : Blanks := ⟨cs, List.all_eq_true.mp h⟩

def append (a b : Blanks) : Blanks :=
  ⟨a.1 ++ b.1, fun c hc => (List.mem_append.mp hc).elim (a.2 c) (b.2 c)⟩

end Blanks

variable {cs : List Char}

theorem Trimmed.nil : Trimmed [] := ⟨nofun, nofun⟩

/-- The last character of a trimmed text ends whatever stands in front of it. -/
theorem Trimmed.append {front : List Char} (hfront : ∀ c ∈ front.head?, isBlank c = false)
    (hne : front ≠ []) (hcs : Trimmed cs) (hsome : cs ≠ []) : Trimmed (front ++ cs) where
  head := by
    intro c hc
    rw [List.head?_append_of_ne_nil _ hne] at hc
    exact hfront c hc
  last := by
    intro c hc
    rw [List.getLast?_append_of_ne_nil _ hsome] at hc
    exact hcs.last c hc

/-! ## One end -/

/-- Nothing is dropped in front of a character that stays. -/
theorem dropWhile_of_head {p : Char → Bool} (h : ∀ c ∈ cs.head?, p c = false) :
    cs.dropWhile p = cs := by
  cases cs with
  | nil => rfl
  | cons c rest =>
      have hc : ¬ p c = true := Bool.eq_false_iff.mp (h c rfl)
      rw [List.dropWhile_cons_of_neg hc]

/-- What is left starts without a blank. -/
theorem head_dropWhile (cs : List Char) :
    ∀ c ∈ (cs.dropWhile isBlank).head?, isBlank c = false := by
  intro c hc
  have hfirst := List.head?_dropWhile_not isBlank cs
  rw [Option.mem_def.mp hc] at hfirst
  exact hfirst

/-- Blanks behind a text that ends without one are trimmed off. -/
theorem trimEnd_append (h : ∀ c ∈ cs.getLast?, isBlank c = false) (b : Blanks) :
    trimEnd (cs ++ b.1) = cs := by
  have hblank : ∀ c ∈ b.1.reverse, isBlank c = true :=
    fun c hc => b.2 c (List.mem_reverse.mp hc)
  rw [trimEnd, List.reverse_append, List.dropWhile_append_of_pos hblank, dropWhile_of_head,
    List.reverse_reverse]
  rw [List.head?_reverse]
  exact h

/-- What is trimmed off the end are blanks. -/
theorem exists_trimEnd_append (cs : List Char) : ∃ b : Blanks, cs = trimEnd cs ++ b.1 := by
  refine ⟨⟨(cs.reverse.takeWhile isBlank).reverse, ?_⟩, ?_⟩
  · intro c hc
    exact List.mem_takeWhile_imp (List.mem_reverse.mp hc)
  · rw [trimEnd, ← List.reverse_append, List.takeWhile_append_dropWhile, List.reverse_reverse]

theorem last_trimEnd (cs : List Char) : ∀ c ∈ (trimEnd cs).getLast?, isBlank c = false := by
  rw [trimEnd, List.getLast?_reverse]
  exact head_dropWhile _

/-! ## Both ends -/

/-- Trimming leaves no blank at either end. -/
theorem trimmed_trim (cs : List Char) : Trimmed (trim cs) where
  head := by
    intro c hc
    refine head_dropWhile cs c ?_
    -- the first character of a part is that of the whole
    obtain ⟨b, hb⟩ := exists_trimEnd_append (cs.dropWhile isBlank)
    rw [hb]
    show c ∈ (trim cs ++ b.1).head?
    rw [List.head?_append_of_ne_nil]
    · exact hc
    · intro hnil
      rw [hnil] at hc
      cases hc
  last := last_trimEnd _

theorem Trimmed.of_trim (h : trim cs = cs) : Trimmed cs := h ▸ trimmed_trim cs

/-- A text is its trimmed text with blanks around it. -/
theorem exists_around_trim (cs : List Char) : ∃ a b : Blanks, cs = a.1 ++ trim cs ++ b.1 := by
  obtain ⟨b, hb⟩ := exists_trimEnd_append (cs.dropWhile isBlank)
  refine ⟨⟨cs.takeWhile isBlank, fun c hc => List.mem_takeWhile_imp hc⟩, b, ?_⟩
  rw [List.append_assoc, trim, ← hb, List.takeWhile_append_dropWhile]

/-- Trimming takes away the blanks around a trimmed text. -/
theorem trim_around (a : Blanks) (h : Trimmed cs) (b : Blanks) : trim (a.1 ++ cs ++ b.1) = cs := by
  rw [trim, List.append_assoc, List.dropWhile_append_of_pos a.2]
  by_cases hnil : cs = []
  · subst hnil
    have hall : b.1.dropWhile isBlank = [] := List.dropWhile_eq_nil_iff.mpr b.2
    rw [List.nil_append, hall]
    rfl
  · rw [dropWhile_of_head, trimEnd_append h.last]
    rw [List.head?_append_of_ne_nil _ hnil]
    exact h.head

/-- **The trimmed text of a text is the one that it is with blanks around it.** -/
theorem trim_eq_iff {core : List Char} :
    trim cs = core ↔ Trimmed core ∧ ∃ a b : Blanks, cs = a.1 ++ core ++ b.1 := by
  constructor
  · rintro rfl
    exact ⟨trimmed_trim cs, exists_around_trim cs⟩
  · rintro ⟨hcore, a, b, rfl⟩
    exact trim_around a hcore b

theorem mem_of_mem_trim {c : Char} (h : c ∈ trim cs) : c ∈ cs := by
  obtain ⟨a, b, hcs⟩ := exists_around_trim cs
  rw [hcs]
  exact List.mem_append_left _ (List.mem_append_right _ h)

/-- Nothing is left of blanks only. -/
theorem trim_eq_nil_iff : trim cs = [] ↔ ∀ c ∈ cs, isBlank c = true := by
  rw [trim_eq_iff]
  constructor
  · rintro ⟨-, a, b, rfl⟩ c hc
    rw [List.append_nil] at hc
    exact (a.append b).2 c hc
  · intro h
    refine ⟨.nil, ⟨cs, h⟩, .none, ?_⟩
    simp [Blanks.none]

end Gitwork.Text
