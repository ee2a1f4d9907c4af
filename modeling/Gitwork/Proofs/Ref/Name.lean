import Mathlib.Data.List.TakeWhile
import Gitwork.Proofs.Text.Blank
import Gitwork.Ref.Store

/-! # Well-formed names

    No character of a well-formed name is a blank, so the disk keeps such a
    name as it is (`RefValue.kept_of_valid`).  What can be looked up has a
    well-formed name. -/

namespace Gitwork

namespace RefName

/-- What is not a separator is in one of the pieces. -/
theorem mem_splitOn {x c : Char} {cs : List Char} (hc : c ∈ cs) :
    c = x ∨ ∃ piece ∈ cs.splitOn x, c ∈ piece := by
  induction cs with
  | nil => exact nomatch hc
  | cons y rest ih =>
      rw [List.splitOn_cons_eq_if_modifyHead]
      -- the character is the separator, or it goes on the first piece
      by_cases hy : (y == x) = true
      · rw [if_pos hy]
        rcases List.mem_cons.mp hc with rfl | hrest
        · exact Or.inl (beq_iff_eq.mp hy)
        · rcases ih hrest with heq | ⟨piece, hpiece, hmem⟩
          · exact Or.inl heq
          · exact Or.inr ⟨piece, List.mem_cons_of_mem _ hpiece, hmem⟩
      · rw [if_neg hy]
        obtain ⟨first, more, hsplit⟩ := List.exists_cons_of_ne_nil (List.splitOn_ne_nil x rest)
        rw [hsplit] at ih ⊢
        rcases List.mem_cons.mp hc with rfl | hrest
        · exact Or.inr ⟨_, List.mem_cons_self, List.mem_cons_self⟩
        · rcases ih hrest with heq | ⟨piece, hpiece, hmem⟩
          · exact Or.inl heq
          · rcases List.mem_cons.mp hpiece with rfl | hmore
            · exact Or.inr ⟨_, List.mem_cons_self, List.mem_cons_of_mem _ hmem⟩
            · exact Or.inr ⟨piece, List.mem_cons_of_mem _ hmore, hmem⟩

variable {name : String} {s : List Char} {c : Char}

/-- Blanks and other control characters come before the characters that can be
    seen. -/
theorem visible_of_segment (hs : isSegment s = true) (hc : c ∈ s) : 32 < c.toNat := by
  simp only [isSegment, Bool.and_eq_true, Bool.not_eq_true', List.any_eq_false] at hs
  obtain ⟨⟨⟨-, hforbidden⟩, -⟩, -⟩ := hs
  have hc := hforbidden c hc
  simp only [isForbidden, Bool.or_eq_true, decide_eq_true_eq, not_or] at hc
  exact Nat.lt_of_not_le hc.1.1

/-- The characters of a first segment are visible. -/
theorem visible_of_firstSegment (hs : isFirstSegment s = true) (hc : c ∈ s) : 32 < c.toNat := by
  rw [isFirstSegment, Bool.or_eq_true, beq_iff_eq] at hs
  rcases hs with hs | rfl
  · cases s with
    | nil => exact nomatch hc
    | cons d rest =>
        -- a caret in front is no part of the segment, but visible itself
        by_cases hcaret : d = '^'
        · subst hcaret
          rcases List.mem_cons.mp hc with rfl | hrest
          · decide
          · exact visible_of_segment hs hrest
        · have hsame : dropCaret (d :: rest) = d :: rest := by
            rw [dropCaret]
            intro tail heq
            exact hcaret (List.cons.inj heq).1
          rw [hsame] at hs
          exact visible_of_segment hs hc
  · rw [List.mem_singleton.mp hc]
    decide

/-- All characters of a well-formed name can be seen. -/
theorem visible_of_valid (h : isValid name = true) (hc : c ∈ name.toList) : 32 < c.toNat := by
  rcases mem_splitOn (x := '/') hc with rfl | ⟨piece, hpiece, hmem⟩
  · decide
  · rw [isValid] at h
    have hpiece : piece ∈ segments name := hpiece
    cases hsegments : segments name with
    | nil =>
        rw [hsegments] at hpiece
        exact nomatch hpiece
    | cons first rest =>
        rw [hsegments] at h hpiece
        cases rest with
        | nil =>
            simp only [Bool.and_eq_true] at h
            rw [List.mem_singleton.mp hpiece] at hmem
            exact visible_of_firstSegment h.1.1 hmem
        | cons second more =>
            simp only [Bool.and_eq_true] at h
            rcases List.mem_cons.mp hpiece with rfl | hrest
            · exact visible_of_firstSegment h.1.1.1 hmem
            · exact visible_of_segment (List.all_eq_true.mp h.1.1.2 piece hrest) hmem

end RefName

/-- The disk keeps a name that does not end in one of its blanks. -/
theorem RefValue.kept_of_last {name : String}
    (h : ∀ c ∈ name.toList.getLast?, c ≠ ' ' ∧ ¬ ('\t' ≤ c ∧ c ≤ '\r')) :
    (RefValue.symbolic name).kept = .symbolic name := by
  rw [RefValue.kept]
  show RefValue.symbolic (String.ofList (name.toList.reverse.dropWhile _).reverse) = _
  rw [Text.dropWhile_of_head, List.reverse_reverse, String.ofList_toList]
  intro c hc
  rw [List.head?_reverse] at hc
  obtain ⟨hspace, hother⟩ := h c hc
  rw [Bool.eq_false_iff, ne_eq, Bool.or_eq_true, Bool.and_eq_true, decide_eq_true_iff,
    decide_eq_true_iff, decide_eq_true_iff]
  exact not_or.mpr ⟨hspace, hother⟩

/-- The disk keeps a well-formed name as it is. -/
theorem RefValue.kept_of_valid {name : String} (h : RefName.isValid name = true) :
    (RefValue.symbolic name).kept = .symbolic name := by
  refine kept_of_last fun c hc => ?_
  have hvisible := RefName.visible_of_valid h (List.mem_of_getLast? hc)
  constructor
  · rintro rfl
    exact absurd hvisible (by decide)
  · rintro ⟨-, hle⟩
    have hle : c.toNat ≤ 13 := hle
    omega

/-- A look-up finds an entry or nothing only if the name is well formed. -/
theorem RefStore.valid_of_find? {s : RefStore} {name : String} {v : Option RefValue}
    (h : s.find? name = .ok v) : RefName.isValid name = true := by
  by_cases hvalid : RefName.isValid name = true
  · exact hvalid
  · rw [RefStore.find?, RefStore.find, if_neg hvalid] at h
    cases h

/-- The disk keeps the name of a target that passes the check. -/
theorem RefStore.kept_of_checkTarget {s : RefStore} {name : String}
    (h : s.checkTarget (.symbolic name) = .ok ()) :
    (RefValue.symbolic name).kept = .symbolic name := by
  cases hfind : s.find? name with
  | error e =>
      rw [checkTarget, hfind] at h
      exact nomatch h
  | ok v => exact RefValue.kept_of_valid (valid_of_find? hfind)

end Gitwork
