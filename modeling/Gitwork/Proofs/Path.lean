import Mathlib.Order.Compare
import Gitwork.Path

/-! # The order of paths

    Steps are compared by their rank and names by their text, paths by their
    lists of steps.  Both are orders in the sense of the library: `compare`
    is oriented and transitive, and it calls two paths equal exactly if they
    are spellings of one path. -/

namespace Gitwork

namespace PathStep

/-- The text of a name. -/
def text : PathStep → String
  | name t => t
  | _ => ""

/-- First the ranks, then the texts. -/
theorem compare_eq_compareLex : compare = compareLex (compareOn rank) (compareOn text) := by
  funext a b
  cases a with
  | name s =>
      cases b with
      | name t => rfl
      | _ => rfl
  | _ =>
      cases b with
      | _ => rfl

instance : Std.TransCmp compare := by
  rw [compare_eq_compareLex]
  infer_instance

instance : Std.LawfulEqCmp compare where
  eq_of_compare {a b} h := by
    rw [compare_eq_compareLex, compareLex_eq_eq] at h
    obtain ⟨hrank, htext⟩ := h
    have hrank : a.rank = b.rank := Std.LawfulEqOrd.eq_of_compare hrank
    have htext : a.text = b.text := Std.LawfulEqOrd.eq_of_compare htext
    cases a with
    | name s =>
        cases b with
        | name t => exact congrArg name htext
        | _ => exact nomatch hrank
    | _ =>
        cases b with
        | _ => first | rfl | exact nomatch hrank

end PathStep

namespace Path

/-- Lists of steps are compared from their first steps on. -/
theorem compareSteps_eq_compareLex : compareSteps = List.compareLex PathStep.compare := by
  funext as bs
  induction as generalizing bs with
  | nil =>
      cases bs with
      | nil => rfl
      | cons b bs => rfl
  | cons a as ih =>
      cases bs with
      | nil => rfl
      | cons b bs =>
          rw [compareSteps, List.compareLex_cons_cons, ih]

instance : Std.TransCmp compareSteps := by
  rw [compareSteps_eq_compareLex]
  infer_instance

instance : Std.LawfulEqCmp compareSteps := by
  rw [compareSteps_eq_compareLex]
  infer_instance

instance : Std.TransCmp compare where
  eq_swap {p q} := (Std.OrientedCmp.eq_swap : compareSteps (steps p) (steps q) = _)
  isLE_trans {p q _} := (Std.TransCmp.isLE_trans : (compareSteps (steps p) (steps q)).isLE → _)

variable {p q : String}

theorem same_iff : same p q = true ↔ steps p = steps q := beq_iff_eq

theorem same_refl (p : String) : same p p = true := same_iff.mpr rfl

theorem same_comm (p q : String) : same p q = same q p := by
  rw [Bool.eq_iff_iff, same_iff, same_iff]
  exact eq_comm

/-- Two spellings of a path are spellings of the same paths. -/
theorem same_congr (h : same p q = true) : same p = same q := by
  funext s
  rw [same, same, same_iff.mp h]

/-- Spellings of one path are neither before nor after each other. -/
theorem compare_eq_iff : compare p q = .eq ↔ same p q = true := by
  rw [same_iff]
  exact (Std.LawfulEqCmp.compare_eq_iff_eq : compareSteps (steps p) (steps q) = .eq ↔ _)

end Path

end Gitwork
