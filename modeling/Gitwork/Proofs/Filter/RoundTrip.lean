import Gitwork.Proofs.Filter.OnePass

/-! # There, back and there again

    The two directions are not inverse to each other: what goes out with CR LF comes
    back with LF, whichever of the two it had before.  Here it is said for which content
    they are.

    * Content is left alone towards the working tree if a CR stands before each LF
      (`outcome_toWorktree_eq_self_iff`), which is so of all that has gone there
      (`pairedAfter_outcome`).
    * It is left alone towards the database if it has no CR LF pair
      (`cleaned_eq_self_iff`).  Not all that comes from there is like that: of CR CR LF
      one CR is left (`pair_cleaned`).
    * On the way to the database and back, a CR is dropped and put in again before each
      LF, unless another CR stood before it (`outcome_toWorktree_toOdb`). -/

namespace Gitwork

namespace Eol

/-! ## Towards the working tree -/

theorem cr_ne_lf : cr ≠ lf := by decide

/-- After some byte, each LF of this content has a CR before it. -/
def PairedAfter (before : UInt8) (content : Bytes) : Prop :=
  ∀ i : Nat, content[i]? = some lf → (before :: content)[i]? = some cr

theorem pairedAfter_nil (before : UInt8) : PairedAfter before [] := nofun

/-- The first byte is paired with the one before, and the rest with it. -/
theorem pairedAfter_cons {before b : UInt8} {rest : Bytes} :
    PairedAfter before (b :: rest) ↔ (b = lf → before = cr) ∧ PairedAfter b rest := by
  constructor
  · intro h
    exact ⟨fun hb => Option.some.inj (h 0 (congrArg some hb)), fun i hi => h (i + 1) hi⟩
  · rintro ⟨hfirst, hrest⟩ i hi
    cases i with
    | zero => exact congrArg some (hfirst (Option.some.inj hi))
    | succ i => exact hrest i hi

/-- What goes to the working tree has a CR before each LF. -/
theorem pairedAfter_outcome (before : UInt8) (content : Bytes) :
    PairedAfter before (outcome .toWorktree (before = cr) content) := by
  induction content generalizing before with
  | nil => exact pairedAfter_nil before
  | cons b rest ih =>
      rw [outcome]
      by_cases h : b = lf ∧ decide (before = cr) = false
      · obtain ⟨rfl, hbefore⟩ := h
        rw [hbefore, step_toWorktree_lf]
        exact pairedAfter_cons.mpr ⟨fun h => absurd h cr_ne_lf,
          pairedAfter_cons.mpr ⟨fun _ => rfl, ih lf⟩⟩
      · rw [step_toWorktree_same h]
        refine pairedAfter_cons.mpr ⟨fun hb => ?_, ih b⟩
        simpa using fun hne => h ⟨hb, hne⟩

/-- And what has a CR before each LF is left alone. -/
theorem outcome_toWorktree_eq_self_iff (before : UInt8) (content : Bytes) :
    outcome .toWorktree (before = cr) content = content ↔ PairedAfter before content := by
  constructor
  · intro h
    exact h ▸ pairedAfter_outcome before content
  · intro h
    induction content generalizing before with
    | nil => rfl
    | cons b rest ih =>
        obtain ⟨hfirst, hrest⟩ := pairedAfter_cons.mp h
        have hpaired : ¬ (b = lf ∧ decide (before = cr) = false) := by
          rintro ⟨hb, hne⟩
          exact of_decide_eq_false hne (hfirst hb)
        rw [outcome, step_toWorktree_same hpaired]
        exact congrArg (b :: ·) (ih b hrest)

/-! ## Towards the database -/

/-- A pair at the front is two bytes. -/
theorem pair_prefix_iff {b : UInt8} {rest : Bytes} :
    [cr, lf] <+: b :: rest ↔ b = cr ∧ rest.head? = some lf := by
  rw [List.cons_prefix_cons, eq_comm]
  refine and_congr_right fun _ => ?_
  cases rest with
  | nil => simp
  | cons b rest => simp [List.cons_prefix_cons, eq_comm]

/-- Cleaning puts no byte in. -/
theorem length_cleaned_le (content : Bytes) : (cleaned content).length ≤ content.length := by
  induction content with
  | nil => exact Nat.le_refl 0
  | cons b rest ih =>
      rw [cleaned_cons]
      split
      · exact Nat.le_succ_of_le ih
      · exact Nat.succ_le_succ ih

/-- Cleaning drops the CR of a pair. -/
theorem length_cleaned_lt {content : Bytes} (h : [cr, lf] <:+: content) :
    (cleaned content).length < content.length := by
  induction content with
  | nil => exact absurd (List.infix_nil.mp h) nofun
  | cons b rest ih =>
      rw [cleaned_cons]
      by_cases hpair : b = cr ∧ rest.head? = some lf
      · rw [if_pos hpair]
        exact Nat.lt_succ_of_le (length_cleaned_le rest)
      · have hrest := (List.infix_cons_iff.mp h).resolve_left fun hp => hpair (pair_prefix_iff.mp hp)
        rw [if_neg hpair]
        exact Nat.succ_lt_succ (ih hrest)

/-- Content stays as it is exactly if there is no pair to be cleaned. -/
theorem cleaned_eq_self_iff (content : Bytes) : cleaned content = content ↔ ¬ [cr, lf] <:+: content := by
  constructor
  · intro h hpair
    exact absurd (congrArg List.length h) (Nat.ne_of_lt (length_cleaned_lt hpair))
  · intro hfree
    rw [← outcome_toOdb]
    exact outcome_toOdb_of_free false content hfree

/-- Of two CRs before an LF one is left. -/
theorem pair_cleaned {content : Bytes} (h : [cr, cr, lf] <:+: content) :
    [cr, lf] <:+: cleaned content := by
  induction content with
  | nil => exact absurd (List.infix_nil.mp h) nofun
  | cons b rest ih =>
      rcases List.infix_cons_iff.mp h with ⟨later, heq⟩ | hrest
      · -- of two CRs in front of a LF the second is dropped, which leaves a pair
        have hkept : cleaned ([cr, cr, lf] ++ later) = [cr, lf] ++ cleaned later := by
          simp only [List.cons_append, List.nil_append, cleaned_cons]
          rfl
        rw [← heq, hkept]
        exact (List.prefix_append [cr, lf] (cleaned later)).isInfix
      · rw [cleaned_cons]
        exact (ih hrest).trans (List.suffix_append _ _).isInfix

/-! ## To the database and back -/

/-- A byte that is no LF goes to the working tree as it is. -/
theorem outcome_toWorktree_cons (afterCr : Bool) {b : UInt8} (hlf : b ≠ lf) (rest : Bytes) :
    outcome .toWorktree afterCr (b :: rest) = b :: outcome .toWorktree (b = cr) rest := by
  rw [outcome, step_toWorktree_same fun h => hlf h.1]
  rfl

theorem outcome_toWorktree_cr (afterCr : Bool) (rest : Bytes) :
    outcome .toWorktree afterCr (cr :: rest) = cr :: outcome .toWorktree true rest :=
  outcome_toWorktree_cons afterCr cr_ne_lf rest

/-- The last byte put out may have been a CR, and a CR may be held back behind it. -/
theorem outcome_toWorktree_toOdb {afterCr : Bool} {before : UInt8} {content : Bytes}
    (hheld : afterCr = true → before = cr) (hpaired : PairedAfter before content)
    (hsingle : ¬ [cr, cr, lf] <:+: held afterCr ++ (held (before = cr) ++ content)) :
    outcome .toWorktree afterCr (outcome .toOdb (before = cr) content)
      = held (before = cr) ++ content := by
  induction content generalizing afterCr before with
  | nil =>
      rw [outcome_eq]
      by_cases hbefore : before = cr
      · rw [decide_eq_true hbefore]
        exact outcome_toWorktree_cr afterCr []
      · rw [decide_eq_false hbefore]
        rfl
  | cons b rest ih =>
      obtain ⟨hfirst, hrest⟩ := pairedAfter_cons.mp hpaired
      have hlater : ¬ [cr, cr, lf] <:+: held (before = cr) ++ b :: rest :=
        fun h => hsingle (h.trans (List.suffix_append _ _).isInfix)
      have hlast : ¬ [cr, cr, lf] <:+: rest :=
        fun h => hlater (h.trans ((List.suffix_cons b rest).trans (List.suffix_append _ _)).isInfix)
      have hfresh : ¬ [cr, cr, lf] <:+: held (b = cr) ++ rest →
          outcome .toWorktree false (outcome .toOdb (b = cr) rest) = held (b = cr) ++ rest :=
        fun hs => ih (fun h => absurd h Bool.false_ne_true) hrest hs
      by_cases hb : b = cr
      · -- it is held back, and what was held back is put out
        subst hb
        have hgoesOn : ∀ afterCr', (afterCr' = true → before = cr) →
            ¬ [cr, cr, lf] <:+: held afterCr' ++ cr :: rest →
            outcome .toWorktree afterCr' (outcome .toOdb true rest) = cr :: rest :=
          fun _ _ hs => ih (fun _ => rfl) hrest hs
        rw [outcome, step_toOdb_cr]
        by_cases hbefore : before = cr
        · rw [decide_eq_true hbefore] at hlater ⊢
          exact (outcome_toWorktree_cr afterCr _).trans
            (congrArg (cr :: ·) (hgoesOn true (fun _ => hbefore) hlater))
        · rw [decide_eq_false hbefore] at hsingle ⊢
          exact hgoesOn afterCr hheld hsingle
      by_cases hlf : b = lf
      · -- the CR that is held back is dropped, and put in again
        subst hlf
        obtain rfl := hfirst rfl
        have hafter : afterCr = false := by
          cases afterCr with
          | false => rfl
          | true => exact absurd (List.prefix_append [cr, cr, lf] rest).isInfix hsingle
        subst hafter
        exact congrArg ([cr, lf] ++ ·) (hfresh hlast)
      · have hpair : ¬ (decide (before = cr) = true ∧ b = lf) := fun h => hlf h.2
        have hthen : ∀ afterCr', outcome .toWorktree afterCr' (b :: outcome .toOdb false rest)
            = b :: rest := by
          intro afterCr'
          rw [decide_eq_false hb] at hfresh
          rw [outcome_toWorktree_cons afterCr' hlf, decide_eq_false hb]
          exact congrArg (b :: ·) (hfresh hlast)
        rw [outcome, step_toOdb_other hb hpair, List.append_assoc]
        by_cases hbefore : before = cr
        · rw [decide_eq_true hbefore]
          exact (outcome_toWorktree_cr afterCr _).trans (congrArg (cr :: ·) (hthen true))
        · rw [decide_eq_false hbefore]
          exact hthen afterCr

/-- From and to the database, content is the same if a CR stands before each LF, and no two. -/
theorem outcome_toWorktree_toOdb_eq_self_iff (content : Bytes) :
    outcome .toWorktree false (outcome .toOdb false content) = content
      ↔ PairedAfter lf content ∧ ¬ [cr, cr, lf] <:+: content := by
  constructor
  · intro h
    constructor
    · exact h ▸ pairedAfter_outcome lf (outcome .toOdb false content)
    · intro hdouble
      -- the content comes out the same a second time, so it has no pair after the first
      have hagain := outcome_undoes false (outcome .toOdb false content)
      rw [h, outcome_toOdb, outcome_toOdb] at hagain
      exact (cleaned_eq_self_iff _).mp hagain.symm (pair_cleaned hdouble)
  · rintro ⟨hpaired, hsingle⟩
    have hback : outcome .toWorktree false (outcome .toOdb (lf = cr) content)
        = held (lf = cr) ++ content := outcome_toWorktree_toOdb nofun hpaired hsingle
    exact hback

end Eol

open EolConverter in
/-- **The two directions, one after the other.**  Content that has gone to the working tree is
    not changed by going there again.  Towards the database, it is as if it had never gone
    there; so it comes back as it was exactly if it had no CR LF pair.  Content that has gone
    to the database comes back as it was exactly if each LF had a CR before it, and none had
    two. -/
theorem directions_compose (x : Bytes) :
    convertAll .toWorktree (convertAll .toWorktree x) = convertAll .toWorktree x
    ∧ convertAll .toOdb (convertAll .toWorktree x) = convertAll .toOdb x
    ∧ (convertAll .toOdb (convertAll .toWorktree x) = x ↔ ¬ [Eol.cr, Eol.lf] <:+: x)
    ∧ (convertAll .toWorktree (convertAll .toOdb x) = x
      ↔ (∀ i : Nat, x[i]? = some Eol.lf → Eol.crBefore x i = true)
        ∧ ¬ [Eol.cr, Eol.cr, Eol.lf] <:+: x) := by
  refine ⟨?_, toOdb_toWorktree x, ?_, ?_⟩
  · simp only [convertAll_eq]
    exact (Eol.outcome_toWorktree_eq_self_iff Eol.lf _).mpr (Eol.pairedAfter_outcome Eol.lf x)
  · rw [toOdb_toWorktree, convertAll_eq, Eol.outcome_toOdb]
    exact Eol.cleaned_eq_self_iff x
  · simp only [convertAll_eq, Eol.crBefore_iff]
    exact Eol.outcome_toWorktree_toOdb_eq_self_iff x

end Gitwork
