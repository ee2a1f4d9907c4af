import Gitwork.Filter.Blob

/-! # What the end-of-line converters put out

    A converter works from left to right and carries one bit.  `outcome` is all that
    it puts out from a bit on, with what it gives out at the end; converting content
    whole is the outcome of it (`convertAll_eq`), and so is converting it in pieces,
    wherever it is cut (`convertedPieces_flatten`).

    Towards the database, an inserted CR is taken out again: with one bit for both
    directions, the outcome of an outcome is the outcome of the content
    (`outcome_undoes`).  Content without a CR LF pair is its own outcome
    (`outcome_toOdb_of_free`). -/

namespace Gitwork

namespace Eol

/-! ## One pass -/

/-- What is given out at the end. -/
def flush (d : Direction) (bit : Bool) : Bytes := if d = .toOdb ∧ bit then [cr] else []

/-- All that comes out for content, from a bit on. -/
def outcome (d : Direction) : Bool → Bytes → Bytes
  | bit, [] => flush d bit
  | bit, b :: rest => (step d bit b).1 ++ outcome d (step d bit b).2 rest

/-- What has come out after some content, and the bit. -/
def passed (d : Direction) : Bool → Bytes → Bytes × Bool
  | bit, [] => ([], bit)
  | bit, b :: rest =>
    let (out, bit') := passed d (step d bit b).2 rest
    ((step d bit b).1 ++ out, bit')

/-- The converter gathers its output backwards. -/
theorem convertOnto_eq (d : Direction) (acc : Bytes) (bit : Bool) (content : Bytes) :
    convertOnto d acc bit content
      = ((passed d bit content).1.reverse ++ acc, (passed d bit content).2) := by
  induction content generalizing acc bit with
  | nil => rfl
  | cons b rest ih =>
      simp only [convertOnto, passed, ih, List.reverse_append, List.append_assoc]

/-- What has come out, and what is to come. -/
theorem outcome_append (d : Direction) (bit : Bool) (before after : Bytes) :
    outcome d bit (before ++ after)
      = (passed d bit before).1 ++ outcome d (passed d bit before).2 after := by
  induction before generalizing bit with
  | nil => rfl
  | cons b rest ih => simp only [List.cons_append, outcome, passed, ih, List.append_assoc]

/-- The outcome is what was put out, and what the end flushes. -/
theorem outcome_eq (d : Direction) (bit : Bool) (content : Bytes) :
    outcome d bit content
      = (passed d bit content).1 ++ flush d (passed d bit content).2 := by
  have h := outcome_append d bit content []
  rwa [List.append_nil] at h

end Eol

/-! ## In pieces -/

namespace EolConverter

/-- A piece is passed through from the bit that is kept. -/
theorem convert_eq (c : EolConverter) (piece : Bytes) :
    c.convert piece = ((Eol.passed c.direction c.bit piece).1,
      { c with bit := (Eol.passed c.direction c.bit piece).2 }) := by
  simp only [convert, Eol.convertOnto_eq, List.append_nil, List.reverse_reverse]

theorem finish_eq (c : EolConverter) : c.finish.1 = Eol.flush c.direction c.bit := rfl

/-- Content that is converted whole comes out in one pass. -/
theorem convertAll_eq (d : Direction) (content : Bytes) :
    convertAll d content = Eol.outcome d false content := by
  simp only [convertAll, convert_eq, finish_eq, Eol.outcome_eq, new]

end EolConverter

namespace FilterOptions

/-- What comes out of pieces and of the end, after some output. -/
theorem convertedPieces_from (d : Direction) (ps out : List Bytes) (bit : Bool) :
    let acc := ps.foldl (fun (acc : List Bytes × EolConverter) p =>
      ((acc.2.convert p).1 :: acc.1, (acc.2.convert p).2)) (out, ⟨d, bit⟩)
    (acc.2.finish.1 :: acc.1).reverse.flatten
      = out.reverse.flatten ++ Eol.outcome d bit ps.flatten := by
  induction ps generalizing out bit with
  | nil => simp [EolConverter.finish_eq, Eol.outcome]
  | cons p rest ih =>
      simp only [List.foldl_cons, EolConverter.convert_eq] at ih ⊢
      rw [ih]
      simp only [List.reverse_cons, List.flatten_append, List.flatten_cons, List.flatten_nil,
        List.append_nil, List.append_assoc, Eol.outcome_append]

/-- **Where content is cut does not matter to what comes out.** -/
theorem convertedPieces_flatten (d : Direction) (ps : List Bytes) :
    (convertedPieces d ps).flatten = EolConverter.convertAll d ps.flatten := by
  rw [EolConverter.convertAll_eq]
  exact convertedPieces_from d ps [] false

/-- Nothing is lost by the cuts. -/
theorem pieces_flatten {size : Nat} (hsize : 0 < size) (fuel : Nat) (content : Bytes)
    (hfuel : content.length < fuel) : (pieces size fuel content).flatten = content := by
  induction fuel generalizing content with
  | zero => exact absurd hfuel (Nat.not_lt_zero _)
  | succ fuel ih =>
      simp only [pieces]
      split
      · next hnil => exact hnil.symm
      · -- the rest is shorter than the content, so the fuel lasts
        next hsome =>
          have hpos := List.length_pos_iff.mpr hsome
          have hrest : (content.drop size).length < fuel := by
            rw [List.length_drop]
            omega
          rw [List.flatten_cons, ih _ hrest]
          exact List.take_append_drop size content

end FilterOptions

/-! ## There and back -/

namespace Eol

theorem step_toWorktree_lf : step .toWorktree false lf = ([cr, lf], false) := by decide

/-- A byte is put out towards the working tree as it is, unless it is an LF without a CR. -/
theorem step_toWorktree_same {bit : Bool} {b : UInt8} (h : ¬ (b = lf ∧ bit = false)) :
    step .toWorktree bit b = ([b], decide (b = cr)) := by
  have hbit : ¬ (b = lf ∧ (!bit) = true) := by simpa using h
  simp only [step, if_neg hbit]

/-- The bit says the same in both directions: the last byte was a CR. -/
theorem step_bits {bit : Bool} {b : UInt8} (h : ¬ (b = lf ∧ bit = false)) :
    (step .toOdb bit b).2 = (step .toWorktree bit b).2 := by
  rw [step_toWorktree_same h]
  cases bit with
  -- the bit is set by a CR and cleared by anything else, in both directions
  | false =>
      by_cases hcr : b = cr
      · simp [step, hcr]
      · simp [step, hcr]
  | true =>
      by_cases hlf : b = lf
      · subst hlf
        decide
      · by_cases hcr : b = cr
        · simp [step, hcr]
          decide
        · simp [step, hcr, hlf]

/-- **What is put in on the way to the working tree is taken out on the way back.** -/
theorem outcome_undoes (bit : Bool) (content : Bytes) :
    outcome .toOdb bit (outcome .toWorktree bit content) = outcome .toOdb bit content := by
  induction content generalizing bit with
  | nil => rfl
  | cons b rest ih =>
      by_cases h : b = lf ∧ bit = false
      · -- a CR is put in, held back and dropped with its LF
        obtain ⟨rfl, rfl⟩ := h
        have hrest := ih false
        simp only [outcome, step_toWorktree_lf]
        show [lf] ++ outcome .toOdb false (outcome .toWorktree false rest) = _
        rw [hrest]
        rfl
      · have hrest := ih (step .toWorktree bit b).2
        rw [outcome, step_toWorktree_same h, List.singleton_append, outcome, outcome,
          step_bits h, step_toWorktree_same h]
        rw [step_toWorktree_same h] at hrest
        rw [hrest]

/-- A CR that is held back. -/
def held (bit : Bool) : Bytes := if bit then [cr] else []

/-- A CR is held back, and what was held back is put out. -/
theorem step_toOdb_cr (bit : Bool) : step .toOdb bit cr = (held bit, true) := by
  cases bit
  · decide
  · decide

/-- Any other byte puts out what is held back, but for an LF after a CR. -/
theorem step_toOdb_other {bit : Bool} {b : UInt8} (hcr : b ≠ cr) (h : ¬ (bit = true ∧ b = lf)) :
    step .toOdb bit b = (held bit ++ [b], false) := by
  simp only [step, if_neg h, if_neg hcr, held]

/-- **Content without a CR LF pair comes out as it is**, after a CR that is held back. -/
theorem outcome_toOdb_of_free (bit : Bool) (content : Bytes)
    (hfree : ¬ [cr, lf] <:+: held bit ++ content) :
    outcome .toOdb bit content = held bit ++ content := by
  induction content generalizing bit with
  | nil => cases bit <;> rfl
  | cons b rest ih =>
      -- a CR goes behind what is held; any other byte cannot complete a pair
      by_cases hcr : b = cr
      · subst hcr
        have hrest : ¬ [cr, lf] <:+: held true ++ rest := fun hpair =>
          hfree (hpair.trans (List.suffix_append (held bit) (cr :: rest)).isInfix)
        rw [outcome, step_toOdb_cr, ih true hrest]
        rfl
      · have hpair : ¬ (bit = true ∧ b = lf) := by
          rintro ⟨rfl, rfl⟩
          exact hfree (List.prefix_append [cr, lf] rest).isInfix
        have hrest : ¬ [cr, lf] <:+: held false ++ rest := by
          intro hpair
          have hsuffix : rest <:+ held bit ++ b :: rest :=
            (List.suffix_cons b rest).trans (List.suffix_append (held bit) (b :: rest))
          exact hfree (hpair.trans hsuffix.isInfix)
        rw [outcome, step_toOdb_other hcr hpair, ih false hrest, List.append_assoc]
        rfl

end Eol

namespace EolConverter

/-- Towards the database, content comes out as if it had never been in the working tree. -/
theorem toOdb_toWorktree (content : Bytes) :
    convertAll .toOdb (convertAll .toWorktree content) = convertAll .toOdb content := by
  simp only [convertAll_eq]
  exact Eol.outcome_undoes false content

/-- And unchanged, if it has no CR LF pair. -/
theorem toOdb_of_free {content : Bytes} (hfree : ¬ [Eol.cr, Eol.lf] <:+: content) :
    convertAll .toOdb content = content := by
  rw [convertAll_eq]
  exact Eol.outcome_toOdb_of_free false content hfree

end EolConverter

end Gitwork
