import Gitwork.Proofs.Filter.EndOfLine

/-! # A converter and its pieces

    What a converter should put out is said here without a converter: each byte of
    the content is looked at with the byte before it, or with the byte after it
    (`smudged`, `cleaned`).  Nothing is carried from one byte to the next.

    A converter puts out just that (`outcome_toWorktree`, `outcome_toOdb`), and it may be
    used for one content after the other: whatever it was asked before, what comes out
    from one `finish` to the next is what its pieces, joined, are converted to
    (`run_finish`, `run_pieces`). -/

namespace Gitwork

namespace Eol

/-! ## Each byte by itself -/

/-- A CR stands right before a position. -/
def crBefore (content : Bytes) : Nat → Bool
  | 0 => false
  | i + 1 => content[i]? = some cr

/-- Content with a CR put in before each LF that has none. -/
def smudged (content : Bytes) : Bytes :=
  (content.mapIdx fun i b => if b = lf ∧ ¬ crBefore content i then [cr, b] else [b]).flatten

/-- Content with the CR taken out of each CR LF pair. -/
def cleaned (content : Bytes) : Bytes :=
  (content.mapIdx fun i b => if b = cr ∧ content[i + 1]? = some lf then [] else [b]).flatten

/-- What comes out towards the working tree, after some byte. -/
theorem outcome_toWorktree_after (before : UInt8) (content : Bytes) :
    outcome .toWorktree (before = cr) content
      = (content.mapIdx fun i b =>
          if b = lf ∧ (before :: content)[i]? ≠ some cr then [cr, b] else [b]).flatten := by
  induction content generalizing before with
  | nil => rfl
  | cons b rest ih =>
      rw [List.mapIdx_cons, List.flatten_cons, outcome]
      refine congr (congrArg _ ?_) (ih b)
      simp [step]

/-- The byte before the first one may be anything but a CR. -/
theorem crBefore_iff (content : Bytes) (i : Nat) :
    crBefore content i = true ↔ (lf :: content)[i]? = some cr := by
  cases i with
  | zero => simp [crBefore, cr, lf]
  | succ i => simp [crBefore]

/-- The outcome on the way to the work tree, in one pass. -/
theorem outcome_toWorktree (content : Bytes) :
    outcome .toWorktree false content = smudged content := by
  simp only [smudged, crBefore_iff]
  exact outcome_toWorktree_after lf content

/-- A CR is dropped if the next byte is a LF. -/
theorem cleaned_cons (b : UInt8) (rest : Bytes) :
    cleaned (b :: rest) = (if b = cr ∧ rest.head? = some lf then [] else [b]) ++ cleaned rest := by
  rw [cleaned, List.mapIdx_cons, List.flatten_cons, cleaned, List.head?_eq_getElem?]
  rfl

/-- What comes out towards the database, with a CR that is held back or without one. -/
theorem outcome_toOdb_held (bit : Bool) (content : Bytes) :
    outcome .toOdb bit content = cleaned (held bit ++ content) := by
  induction content generalizing bit with
  | nil => cases bit <;> rfl
  | cons b rest ih =>
      by_cases hcr : b = cr
      · subst hcr
        rw [outcome, step_toOdb_cr, ih true]
        cases bit with
        | false => rfl
        | true => exact (cleaned_cons cr (cr :: rest)).symm
      by_cases hpair : bit = true ∧ b = lf
      · -- a held CR is dropped with its LF
        obtain ⟨rfl, rfl⟩ := hpair
        have hlf : cleaned (lf :: rest) = lf :: cleaned rest := cleaned_cons lf rest
        rw [outcome, show step .toOdb true lf = ([lf], false) from rfl, ih false]
        exact ((cleaned_cons cr (lf :: rest)).trans hlf).symm
      · have hb : cleaned (b :: rest) = b :: cleaned rest := by
          rw [cleaned_cons, if_neg fun h => hcr h.1]
          rfl
        rw [outcome, step_toOdb_other hcr hpair, ih false, List.append_assoc]
        cases bit with
        | false => exact hb.symm
        | true =>
            have hlf : ¬ (cr = cr ∧ (b :: rest).head? = some lf) :=
              fun h => hpair ⟨rfl, Option.some.inj h.2⟩
            refine Eq.trans ?_ (cleaned_cons cr (b :: rest)).symm
            rw [if_neg hlf, hb]
            rfl

/-- The outcome on the way to the store, in one pass. -/
theorem outcome_toOdb (content : Bytes) : outcome .toOdb false content = cleaned content :=
  outcome_toOdb_held false content

end Eol

/-! ## Steps in a row -/

namespace EolConverter

/-- What a converter can be asked for. -/
inductive Step
  | convert (piece : Bytes)
  | finish
deriving DecidableEq, Repr

/-- One step: what comes out, and the converter after it. -/
def step (c : EolConverter) : Step → Bytes × EolConverter
  | .convert piece => c.convert piece
  | .finish => c.finish

/-- Steps in a row: what comes out of each of them, and the converter after them. -/
def run (c : EolConverter) : List Step → List Bytes × EolConverter
  | [] => ([], c)
  | s :: rest => ((c.step s).1 :: ((c.step s).2.run rest).1, ((c.step s).2.run rest).2)

theorem run_append (c : EolConverter) (before after : List Step) :
    c.run (before ++ after)
      = ((c.run before).1 ++ ((c.run before).2.run after).1, ((c.run before).2.run after).2) := by
  induction before generalizing c with
  | nil => rfl
  | cons s rest ih => simp only [List.cons_append, run, ih]

/-- No step changes the direction. -/
theorem run_direction (c : EolConverter) (steps : List Step) :
    (c.run steps).2.direction = c.direction := by
  induction steps generalizing c with
  | nil => rfl
  | cons s rest ih =>
      refine (ih _).trans ?_
      cases s with
      | convert piece => rfl
      | finish => rfl

/-- **A converter that has finished is as new.** -/
theorem run_finish (d : Direction) (steps : List Step) :
    ((new d).run (steps ++ [.finish])).2 = new d := by
  rw [run_append]
  exact congrArg new (run_direction (new d) steps)

/-- Some pieces and a finish: an output for each, and all that comes out for the pieces. -/
theorem run_pieces (c : EolConverter) (pieces : List Bytes) :
    (c.run (pieces.map .convert ++ [.finish])).1.length = pieces.length + 1
      ∧ (c.run (pieces.map .convert ++ [.finish])).1.flatten
        = Eol.outcome c.direction c.bit pieces.flatten := by
  induction pieces generalizing c with
  | nil => exact ⟨rfl, List.append_nil _⟩
  | cons piece rest ih =>
      obtain ⟨hlength, hflatten⟩ := ih (c.convert piece).2
      refine ⟨congrArg (· + 1) hlength, ?_⟩
      rw [List.flatten_cons, Eol.outcome_append]
      refine (congrArg ((c.convert piece).1 ++ ·) hflatten).trans ?_
      simp only [convert_eq]

end EolConverter

/-- **Converting in pieces is converting byte by byte.**  A converter may be asked for
    anything before, as long as it has finished that: it is then as new, what comes out for
    some pieces and a finish is what the pieces, joined, are converted to, and it goes on as
    a new one.  To convert content whole is, towards the working tree, to put a CR in before
    each LF without one; towards the database, to take the CR out of each CR LF pair. -/
theorem conversion_by_bytes :
    (∀ (d : Direction) (before : List EolConverter.Step) (pieces : List Bytes)
        (after : List EolConverter.Step),
      before = [] ∨ before.getLast? = some .finish →
      ((EolConverter.new d).run before).2 = EolConverter.new d
      ∧ ∃ outs,
        ((EolConverter.new d).run (before ++ (pieces.map .convert ++ [.finish] ++ after))).1
          = ((EolConverter.new d).run before).1 ++ (outs ++ ((EolConverter.new d).run after).1)
        ∧ outs.length = pieces.length + 1
        ∧ outs.flatten = EolConverter.convertAll d pieces.flatten)
    ∧ ∀ content, EolConverter.convertAll .toWorktree content = Eol.smudged content
      ∧ EolConverter.convertAll .toOdb content = Eol.cleaned content := by
  constructor
  · intro d before pieces after hbefore
    have hnew : ((EolConverter.new d).run before).2 = EolConverter.new d := by
      rcases hbefore with rfl | hlast
      · rfl
      · obtain ⟨earlier, rfl⟩ := List.getLast?_eq_some_iff.mp hlast
        exact EolConverter.run_finish d earlier
    obtain ⟨hlength, hflatten⟩ := EolConverter.run_pieces (EolConverter.new d) pieces
    refine ⟨hnew, _, ?_, hlength, hflatten.trans (EolConverter.convertAll_eq d _).symm⟩
    rw [EolConverter.run_append, hnew, EolConverter.run_append, EolConverter.run_finish]
  · intro content
    rw [EolConverter.convertAll_eq, EolConverter.convertAll_eq]
    exact ⟨Eol.outcome_toWorktree content, Eol.outcome_toOdb content⟩

/-- A CR is held back over an empty piece, and another one to the end; then the converter
    is used again. -/
theorem conversion_by_bytes_heldBack :
    ∃ outs, ((EolConverter.new .toOdb).run
        ([.convert [13], .finish] ++ ([[97, 13], [], [10, 13]].map .convert ++ [.finish]
          ++ [.convert [10]]))).1
      = [[], [13]] ++ (outs ++ [[10]])
      ∧ outs.length = 4
      ∧ outs.flatten = [97, 10, 13] :=
  (conversion_by_bytes.1 .toOdb [.convert [13], .finish] [[97, 13], [], [10, 13]]
    [.convert [10]] (Or.inr rfl)).2

end Gitwork
