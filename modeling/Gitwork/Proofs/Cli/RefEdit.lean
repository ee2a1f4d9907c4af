import Mathlib.Data.List.Basic
import Gitwork.Cli.RefEdit
import Gitwork.Proofs.Text.Blank

/-! # What can be written in a specification

    A specification is the text of an update with blanks in it that do not
    count (`RefEdit.written`).  Reading finds the update again, whatever the
    blanks are, and accepts nothing else:

    * what stands behind the equals sign is read as an action exactly if it is
      a text of that action (`RefAction.ofChars_trim_eq_iff`);
    * so a specification is read as an update exactly if it is a text of it
      (`RefEdit.parse_eq_ok_iff`), and it cannot be read exactly if there is no
      equals sign, or nothing but blanks in front of the first one
      (`RefEdit.parse_eq_error_iff`).

    The updates that can be read are the canonical ones and one more kind: a
    symbolic reference without a name behind the mark. -/

namespace Gitwork.Cli

open Text (Blanks Trimmed)

/-- An equals sign is no blank. -/
theorem equals_not_mem (b : Blanks) : '=' ∉ b.1 :=
  fun hmem => absurd (b.2 _ hmem) (by decide)

/-- A text that can be the name in a specification. -/
structure Nameable (name : String) : Prop where
  nonempty : name ≠ ""
  trimmed : Trimmed name.toList
  noEquals : '=' ∉ name.toList

/-- The blanks in a specification that do not count. -/
structure Padding where
  beforeName : Blanks
  afterName : Blanks
  beforeTarget : Blanks
  /-- Behind the mark of a symbolic reference. -/
  afterMark : Blanks
  afterTarget : Blanks

def Padding.none : Padding := ⟨.none, .none, .none, .none, .none⟩

namespace RefAction

/-- What can be asked for without a doubt what is meant. -/
inductive Canonical : RefAction → Prop
  | point {revision : String} : revision ≠ "" → Trimmed revision.toList →
      ¬ symbolicMark <+: revision.toList → Canonical (point revision)
  | symbolic {name : String} : name ≠ "" → Trimmed name.toList → Canonical (symbolic name)
  | remove : Canonical remove

/-- The text of an action, with blanks behind the mark. -/
def written (afterMark : Blanks) : RefAction → List Char
  | point revision => revision.toList
  | symbolic name => symbolicMark ++ afterMark.1 ++ name.toList
  | remove => []

end RefAction

namespace RefEdit

structure Canonical (e : RefEdit) : Prop where
  name : Nameable e.refname
  action : e.action.Canonical

/-- What reading gives: the mark may also stand without a name. -/
structure Readable (e : RefEdit) : Prop where
  name : Nameable e.refname
  action : e.action.Canonical ∨ e.action = .symbolic ""

/-- The text of an update, with blanks in it. -/
def written (p : Padding) (e : RefEdit) : String :=
  String.ofList (p.beforeName.1 ++ e.refname.toList ++ p.afterName.1 ++ '=' ::
    (p.beforeTarget.1 ++ e.action.written p.afterMark ++ p.afterTarget.1))

end RefEdit

/-! ## Behind the equals sign -/

namespace RefAction

variable {name revision : String} {target : List Char} {a : RefAction}

/-- The mark of a symbolic target has no blanks around it. -/
theorem symbolicMark_trimmed : Trimmed symbolicMark := by
  constructor
  · intro c hc
    rw [← Option.some.inj hc]
    rfl
  · intro c hc
    rw [← Option.some.inj hc]
    rfl

/-- What the mark stands in front of. -/
theorem ofChars_marked (rest : List Char) :
    ofChars (symbolicMark ++ rest) = symbolic (String.ofList (Text.trim rest)) := by
  have hmarked : symbolicMark.isPrefixOf (symbolicMark ++ rest) = true :=
    List.isPrefixOf_iff_prefix.mpr ⟨rest, rfl⟩
  rw [ofChars, if_neg (List.append_ne_nil_of_left_ne_nil (by decide) rest), if_pos hmarked,
    List.drop_left]

/-- A target without the mark is a revision. -/
theorem ofChars_unmarked (hsome : target ≠ []) (hplain : ¬ symbolicMark <+: target) :
    ofChars target = point (String.ofList target) := by
  rw [ofChars, if_neg hsome, if_neg]
  rwa [List.isPrefixOf_iff_prefix]

/-- A name behind the mark is found again, be it empty. -/
theorem ofChars_trim_symbolic (hname : Trimmed name.toList) (before afterMark after : Blanks) :
    ofChars (Text.trim (before.1 ++ (symbolic name).written afterMark ++ after.1))
      = symbolic name := by
  rw [written]
  by_cases hnone : name.toList = []
  · -- without a name the blanks behind the mark are those at the end
    have htext : before.1 ++ (symbolicMark ++ afterMark.1 ++ name.toList) ++ after.1
        = before.1 ++ symbolicMark ++ (afterMark.append after).1 := by
      simp [hnone, Blanks.append]
    have hbare : Text.trim [] = name.toList := hnone.symm
    rw [htext, Text.trim_around before symbolicMark_trimmed, ← List.append_nil symbolicMark,
      ofChars_marked, hbare, String.ofList_toList]
  · have hfront : ∀ c ∈ (symbolicMark ++ afterMark.1).head?, Text.isBlank c = false :=
      fun c hc => symbolicMark_trimmed.head c hc
    have hmarked : Trimmed (symbolicMark ++ afterMark.1 ++ name.toList) :=
      Trimmed.append hfront (List.append_ne_nil_of_left_ne_nil (by decide) _) hname hnone
    have hrest : Text.trim (afterMark.1 ++ name.toList) = name.toList := by
      rw [← List.append_nil (afterMark.1 ++ name.toList)]
      exact Text.trim_around afterMark hname .none
    rw [Text.trim_around before hmarked, List.append_assoc, ofChars_marked, hrest,
      String.ofList_toList]

/-- **What stands behind the equals sign is a text of the action that it is read
    as, and of no other.** -/
theorem ofChars_trim_eq_iff : ofChars (Text.trim target) = a
    ↔ (a.Canonical ∨ a = symbolic "")
      ∧ ∃ before afterMark after : Blanks, target = before.1 ++ a.written afterMark ++ after.1 := by
  constructor
  · rintro rfl
    obtain ⟨before, after, htarget⟩ := Text.exists_around_trim target
    have htrimmed := Text.trimmed_trim target
    -- an empty target removes, one with the mark is symbolic, and any other is a revision
    by_cases hnone : Text.trim target = []
    · rw [hnone] at htarget ⊢
      exact ⟨Or.inl .remove, before, .none, after, htarget⟩
    by_cases hmark : symbolicMark <+: Text.trim target
    · obtain ⟨rest, hrest⟩ := hmark
      obtain ⟨afterMark, behind, hname⟩ := Text.exists_around_trim rest
      rw [← hrest, ofChars_marked]
      refine ⟨?_, before, afterMark, behind.append after, ?_⟩
      · by_cases hempty : Text.trim rest = []
        · exact Or.inr (by rw [hempty])
        · refine Or.inl (.symbolic (mt String.ofList_eq_empty_iff.mp hempty) ?_)
          rw [String.toList_ofList]
          exact Text.trimmed_trim rest
      · rw [written, String.toList_ofList]
        calc target = before.1 ++ (symbolicMark ++ rest) ++ after.1 := by rw [hrest, ← htarget]
          _ = before.1 ++ (symbolicMark ++ (afterMark.1 ++ Text.trim rest ++ behind.1))
              ++ after.1 := by rw [← hname]
          _ = _ := by simp [Blanks.append]
    · rw [ofChars_unmarked hnone hmark]
      refine ⟨Or.inl (.point (mt String.ofList_eq_empty_iff.mp hnone) ?_ ?_), before, .none, after,
        ?_⟩
      · rwa [String.toList_ofList]
      · rwa [String.toList_ofList]
      · rwa [written, String.toList_ofList]
  · rintro ⟨ha, before, afterMark, after, rfl⟩
    rcases ha with ha | rfl
    · cases ha with
      | @point revision hsome htrimmed hplain =>
          have hne : revision.toList ≠ [] := mt String.toList_eq_nil_iff.mp hsome
          rw [written, Text.trim_around before htrimmed, ofChars_unmarked hne hplain,
            String.ofList_toList]
      | symbolic _ htrimmed => exact ofChars_trim_symbolic htrimmed before afterMark after
      | remove =>
          rw [written, Text.trim_around before .nil]
          rfl
    · exact ofChars_trim_symbolic (String.toList_empty ▸ .nil) before afterMark after

end RefAction

/-! ## The whole specification -/

namespace RefEdit

variable {spec : String} {e : RefEdit}

theorem toList_written (p : Padding) (e : RefEdit) : (e.written p).toList
    = p.beforeName.1 ++ e.refname.toList ++ p.afterName.1 ++ '=' ::
      (p.beforeTarget.1 ++ e.action.written p.afterMark ++ p.afterTarget.1) :=
  String.toList_ofList

/-- Without blanks it is the text that is written. -/
theorem written_none (e : RefEdit) : e.written .none = e.toText := by
  rw [← String.toList_inj, toList_written]
  obtain ⟨name, action⟩ := e
  cases action <;> simp [toText, RefAction.toText, RefAction.written, Padding.none, Blanks.none]

/-- Without an equals sign there is no name. -/
theorem parse_of_no_equals (h : '=' ∉ spec.toList) : parse spec = .error (.noEquals spec) := by
  have hall : spec.toList.dropWhile (· ≠ '=') = [] := by
    refine List.dropWhile_eq_nil_iff.mpr fun c hc => ?_
    rw [decide_eq_true_iff]
    rintro rfl
    exact h hc
  rw [parse, hall]

/-- The name ends at the first equals sign. -/
theorem parse_of_split {name target : List Char} (hspec : spec.toList = name ++ '=' :: target)
    (hname : '=' ∉ name) :
    parse spec = if Text.trim name = [] then .error (.noName spec)
      else .ok ⟨String.ofList (Text.trim name), RefAction.ofChars (Text.trim target)⟩ := by
  have hother : ∀ c ∈ name, decide (c ≠ '=') = true := by
    intro c hc
    rw [decide_eq_true_iff]
    rintro rfl
    exact hname hc
  -- the name ends at the first equals sign, since it holds none itself
  have hdrop : spec.toList.dropWhile (· ≠ '=') = '=' :: target := by
    rw [hspec, List.dropWhile_append_of_pos hother]
    rfl
  have htake : spec.toList.takeWhile (· ≠ '=') = name := by
    rw [hspec, List.takeWhile_append_of_pos hother]
    exact List.append_nil name
  rw [parse, hdrop, htake]

/-- **A specification is read as an update exactly if it is a text of it.** -/
theorem parse_eq_ok_iff : parse spec = .ok e ↔ e.Readable ∧ ∃ p, spec = e.written p := by
  constructor
  · intro h
    by_cases hequals : '=' ∈ spec.toList
    · obtain ⟨name, target, hspec, hname⟩ := List.eq_append_cons_of_mem hequals
      rw [parse_of_split hspec hname] at h
      split at h
      · cases h
      · next hsome =>
          cases h
          obtain ⟨beforeName, afterName, hpadded⟩ := Text.exists_around_trim name
          obtain ⟨haction, beforeTarget, afterMark, afterTarget, htarget⟩ :=
            RefAction.ofChars_trim_eq_iff.mp (rfl : RefAction.ofChars (Text.trim target) = _)
          refine ⟨⟨⟨mt String.ofList_eq_empty_iff.mp hsome, ?_, ?_⟩, haction⟩,
            ⟨beforeName, afterName, beforeTarget, afterMark, afterTarget⟩, ?_⟩
          · rw [String.toList_ofList]
            exact Text.trimmed_trim name
          · rw [String.toList_ofList]
            exact fun hmem => hname (Text.mem_of_mem_trim hmem)
          · rw [← String.toList_inj, toList_written, String.toList_ofList, ← htarget, ← hpadded,
              hspec]
    · rw [parse_of_no_equals hequals] at h
      cases h
  · rintro ⟨⟨hname, haction⟩, p, rfl⟩
    have hequals : '=' ∉ p.beforeName.1 ++ e.refname.toList ++ p.afterName.1 := by
      simp [equals_not_mem, hname.noEquals]
    have hsome : e.refname.toList ≠ [] := mt String.toList_eq_nil_iff.mp hname.nonempty
    rw [parse_of_split (toList_written p e) hequals, Text.trim_around p.beforeName hname.trimmed,
      if_neg hsome, String.ofList_toList,
      RefAction.ofChars_trim_eq_iff.mpr ⟨haction, p.beforeTarget, p.afterMark, p.afterTarget, rfl⟩]

/-- **It cannot be read exactly if a name is missing.** -/
theorem parse_eq_error_iff {cause : RefEditError} : parse spec = .error cause
    ↔ ('=' ∉ spec.toList ∧ cause = .noEquals spec)
      ∨ (∃ (blanks : Blanks) (target : List Char), spec.toList = blanks.1 ++ '=' :: target)
        ∧ cause = .noName spec := by
  constructor
  · intro h
    by_cases hequals : '=' ∈ spec.toList
    · obtain ⟨name, target, hspec, hname⟩ := List.eq_append_cons_of_mem hequals
      rw [parse_of_split hspec hname] at h
      split at h
      · next hnone =>
          exact Or.inr ⟨⟨⟨name, Text.trim_eq_nil_iff.mp hnone⟩, target, hspec⟩,
            (Except.error.inj h).symm⟩
      · cases h
    · rw [parse_of_no_equals hequals] at h
      exact Or.inl ⟨hequals, (Except.error.inj h).symm⟩
  · rintro (⟨hequals, rfl⟩ | ⟨⟨blanks, target, hspec⟩, rfl⟩)
    · exact parse_of_no_equals hequals
    · rw [parse_of_split hspec (equals_not_mem blanks), if_pos (Text.trim_eq_nil_iff.mpr blanks.2)]

end RefEdit

/-- **Specifications and canonical updates determine each other.**

    A canonical update is read from each of its texts, whatever blanks stand around
    the name, around what follows and behind the mark; the text without them is the
    one that is written.  So two canonical updates share no text.  A specification
    cannot be read exactly if it has no equals sign, or nothing but blanks in front
    of the first one. -/
theorem specification_round_trip :
    (∀ e : RefEdit, e.Canonical → ∀ p, RefEdit.parse (e.written p) = .ok e)
      ∧ (∀ e : RefEdit, e.written .none = e.toText)
      ∧ (∀ e e' : RefEdit, e.Canonical → e'.Canonical → e ≠ e' →
        ∀ p p', e.written p ≠ e'.written p')
      ∧ ∀ spec, (∃ cause, RefEdit.parse spec = .error cause) ↔ '=' ∉ spec.toList
        ∨ ∃ (blanks : Blanks) (target : List Char), spec.toList = blanks.1 ++ '=' :: target := by
  have hread (e : RefEdit) (he : e.Canonical) (p : Padding) :
      RefEdit.parse (e.written p) = .ok e :=
    RefEdit.parse_eq_ok_iff.mpr ⟨⟨he.name, Or.inl he.action⟩, p, rfl⟩
  refine ⟨hread, RefEdit.written_none, ?_, ?_⟩
  · -- one text that is written for two edits would be read back as both
    intro e e' he he' hne p p' htext
    have hsame := hread e he p
    rw [htext, hread e' he' p'] at hsame
    exact hne (Except.ok.inj hsame).symm
  · intro spec
    constructor
    · rintro ⟨cause, hcause⟩
      rcases RefEdit.parse_eq_error_iff.mp hcause with ⟨hequals, -⟩ | ⟨hblanks, -⟩
      · exact Or.inl hequals
      · exact Or.inr hblanks
    · rintro (hequals | hblanks)
      · exact ⟨_, RefEdit.parse_eq_error_iff.mpr (Or.inl ⟨hequals, rfl⟩)⟩
      · exact ⟨_, RefEdit.parse_eq_error_iff.mpr (Or.inr ⟨hblanks, rfl⟩)⟩

/-- Five kinds of blanks around a name behind the mark, and two of them alone. -/
theorem specification_round_trip_blanks :
    let link : RefEdit := ⟨"refs/heads/a", .symbolic "refs/heads/b="⟩
    RefEdit.parse " refs/heads/a\t=\nref:\u00a0refs/heads/b=\u3000" = .ok link
      ∧ link.toText ≠ RefEdit.toText ⟨"refs/heads/a", .remove⟩
      ∧ ∃ cause, RefEdit.parse "\t\u3000=refs/heads/b=" = .error cause := by
  intro link
  let padding : Padding :=
    ⟨.ofAll [' '] rfl, .ofAll ['\t'] rfl, .ofAll ['\n'] rfl, .ofAll ['\u00a0'] rfl,
      .ofAll ['\u3000'] rfl⟩
  have hname : Nameable "refs/heads/a" := ⟨by decide, .of_trim (by decide), by decide⟩
  have hlink : link.Canonical := ⟨hname, .symbolic (by decide) (.of_trim (by decide))⟩
  have hremoval : RefEdit.Canonical ⟨"refs/heads/a", .remove⟩ := ⟨hname, .remove⟩
  obtain ⟨hread, hplain, hdistinct, hrefused⟩ := specification_round_trip
  have htext : link.written padding = " refs/heads/a\t=\nref:\u00a0refs/heads/b=\u3000" := by decide
  refine ⟨htext ▸ hread link hlink padding, ?_, ?_⟩
  · rw [← hplain, ← hplain]
    exact hdistinct _ _ hlink hremoval (by decide) _ _
  · refine (hrefused _).mpr (Or.inr ⟨.ofAll ['\t', '\u3000'] rfl, "refs/heads/b=".toList, ?_⟩)
    rfl

end Gitwork.Cli
