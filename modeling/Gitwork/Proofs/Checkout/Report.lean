import Mathlib.Data.List.Pairwise
import Gitwork.Proofs.Path
import Gitwork.Checkout.Preview

/-! # What a report says

    A report is exact for two comparisons if it has one line for each path of
    either (`Report.Exact`): in the order of paths, with the kind that the
    comparisons give the path (`ToldAs`), spelt as where the path stands first.
    There is one such report (`Report.Exact.unique`), and `report` makes it
    (`report_exact`).

    A report is read as a map from paths to lines (`Report.line?`).  Adding a
    path changes the map at that path only (`Report.line?_add`), so the three
    rounds that make a report are three layers of that map
    (`line?_report`). -/

namespace Gitwork

/-- A line of a comparison is about a path, however that is spelt. -/
def Delta.About (d : Delta) (p : String) : Prop := ∃ q, d.path? = some q ∧ Path.same p q = true

namespace Preview

/-! ## The specification -/

section Specification

variable (incoming changed : List Delta)

/-- A checkout would write the path. -/
def Incoming (p : String) : Prop := ∃ d ∈ incoming, d.About p

/-- The path was changed locally, and is not just untracked. -/
def Dirty (p : String) : Prop :=
  ∃ d ∈ changed, d.About p ∧ d.status ∉ [.untracked, .ignored, .unmodified]

def Untracked (p : String) : Prop := ∃ d ∈ changed, d.About p ∧ d.status = .untracked

/-- The kind that a path is told with. -/
inductive ToldAs (p : String) : NotifyKind → Prop
  | conflict : Incoming incoming p → Dirty changed p ∨ Untracked changed p → ToldAs p .conflict
  | updated : Incoming incoming p → ¬ Dirty changed p → ¬ Untracked changed p → ToldAs p .updated
  | dirty : ¬ Incoming incoming p → Dirty changed p → ToldAs p .dirty
  | untracked : ¬ Incoming incoming p → ¬ Dirty changed p → Untracked changed p → ToldAs p .untracked

/-- The paths in the order in which they are found. -/
def found : List String :=
  pathsOf (fun _ => true) incoming ++ pathsOf isDirty changed
    ++ pathsOf (·.status = .untracked) changed

/-- In the order of paths, and no path twice. -/
def Report.Ordered (r : Report) : Prop := r.Pairwise fun a b => Path.compare a.1 b.1 = .lt

/-- One line for each path, and what it has to say. -/
structure Report.Exact (r : Report) : Prop where
  ordered : r.Ordered
  told : ∀ l ∈ r, ToldAs incoming changed l.1 l.2
  complete : ∀ p k, ToldAs incoming changed p k → ∃ l ∈ r, Path.same p l.1 = true ∧ l.2 = k
  spelt : ∀ l ∈ r, (found incoming changed).find? (Path.same l.1) = some l.1

end Specification

/-! ## Reports as maps -/

namespace Report

variable {r : Report} {p q : String} {k : NotifyKind}

/-- The line about a path. -/
def line? (r : Report) (p : String) : Option (String × NotifyKind) :=
  r.find? fun l => Path.same p l.1

theorem line?_congr (r : Report) (h : Path.same p q = true) : r.line? p = r.line? q := by
  rw [line?, line?, Path.same_congr h]

/-- The first line is looked up by its own path. -/
theorem line?_cons_pos {l : String × NotifyKind} (h : Path.same q l.1 = true) (r : Report) :
    line? (l :: r) q = some l := by
  rw [line?, List.find?_cons, h]

theorem line?_cons_neg {l : String × NotifyKind} (h : ¬ Path.same q l.1 = true) (r : Report) :
    line? (l :: r) q = r.line? q := by
  rw [line?, List.find?_cons, Bool.eq_false_iff.mpr h, line?]

/-- The line that is found is of the path that was asked for. -/
theorem same_of_line? {l : String × NotifyKind} (h : r.line? p = some l) :
    Path.same p l.1 = true := by
  rw [line?] at h
  have hl := List.find?_some h
  exact hl

/-- A path that stands before all lines has none. -/
theorem line?_eq_none (h : ∀ l ∈ r, Path.compare p l.1 = .lt) : r.line? p = none := by
  refine List.find?_eq_none.mpr ?_
  intro l hl hsame
  have heq := Path.compare_eq_iff.mpr hsame
  rw [h l hl] at heq
  exact nomatch heq

/-- In an ordered report each line is the one about its path. -/
theorem Ordered.mem_iff (hr : r.Ordered) (l : String × NotifyKind) :
    l ∈ r ↔ r.line? l.1 = some l := by
  refine ⟨?_, List.mem_of_find?_eq_some⟩
  intro hl
  induction r with
  | nil => exact nomatch hl
  | cons m rest ih =>
      obtain ⟨hm, hrest⟩ := List.pairwise_cons.mp hr
      rcases List.mem_cons.mp hl with rfl | hl
      · exact line?_cons_pos (Path.same_refl _) _
      · -- the lines of a report are strictly ordered, so a later one is of another path
        have hne : ¬ Path.same l.1 m.1 = true := by
          intro hsame
          rw [Path.same_comm, ← Path.compare_eq_iff, hm l hl] at hsame
          exact nomatch hsame
        exact (line?_cons_neg hne rest).trans (ih hrest hl)

/-- What an added path is told with. -/
def added (again : Bool) (p : String) (k : NotifyKind) :
    Option (String × NotifyKind) → String × NotifyKind
  | none => (p, k)
  | some l => (l.1, if again then k else l.2)

/-- Adding a path changes the line about it, and no other one. -/
theorem Ordered.line?_add (hr : r.Ordered) (again : Bool) (p : String) (k : NotifyKind)
    (q : String) :
    (r.add again p k).line? q
      = if Path.same q p then some (added again p k (r.line? p)) else r.line? q := by
  induction r with
  | nil => by_cases hq : Path.same q p = true <;> simp [add, line?, added, hq]
  | cons l rest ih =>
      obtain ⟨s, k₀⟩ := l
      obtain ⟨hs, hrest⟩ := List.pairwise_cons.mp hr
      cases hc : Path.compare p s with
      | lt =>
          -- the new line goes to the front, and nothing behind it is of the path
          have hbefore : ∀ m ∈ (s, k₀) :: rest, Path.compare p m.1 = .lt := by
            intro m hm
            rcases List.mem_cons.mp hm with rfl | hm
            · exact hc
            · exact Std.TransCmp.lt_trans hc (hs m hm)
          rw [line?_eq_none hbefore]
          simp only [add, hc]
          by_cases hq : Path.same q p = true
          · rw [if_pos hq, line?_cons_pos (l := (p, k)) hq, added]
          · rw [if_neg hq, line?_cons_neg (l := (p, k)) hq]
      | eq =>
          -- the path has a line: its spelling stays, and its kind is decided by `again`
          have hps := Path.compare_eq_iff.mp hc
          have hline : line? ((s, k₀) :: rest) p = some (s, k₀) :=
            line?_cons_pos (l := (s, k₀)) hps rest
          have hqs : Path.same q p = Path.same q s := by
            rw [Path.same_comm, Path.same_congr hps, Path.same_comm]
          rw [hline, hqs]
          simp only [add, hc]
          by_cases hq : Path.same q s = true
          · rw [if_pos hq, line?_cons_pos (l := (s, if again then k else k₀)) hq, added]
          · rw [if_neg hq, line?_cons_neg (l := (s, if again then k else k₀)) hq,
              line?_cons_neg (l := (s, k₀)) hq]
      | gt =>
          -- the path sorts behind the first line, so its own line is further on
          have hps : ¬ Path.same p s = true := by
            rw [← Path.compare_eq_iff, hc]
            exact nofun
          have hline : line? ((s, k₀) :: rest) p = line? rest p :=
            line?_cons_neg (l := (s, k₀)) hps rest
          rw [hline]
          simp only [add, hc]
          by_cases hq : Path.same q s = true
          · have hqp : ¬ Path.same q p = true := by
              rwa [Path.same_congr hq, Path.same_comm]
            rw [if_neg hqp, line?_cons_pos (l := (s, k₀)) hq, line?_cons_pos (l := (s, k₀)) hq]
          · rw [line?_cons_neg (l := (s, k₀)) hq, line?_cons_neg (l := (s, k₀)) hq, ih hrest]

/-- The paths of a report after one was added. -/
theorem mem_add {again : Bool} {l : String × NotifyKind} (hl : l ∈ r.add again p k) :
    l.1 = p ∨ ∃ m ∈ r, m.1 = l.1 := by
  induction r with
  | nil => exact Or.inl (congrArg Prod.fst (List.mem_singleton.mp hl))
  | cons m rest ih =>
      obtain ⟨s, k₀⟩ := m
      simp only [add] at hl
      split at hl
      · rcases List.mem_cons.mp hl with rfl | hl
        · exact Or.inl rfl
        · exact Or.inr ⟨l, hl, rfl⟩
      · rcases List.mem_cons.mp hl with rfl | hl
        · exact Or.inr ⟨_, List.mem_cons_self, rfl⟩
        · exact Or.inr ⟨l, List.mem_cons_of_mem _ hl, rfl⟩
      · rcases List.mem_cons.mp hl with rfl | hl
        · exact Or.inr ⟨_, List.mem_cons_self, rfl⟩
        · rcases ih hl with hp | ⟨m, hm, heq⟩
          · exact Or.inl hp
          · exact Or.inr ⟨m, List.mem_cons_of_mem _ hm, heq⟩

/-- Adding a path keeps a report in order. -/
theorem Ordered.add (hr : r.Ordered) (again : Bool) (p : String) (k : NotifyKind) :
    (r.add again p k).Ordered := by
  induction r with
  | nil => exact List.pairwise_singleton _ _
  | cons l rest ih =>
      obtain ⟨s, k₀⟩ := l
      obtain ⟨hs, hrest⟩ := List.pairwise_cons.mp hr
      cases hc : Path.compare p s with
      | lt =>
          simp only [Report.add, hc]
          refine List.pairwise_cons.mpr ⟨?_, hr⟩
          intro m hm
          rcases List.mem_cons.mp hm with rfl | hm
          · exact hc
          · exact Std.TransCmp.lt_trans hc (hs m hm)
      | eq =>
          simp only [Report.add, hc]
          exact List.pairwise_cons.mpr ⟨hs, hrest⟩
      | gt =>
          simp only [Report.add, hc]
          refine List.pairwise_cons.mpr ⟨?_, ih hrest⟩
          intro m hm
          rcases mem_add hm with hp | ⟨n, hn, heq⟩
          · rw [hp]
            exact Std.OrientedCmp.gt_iff_lt.mp hc
          · rw [← heq]
            exact hs n hn

/-! ## A round of paths -/

/-- Adds paths one after the other, each with the kind that it has. -/
def addAll (again : Bool) (kind : String → NotifyKind) (ps : List String) (r : Report) : Report :=
  ps.foldl (fun r p => r.add again p (kind p)) r

/-- What a round leaves of a line: its kind changes if that is asked for and the
    path came up. -/
def kept (again : Bool) (kind : String → NotifyKind) (ps : List String) (q : String)
    (l : String × NotifyKind) : String × NotifyKind :=
  (l.1, if again && ps.any (Path.same q) then kind q else l.2)

theorem Ordered.addAll (hr : r.Ordered) (again : Bool) (kind : String → NotifyKind)
    (ps : List String) : (r.addAll again kind ps).Ordered := by
  induction ps generalizing r with
  | nil => exact hr
  | cons p rest ih => exact ih (hr.add again p (kind p))

/-- A path that had no line gets one, spelt as where it came up first. -/
theorem Ordered.line?_addAll (hr : r.Ordered) (again : Bool) {kind : String → NotifyKind}
    (hkind : ∀ p q, Path.same p q = true → kind p = kind q) (ps : List String) (q : String) :
    (r.addAll again kind ps).line? q
      = ((r.line? q).map (kept again kind ps q)).or
          ((ps.find? (Path.same q)).map fun p => (p, kind q)) := by
  induction ps generalizing r with
  | nil =>
      cases h : r.line? q with
      | none => exact h
      | some l => simp [Report.addAll, kept, h]
  | cons p rest ih =>
      show (((r.add again p (kind p)).addAll again kind rest).line? q) = _
      rw [ih (hr.add again p (kind p)), hr.line?_add]
      -- a path that was added has a line from then on, under the spelling that was first
      by_cases hq : Path.same q p = true
      · rw [if_pos hq, List.find?_cons_of_pos hq, ← line?_congr r hq, ← hkind q p hq]
        cases r.line? q with
        | none => simp [added, kept]
        | some l => cases again <;> simp [added, kept, hq]
      · rw [if_neg hq, List.find?_cons_of_neg hq]
        cases r.line? q with
        | none => rfl
        | some l => simp [kept, hq]

end Report

/-! ## The report -/

variable {incoming changed : List Delta} {p q : String} {k : NotifyKind}

theorem mem_pathsOf {f : Delta → Bool} {ds : List Delta} :
    p ∈ pathsOf f ds ↔ ∃ d ∈ ds, f d = true ∧ d.path? = some p := by
  simp [pathsOf, and_assoc]

/-- Some line of a kind is about a path. -/
theorem any_pathsOf {f : Delta → Bool} {ds : List Delta} :
    (pathsOf f ds).any (Path.same p) = true ↔ ∃ d ∈ ds, d.About p ∧ f d = true := by
  simp only [List.any_eq_true, mem_pathsOf, Delta.About]
  constructor
  · rintro ⟨q, ⟨d, hd, hf, hq⟩, hsame⟩
    exact ⟨d, hd, ⟨q, hq, hsame⟩, hf⟩
  · rintro ⟨d, hd, ⟨q, hq, hsame⟩, hf⟩
    exact ⟨q, ⟨d, hd, hf, hq⟩, hsame⟩

/-- The paths that come in, under any spelling. -/
theorem any_incoming :
    (pathsOf (fun _ => true) incoming).any (Path.same p) = true ↔ Incoming incoming p := by
  rw [any_pathsOf]
  simp [Incoming]

theorem any_dirty : (pathsOf isDirty changed).any (Path.same p) = true ↔ Dirty changed p := by
  rw [any_pathsOf]
  simp [Dirty, isDirty, and_assoc]

theorem any_untracked :
    (pathsOf (·.status = .untracked) changed).any (Path.same p) = true ↔ Untracked changed p := by
  rw [any_pathsOf]
  simp [Untracked]

/-- The kind of a path that comes in. -/
def incomingKind (changed : List Delta) (p : String) : NotifyKind :=
  if (pathsOf isDirty changed ++ pathsOf (·.status = .untracked) changed).any (Path.same p)
  then .conflict else .updated

/-- A report is filled in three passes: what comes in, what is dirty, what is untracked. -/
theorem report_eq : report incoming changed
    = ((Report.addAll true (incomingKind changed) (pathsOf (fun _ => true) incoming) []).addAll
        false (fun _ => .dirty) (pathsOf isDirty changed)).addAll
          false (fun _ => .untracked) (pathsOf (·.status = .untracked) changed) := rfl

theorem report_ordered : (report incoming changed).Ordered := by
  have hnil : Report.Ordered [] := List.Pairwise.nil
  rw [report_eq]
  exact ((hnil.addAll _ _ _).addAll _ _ _).addAll _ _ _

/-- **The three layers of a report.** -/
theorem line?_report : (report incoming changed).line? p
    = (((pathsOf (fun _ => true) incoming).find? (Path.same p)).map
          fun q => (q, incomingKind changed p)).or
        ((((pathsOf isDirty changed).find? (Path.same p)).map fun q => (q, .dirty)).or
          (((pathsOf (·.status = .untracked) changed).find? (Path.same p)).map
            fun q => (q, .untracked))) := by
  have hnil : Report.Ordered [] := List.Pairwise.nil
  have hincoming : ∀ p q, Path.same p q = true → incomingKind changed p = incomingKind changed q := by
    intro p q hsame
    rw [incomingKind, incomingKind, Path.same_congr hsame]
  -- only the first pass may change the kind of a line it finds
  have hkept : ∀ (kind : String → NotifyKind) ps q, Report.kept false kind ps q = id :=
    fun _ _ _ => rfl
  have hfirst := hnil.addAll true (incomingKind changed) (pathsOf (fun _ => true) incoming)
  have hsecond := hfirst.addAll false (fun _ => .dirty) (pathsOf isDirty changed)
  rw [report_eq, hsecond.line?_addAll false (fun _ _ _ => rfl),
    hfirst.line?_addAll false (fun _ _ _ => rfl), hnil.line?_addAll true hincoming, hkept, hkept]
  simp only [Option.map_id, id_eq, Option.or_assoc]
  rfl

/-- A path is spelt as where it stands first. -/
theorem line?_report_path : ((report incoming changed).line? p).map Prod.fst
    = (found incoming changed).find? (Path.same p) := by
  have hpath : ∀ k : NotifyKind, (Prod.fst ∘ fun q : String => (q, k)) = id := fun _ => rfl
  rw [line?_report, found, List.find?_append, List.find?_append, Option.or_assoc]
  simp only [Option.map_or, Option.map_map, hpath, Option.map_id, id_eq]

/-- A pass gives its kind to a path it meets, and none to the others. -/
theorem kind_of_find? (ps : List String) (f : String → Bool) (k : NotifyKind) :
    ((ps.find? f).map fun q => (q, k)).map Prod.snd = if ps.any f then some k else none := by
  cases h : ps.find? f with
  | none =>
      have hnone : ¬ ps.any f = true := by simpa using List.find?_eq_none.mp h
      rw [if_neg hnone]
      rfl
  | some q =>
      have hsome : ps.any f = true :=
        List.any_eq_true.mpr ⟨q, List.mem_of_find?_eq_some h, List.find?_some h⟩
      rw [if_pos hsome]
      rfl

/-- A path has the kind that the comparisons give it. -/
theorem line?_report_kind : ((report incoming changed).line? p).map Prod.snd = some k
    ↔ ToldAs incoming changed p k := by
  have hlocal : (pathsOf isDirty changed
      ++ pathsOf (·.status = .untracked) changed).any (Path.same p) = true
      ↔ Dirty changed p ∨ Untracked changed p := by
    rw [List.any_append, Bool.or_eq_true, any_dirty, any_untracked]
  rw [line?_report, Option.map_or, Option.map_or, kind_of_find?, kind_of_find?, kind_of_find?]
  constructor
  · intro h
    -- the passes in their order: what comes in first, then dirty paths, then untracked ones
    by_cases hi : Incoming incoming p
    · rw [if_pos (any_incoming.mpr hi), Option.some_or, incomingKind] at h
      by_cases hl : Dirty changed p ∨ Untracked changed p
      · rw [if_pos (hlocal.mpr hl)] at h
        rw [← Option.some.inj h]
        exact .conflict hi hl
      · rw [if_neg (mt hlocal.mp hl)] at h
        rw [← Option.some.inj h]
        exact .updated hi (fun hd => hl (Or.inl hd)) (fun hu => hl (Or.inr hu))
    · rw [if_neg (mt any_incoming.mp hi), Option.none_or] at h
      by_cases hd : Dirty changed p
      · rw [if_pos (any_dirty.mpr hd), Option.some_or] at h
        rw [← Option.some.inj h]
        exact .dirty hi hd
      · rw [if_neg (mt any_dirty.mp hd), Option.none_or] at h
        by_cases hu : Untracked changed p
        · rw [if_pos (any_untracked.mpr hu)] at h
          rw [← Option.some.inj h]
          exact .untracked hi hd hu
        · rw [if_neg (mt any_untracked.mp hu)] at h
          exact nomatch h
  · intro h
    cases h with
    | conflict hi hl =>
        rw [if_pos (any_incoming.mpr hi), incomingKind, if_pos (hlocal.mpr hl)]
        rfl
    | updated hi hd hu =>
        rw [if_pos (any_incoming.mpr hi), incomingKind,
          if_neg (mt hlocal.mp (not_or.mpr ⟨hd, hu⟩))]
        rfl
    | dirty hi hd =>
        rw [if_neg (mt any_incoming.mp hi), if_pos (any_dirty.mpr hd)]
        rfl
    | untracked hi hd hu =>
        rw [if_neg (mt any_incoming.mp hi), if_neg (mt any_dirty.mp hd),
          if_pos (any_untracked.mpr hu)]
        rfl

/-- **A report is exact for the comparisons that it is made from.** -/
theorem report_exact (incoming changed : List Delta) :
    (report incoming changed).Exact incoming changed where
  ordered := report_ordered
  told := by
    intro l hl
    rw [report_ordered.mem_iff] at hl
    rw [← line?_report_kind, hl]
    rfl
  complete := by
    intro p k htold
    obtain ⟨l, hl, hkind⟩ := Option.map_eq_some_iff.mp (line?_report_kind.mpr htold)
    exact ⟨l, List.mem_of_find?_eq_some hl, Report.same_of_line? hl, hkind⟩
  spelt := by
    intro l hl
    rw [report_ordered.mem_iff] at hl
    rw [← line?_report_path, hl]
    rfl

/-- An exact report has no line that another one lacks. -/
theorem Report.Exact.subset {r s : Report} (hr : r.Exact incoming changed)
    (hs : s.Exact incoming changed) : r ⊆ s := by
  intro l hl
  obtain ⟨m, hm, hsame, hkind⟩ := hs.complete l.1 l.2 (hr.told l hl)
  have hpath : m.1 = l.1 := by
    have hspelt := hs.spelt m hm
    rw [← Path.same_congr hsame, hr.spelt l hl] at hspelt
    exact (Option.some.inj hspelt).symm
  obtain rfl : m = l := Prod.ext hpath hkind
  exact hm

/-- **There is one exact report.** -/
theorem Report.Exact.unique {r s : Report} (hr : r.Exact incoming changed)
    (hs : s.Exact incoming changed) : r = s := by
  -- strictly ordered lines do not repeat, so one set of lines is one list
  have hnodup : ∀ t : Report, t.Exact incoming changed → t.Nodup := by
    intro t ht
    refine ht.ordered.imp ?_
    intro a b hlt heq
    rw [heq, Path.compare_eq_iff.mpr (Path.same_refl b.1)] at hlt
    exact nomatch hlt
  have hperm : r.Perm s := (List.perm_ext_iff_of_nodup (hnodup r hr) (hnodup s hs)).mpr
    fun _ => ⟨fun hl => hr.subset hs hl, fun hl => hs.subset hr hl⟩
  refine hperm.eq_of_pairwise ?_ hr.ordered hs.ordered
  intro a b _ _ hab hba
  rw [Std.OrientedCmp.gt_iff_lt.mpr hab] at hba
  exact nomatch hba

end Preview

end Gitwork
