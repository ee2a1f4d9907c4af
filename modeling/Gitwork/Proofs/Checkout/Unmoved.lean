import Gitwork.Proofs.Checkout.Head

/-! # Checkouts after which `HEAD` cannot move

    A checkout writes before it looks whether `HEAD` can move.  What it writes is
    decided by its plan: after a success the repository is what the steps of the
    plan make of it (`Checkout.object_ensures`), which are files and the index.
    Whether `HEAD` can move is decided by the references and the objects, which
    are as before (`Repo.movable_iff`).

    So if `HEAD` cannot move, the operation fails and all that was written stays
    (`unmoved_head_keeps_files`). -/

namespace Gitwork

/-! ## What a plan writes -/

/-- The repository after all steps of a task. -/
def CheckoutTask.written (t : CheckoutTask) (r : Repo) : Repo :=
  (t.steps (t.plan r.index r.files)).foldl (Repo.checkoutStep t.updateIndex) r

/-- What a checkout of files is asked to do. -/
def CheckoutSettings.task (s : CheckoutSettings) (baseline target : Files) : CheckoutTask where
  baseline := baseline
  target := target
  conflicts := []
  force := s.strategy = .force
  recreate := s.strategy = .force
  sizesKnown := false
  removeUntracked := s.removeUntracked
  updateIndex := true
  paths := s.paths

/-- All but the files and the index. -/
def Repo.apart (r : Repo) : Repo := { r with files := [], index := .empty }

/-- Repositories that agree apart from files and index differ in these alone. -/
theorem Repo.eq_of_apart {r r' : Repo} (h : r'.apart = r.apart) :
    r' = { r with files := r'.files, index := r'.index } := by
  cases r
  cases r'
  simp only [Repo.apart, Repo.mk.injEq] at h ⊢
  obtain ⟨hdir, hwork, hobjects, hrefs, -, -, hsettings, hremotes, hconfig⟩ := h
  exact ⟨hdir, hwork, hobjects, hrefs, trivial, trivial, hsettings, hremotes, hconfig⟩

/-- A step of a checkout writes files and index only. -/
theorem Repo.checkoutStep_apart (updateIndex : Bool) (r : Repo) (step : CheckoutStep) :
    (r.checkoutStep updateIndex step).apart = r.apart := by
  cases step with
  | remove path => cases updateIndex <;> rfl
  | write path content => cases updateIndex <;> rfl
  | conflict path sides shown => cases updateIndex <;> rfl

/-- Steps write files and the index. -/
theorem CheckoutTask.written_apart (t : CheckoutTask) (r : Repo) :
    (t.written r).apart = r.apart := by
  rw [written]
  generalize t.steps (t.plan r.index r.files) = steps
  induction steps generalizing r with
  | nil => rfl
  | cons step rest ih => exact (ih _).trans (r.checkoutStep_apart t.updateIndex step)

namespace Checkout

variable {wanted : List NotifyKind} {s : CheckoutSettings} {r : Repo}

/-- The steps are made one after the other. -/
theorem perform_ensures (updateIndex : Bool) (total done : Nat) (steps : List CheckoutStep) :
    (perform updateIndex total done steps).Ensures r fun _ t =>
      t = steps.foldl (Repo.checkoutStep updateIndex) r := by
  induction steps generalizing done r with
  | nil => exact .pure rfl
  | cons step rest ih =>
      refine (Engine.Ensures.modify _).bind fun _ t ht => ?_
      subst ht
      refine (Engine.Keeps.inform _).ensures.bind fun _ t ht => ?_
      subst ht
      exact ih (done + 1)

/-- A task that comes to its end has written what it was to write. -/
theorem run_ensures (t : CheckoutTask) : (run wanted t).Ensures r fun _ r' => r' = t.written r := by
  refine Engine.Ensures.get.bind ?_
  rintro _ _ ⟨rfl, rfl⟩
  refine (notify_keeps _).ensures.bind fun _ r' hr' => .guard ?_
  subst hr'
  refine (Engine.Keeps.inform _).ensures.bind fun _ r' hr' => ?_
  subst hr'
  exact perform_ensures _ _ _ _

/-- A checkout of files that comes to its end has written them over the baseline. -/
theorem files_ensures (target : Files) : (files wanted s target).Ensures r fun _ r' =>
    ∃ base, baseline r = .ok base ∧ r' = (s.task base target).written r := by
  refine Engine.Ensures.get.bind ?_
  rintro _ _ ⟨rfl, rfl⟩
  refine .guard (.guard ?_)
  refine (Engine.Ensures.ofExcept _).bind ?_
  rintro base _ ⟨hbase, rfl⟩
  exact (run_ensures _).imp fun out hout a ha => ⟨base, hbase, hout a ha⟩

/-- **A checkout that ends well has done all steps of its plan, and nothing else.** -/
theorem object_ensures (id : Oid) : (object wanted s id).Ensures r fun _ r' =>
    ∃ target base, r.objects.treeOf id = .ok target ∧ baseline r = .ok base
      ∧ r' = (s.task base target).written r := by
  refine Engine.Ensures.get.bind ?_
  rintro _ _ ⟨rfl, rfl⟩
  split
  · next target htree =>
      refine (files_ensures target).imp fun out hout a ha => ?_
      obtain ⟨base, hbase, hwritten⟩ := hout a ha
      exact ⟨target, base, htree, hbase, hwritten⟩
  · exact .throw _

end Checkout

/-! ## Whether `HEAD` can move -/

namespace Repo

variable {r r' : Repo} {d : Designated}

/-- There is a value for `HEAD`, it can be looked up if it is a name, and `HEAD` can
    be read and is not locked. -/
structure Movable (r : Repo) (d : Designated) : Prop where
  value : ∃ v, r.Heads d v ∧ r.refs.checkTarget v = .ok ()
  head : ∃ old, r.refs.find RefName.head = .ok old
  free : RefName.head ∉ r.refs.locked

/-- HEAD can be put at a value exactly if the value is one to keep and HEAD is readable and
    unlocked. -/
theorem putHead_iff {v : RefValue} {shown : String} : (∃ moved, r.putHead v shown = .ok moved)
    ↔ r.refs.checkTarget v = .ok () ∧ (∃ old, r.refs.find RefName.head = .ok old)
      ∧ RefName.head ∉ r.refs.locked := by
  rw [putHead]
  constructor
  · rintro ⟨moved, h⟩
    obtain ⟨old, hold, h⟩ := bind_eq_ok_iff.mp h
    obtain ⟨done, htarget, h⟩ := bind_eq_ok_iff.mp h
    refine ⟨htarget, ⟨old, hold⟩, fun hlocked => ?_⟩
    rw [if_pos (List.contains_iff_mem.mpr hlocked)] at h
    cases h
  · rintro ⟨htarget, ⟨old, hold⟩, hfree⟩
    have hfree : ¬ r.refs.locked.contains RefName.head = true := mt List.contains_iff_mem.mp hfree
    rw [hold, htarget]
    simp only [bind, Except.bind, if_neg hfree]
    exact ⟨_, rfl⟩

/-- **`HEAD` moves exactly if it can.** -/
theorem movable_iff : (∃ moved, r.moveHead d = .ok moved) ↔ r.Movable d := by
  -- a branch makes HEAD symbolic, and anything else is peeled to a commit first
  rcases branch_or_other d with ⟨name, hname, hbranch⟩ | hother
  · rw [moveHead_branch hname hbranch, putHead_iff]
    constructor
    · rintro ⟨htarget, hhead, hfree⟩
      exact ⟨⟨_, .branch hname hbranch, htarget⟩, hhead, hfree⟩
    · rintro ⟨⟨v, hv, htarget⟩, hhead, hfree⟩
      cases hv with
      | branch hname' _ =>
          obtain rfl := Option.some.inj (hname.symm.trans hname')
          exact ⟨htarget, hhead, hfree⟩
      | commit hother _ => exact absurd ((hother name hname).symm.trans hbranch) Bool.false_ne_true
  · rw [moveHead_other hother]
    constructor
    · rintro ⟨moved, h⟩
      obtain ⟨id, hpeel, hput⟩ := bind_eq_ok_iff.mp h
      obtain ⟨htarget, hhead, hfree⟩ := putHead_iff.mp ⟨moved, hput⟩
      exact ⟨⟨_, .commit hother hpeel, htarget⟩, hhead, hfree⟩
    · rintro ⟨⟨v, hv, htarget⟩, hhead, hfree⟩
      cases hv with
      | branch hname hbranch =>
          exact absurd ((hother _ hname).symm.trans hbranch) Bool.false_ne_true
      | @commit id _ hpeel =>
          obtain ⟨moved, hput⟩ : ∃ moved, r.putHead (.direct id) id.hex = .ok moved :=
            putHead_iff.mpr ⟨htarget, hhead, hfree⟩
          refine ⟨moved, ?_⟩
          rw [moveHead.detach, hpeel]
          exact hput

/-- The references and the objects decide. -/
theorem Movable.of_held (h : r.Movable d) (hheld : r.held = r'.held) : r'.Movable d := by
  have hrefs : r.refs = r'.refs := congrArg Prod.fst hheld
  have hobjects : r.objects = r'.objects := congrArg Prod.snd hheld
  obtain ⟨⟨v, hv, htarget⟩, hhead, hfree⟩ := h
  rw [hrefs] at htarget hhead hfree
  exact ⟨⟨v, hv.of_objects hobjects, htarget⟩, hhead, hfree⟩

/-- What a checkout does that leaves `HEAD` alone. -/
theorem checkoutTree_eq {caller : ThreadId} {rev : String} {handlers : HandlerSet}
    {s : CheckoutSettings} (hwrites : s.strategy ≠ .dryRun) (hrev : r.revision rev = .ok d) :
    r.checkoutTree caller rev handlers s
      = operate caller handlers (Checkout.object handlers.wanted s d.id) r := by
  rw [checkoutTree, hrev]
  exact if_neg hwrites

/-- The other one moves `HEAD` in what that has left. -/
theorem checkout_eq {caller : ThreadId} {rev : String} {handlers : HandlerSet}
    {s : CheckoutSettings} (hwrites : s.strategy ≠ .dryRun) (hrev : r.revision rev = .ok d)
    (hdone : (r.checkoutTree caller rev handlers s).result = .ok ()) :
    let done := r.checkoutTree caller rev handlers s
    r.checkout caller rev handlers s = match done.state.moveHead d with
      | .ok moved => { done with state := moved }
      | .error e => { done with result := .error (.ofNative e) } := by
  intro done
  have hdone' : done = operate caller handlers (Checkout.object handlers.wanted s d.id) r :=
    checkoutTree_eq hwrites hrev
  have hresult : done.result = .ok () := hdone
  rw [checkout, checkoutBy, hrev]
  dsimp only
  rw [if_neg hwrites, ← hdone']
  split
  · next e he => cases hresult.symm.trans he
  · rfl

end Repo

/-- **What is left of a checkout after which `HEAD` cannot move.**

    Take any repository, revision, set of handlers and settings, no dry run, for
    which the checkout without a move of `HEAD` ends well.  Then the checkout that
    moves it fails exactly if `HEAD` cannot move to what the revision names: that is
    no branch and does not lead to a commit, or it is a name that cannot be looked
    up, or `HEAD` is locked or cannot be read.

    If it fails, all steps of the plan have been done all the same, and they stay:
    files and index are those that the other checkout leaves.  So they are as they
    were before only if there was nothing to write.  All else is as it was, the
    references among it. -/
theorem unmoved_head_keeps_files (r : Repo) (caller : ThreadId) (rev : String)
    (handlers : HandlerSet) {s : CheckoutSettings} (hwrites : s.strategy ≠ .dryRun)
    (hdone : (r.checkoutTree caller rev handlers s).result = .ok ()) :
    ∃ d target base, r.revision rev = .ok d ∧ r.objects.treeOf d.id = .ok target
      ∧ Checkout.baseline r = .ok base ∧
        let o := r.checkout caller rev handlers s
        let written := (s.task base target).written r
        ((∃ e, o.result = .error e) ↔ ¬ r.Movable d)
          ∧ (r.checkoutTree caller rev handlers s).state = written
          ∧ ((∃ e, o.result = .error e) → o.state = written
            ∧ (o.state.files = r.files ∧ o.state.index = r.index ↔ written = r))
          ∧ written = { r with files := written.files, index := written.index } := by
  obtain ⟨d, hrev⟩ : ∃ d, r.revision rev = .ok d := by
    cases hrev : r.revision rev with
    | ok d => exact ⟨d, rfl⟩
    | error e =>
        rw [Repo.checkoutTree, hrev] at hdone
        cases hdone
  have hnative : r.checkoutTree caller rev handlers s
      = operate caller handlers (Checkout.object handlers.wanted s d.id) r :=
    Repo.checkoutTree_eq hwrites hrev
  have ho := Repo.checkout_eq hwrites hrev hdone
  -- the references and objects are as before, so HEAD can be moved after as it could before
  have hkeeps : (Checkout.object handlers.wanted s d.id).Keeps Repo.held :=
    Checkout.object_keeps d.id
  have hheld := hkeeps.operate caller handlers r
  obtain ⟨target, base, htree, hbase, hstate⟩ :=
    (Checkout.object_ensures d.id).operate (hnative ▸ hdone)
  rw [← hnative] at hheld hstate
  refine ⟨d, target, base, hrev, htree, hbase, ?_⟩
  intro o written
  have ho : o = _ := ho
  generalize r.checkoutTree caller rev handlers s = done at hdone hheld hstate ho ⊢
  have hwritten : written = { r with files := written.files, index := written.index } :=
    Repo.eq_of_apart ((s.task base target).written_apart r)
  -- the checkout fails exactly if the move does
  cases hmove : done.state.moveHead d with
  | ok moved =>
      have hmovable : r.Movable d := (Repo.movable_iff.mp ⟨moved, hmove⟩).of_held hheld
      rw [hmove] at ho
      have hok : o.result = .ok () := by rw [ho, hdone]
      refine ⟨⟨?_, fun hnot => absurd hmovable hnot⟩, hstate, ?_, hwritten⟩
      · rintro ⟨e, he⟩
        cases hok.symm.trans he
      · rintro ⟨e, he⟩
        cases hok.symm.trans he
  | error e =>
      have hunmovable : ¬ r.Movable d := by
        intro hmovable
        obtain ⟨moved, hmoved⟩ := Repo.movable_iff.mpr (hmovable.of_held hheld.symm)
        cases hmove.symm.trans hmoved
      rw [hmove] at ho
      have hleft : o.state = written := by rw [ho, hstate]
      refine ⟨⟨fun _ => hunmovable, fun _ => ⟨_, by rw [ho]⟩⟩, hstate, fun _ => ⟨hleft, ?_⟩,
        hwritten⟩
      rw [hleft]
      constructor
      · rintro ⟨hfiles, hindex⟩
        rw [hwritten, hfiles, hindex]
      · intro hsame
        rw [hsame]
        exact ⟨rfl, rfl⟩

/-! ### A tag of a tree -/

namespace TreeTag

def tree : Oid := ⟨"2222222222222222222222222222222222222222"⟩

/-- A repository without commits that has a file and a tag of a tree with another
    version of it. -/
def repo : Repo :=
  { Repo.init "/r" false default "refs/heads/main" with
    objects := [(tree, .tree [("a", [50])])]
    files := [("a", [49])]
    refs := { RefStore.empty true default with
      values := [("HEAD", .symbolic "refs/heads/main"), ("refs/tags/t", .direct tree)] } }

def force : CheckoutSettings := { CheckoutSettings.default with strategy := .force }

theorem checkoutTree_done : (repo.checkoutTree 1 "t" (.empty .checkout) force).result = .ok () := by
  decide +kernel

end TreeTag

/-- `HEAD` cannot move to a tree, and the checkout of the tree stays. -/
theorem unmoved_head_keeps_files_treeTag :
    ∃ d, TreeTag.repo.revision "t" = .ok d ∧ ¬ TreeTag.repo.Movable d
      ∧ (TreeTag.repo.checkout 1 "t" (.empty .checkout) TreeTag.force).state
        = (TreeTag.repo.checkoutTree 1 "t" (.empty .checkout) TreeTag.force).state := by
  obtain ⟨d, target, base, hrev, -, -, hfails, hstate, hleft, -⟩ := unmoved_head_keeps_files
    TreeTag.repo 1 "t" (.empty .checkout) (s := TreeTag.force) (by decide) TreeTag.checkoutTree_done
  have hfailed : ∃ e, (TreeTag.repo.checkout 1 "t" (.empty .checkout) TreeTag.force).result
      = .error e := ⟨.ofNative .invalidSpec, by decide +kernel⟩
  exact ⟨d, hrev, hfails.mp hfailed, (hleft hfailed).1.trans hstate.symm⟩

/-- The checkout of the tree would end well, the checkout with `HEAD` fails, and the
    file and the index are those of the tree. -/
theorem failed_checkout_overwrites :
    (TreeTag.repo.checkoutTree 1 "t" (.empty .checkout) TreeTag.force).result = .ok ()
      ∧ (TreeTag.repo.checkout 1 "t" (.empty .checkout) TreeTag.force).result
        = .error (.ofNative .invalidSpec)
      ∧ (TreeTag.repo.checkout 1 "t" (.empty .checkout) TreeTag.force).state.files
        ≠ TreeTag.repo.files
      ∧ (TreeTag.repo.checkout 1 "t" (.empty .checkout) TreeTag.force).state.index
        ≠ TreeTag.repo.index := by
  refine ⟨TreeTag.checkoutTree_done, ?_, ?_, ?_⟩
  · decide +kernel
  · decide +kernel
  · decide +kernel

end Gitwork
