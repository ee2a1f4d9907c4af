import Gitwork.Proofs.Checkout.Preview
import Gitwork.Proofs.Revision

/-! # Dry runs with a handler that always declines

    Each dry run is a preview (`dryRuns_eq_preview`), and a preview writes
    nothing.  Without a handler for notifications nothing is wanted, so it
    ends before the comparisons are made (`preview_unwanted`).  With one that
    always declines they are made, and if that fails, so does the dry run
    (`preview_quiet`).

    So the two agree exactly if the comparisons can be made, or are never come
    to (`declining_dry_run`).  In a bare repository they cannot be made
    (`declining_dry_run_differs`). -/

namespace Gitwork

namespace Preview

/-- Both comparisons can be made: `HEAD` leads to a tree or to nothing yet, and
    there is a working directory. -/
def Comparable (r : Repo) : Prop := r.isBare = false ∧ ∃ files, headFiles r = .ok files

/-- The comparisons succeed exactly in a repository with a work tree and a readable HEAD. -/
theorem comparisons_ok_iff {paths : List String} {target : Files} {r : Repo} :
    (∃ c, comparisons paths target r = .ok c) ↔ Comparable r := by
  rw [Comparable, comparisons]
  cases headFiles r with
  | error e =>
      constructor
      · rintro ⟨c, hc⟩
        exact nomatch hc
      · rintro ⟨-, files, hfiles⟩
        exact nomatch hfiles
  | ok files =>
      cases hbare : r.isBare with
      | true =>
          constructor
          · rintro ⟨c, hc⟩
            exact nomatch hc
          · rintro ⟨hfalse, -⟩
            exact nomatch hfalse
      | false => exact ⟨fun _ => ⟨rfl, files, rfl⟩, fun _ => ⟨_, rfl⟩⟩

end Preview

/-- Calls that all pass are all made. -/
theorem UntilFailure.cut_eq_none {ρ : Type} {answer : List Call → Call → Outcome ρ}
    (hpass : ∀ earlier c, (answer earlier c).Passes) {earlier due made : List Call}
    {cut : Option (Outcome ρ)} (h : UntilFailure answer earlier due made cut) : cut = none := by
  induction h with
  | all _ => rfl
  | passed _ _ ih => exact ih
  | cut hcut => exact absurd (hpass _ _) hcut

/-- How an operation ends that leaves the state alone. -/
structure Operated.Still {σ α : Type} (o : Operated σ α) (s : σ) (result : Except Error α) :
    Prop where
  result : o.result = result
  state : o.state = s
  panicked : o.panicked = none

namespace Repo

variable {r : Repo} {caller : ThreadId} {rev : String} {s : CheckoutSettings} {x : HandlerSet}
  {files : Files} {e : NativeError}

/-! ## How a preview ends -/

/-- Nothing is asked for, so nothing is looked at. -/
theorem preview_unwanted (hx : x.wanted = []) :
    (r.preview caller x s (.ok files)).Still r (.ok ()) := by
  rw [preview, hx]
  exact ⟨rfl, rfl, rfl⟩

/-- A preview whose comparisons fail reports that, although nothing was to be written. -/
theorem preview_unreadable (hx : x.wanted ≠ [])
    (he : Preview.comparisons s.paths files r = .error e) :
    (r.preview caller x s (.ok files)).Still r (.error (.ofNative e)) := by
  rw [preview, operate, Preview.tree_run_error hx he]
  exact ⟨rfl, rfl, rfl⟩

/-- A preview that only passes tells nothing that counts. -/
theorem preview_passes (hpass : ∀ earlier c, (x.outcome .checkoutNotify earlier c).Passes)
    {c : List Delta × List Delta} (hc : Preview.comparisons s.paths files r = .ok c) :
    (r.preview caller x s (.ok files)).Still r (.ok ()) := by
  obtain ⟨made, cut, huntil, -, ho⟩ := Preview.operate_run caller x hc
  rw [huntil.cut_eq_none hpass] at ho
  rw [preview, ho]
  exact ⟨rfl, rfl, rfl⟩

/-! ## Dry runs -/

/-- The operations that can be dry runs, each with the files that it is about. -/
def dryRuns (r : Repo) (caller : ThreadId) (rev : String) (s : CheckoutSettings) :
    List ((HandlerSet → Operated Repo Unit) × Except NativeError Files) :=
  let named := r.revision rev >>= fun d => r.objects.treeOf d.id
  [(fun x => r.checkout caller rev x s, named), (fun x => r.checkoutTree caller rev x s, named),
    (fun x => r.checkoutHead caller x s, r.headTree)]

/-- A dry-run checkout is a preview of the tree behind its revision. -/
theorem checkout_dryRun (hdry : s.strategy = .dryRun) : r.checkout caller rev x s
    = r.preview caller x s (r.revision rev >>= fun d => r.objects.treeOf d.id) := by
  rw [checkout, checkoutBy]
  cases r.revision rev with
  | error e => rfl
  | ok d => exact if_pos hdry

/-- A dry run of a tree is a preview of the tree behind its revision. -/
theorem checkoutTree_dryRun (hdry : s.strategy = .dryRun) : r.checkoutTree caller rev x s
    = r.preview caller x s (r.revision rev >>= fun d => r.objects.treeOf d.id) := by
  rw [checkoutTree]
  cases r.revision rev with
  | error e => rfl
  | ok d => exact if_pos hdry

/-- The dry runs are previews of one tree. -/
theorem dryRuns_eq_preview (hdry : s.strategy = .dryRun) :
    ∀ d ∈ r.dryRuns caller rev s, ∀ x, d.1 x = r.preview caller x s d.2 := by
  intro d hd x
  simp only [dryRuns, List.mem_cons, List.not_mem_nil, or_false] at hd
  rcases hd with rfl | rfl | rfl
  · exact checkout_dryRun hdry
  · exact checkoutTree_dryRun hdry
  · exact if_pos hdry

end Repo

/-- A handler that always declines lets every call pass, as an absent one does. -/
theorem HandlerSet.outcome_passes {x : HandlerSet} {site : CallSite} {f : Handler site}
    (hx : x.handler? site = some f) (hf : f.Declines) (earlier : List Call) (c : Call) :
    (x.outcome site earlier c).Passes := by
  rw [outcome, hx, Option.elim_some, hf]
  trivial

/-- **When a declining handler makes no difference to a dry run.**

    Take a repository, a revision, settings of a dry run, a set of handlers
    without one for notifications and a set with one that always declines.
    Neither run writes anything.  Both end the same exactly if there is nothing
    to check out, or the second set wants no notifications, or the comparisons
    can be made.  Otherwise the run without a handler ends well, and the other
    one with the failure of the comparisons. -/
theorem declining_dry_run (r : Repo) (caller : ThreadId) (rev : String) {s : CheckoutSettings}
    (hdry : s.strategy = .dryRun) {x y : HandlerSet} (hx : x.handler? .checkoutNotify = none)
    {f : Handler .checkoutNotify} (hy : y.handler? .checkoutNotify = some f) (hf : f.Declines) :
    ∀ d ∈ r.dryRuns caller rev s,
      (d.1 x).state = r ∧ (d.1 y).state = r
        ∧ ((d.1 y).result = (d.1 x).result
          ↔ (∃ e, d.2 = .error e) ∨ y.notifyOn = [] ∨ Preview.Comparable r)
        ∧ ((d.1 y).result ≠ (d.1 x).result →
          (d.1 x).result = .ok () ∧ ∃ e, (d.1 y).result = .error (.ofNative e)) := by
  intro d hd
  rw [Repo.dryRuns_eq_preview hdry d hd x, Repo.dryRuns_eq_preview hdry d hd y]
  obtain ⟨op, target⟩ := d
  -- without a handler nothing is wanted, and nothing is compared
  have hunwanted : x.wanted = [] := by
    rw [HandlerSet.wanted, HandlerSet.has, hx]
    rfl
  have hwanted : y.wanted = y.notifyOn := by
    rw [HandlerSet.wanted, HandlerSet.has, hy]
    rfl
  cases target with
  | error e =>
      refine ⟨rfl, rfl, ⟨fun _ => Or.inl ⟨e, rfl⟩, fun _ => rfl⟩, fun hne => absurd rfl hne⟩
  | ok files =>
      have hwithout : (r.preview caller x s (.ok files)).Still r (.ok ()) :=
        Repo.preview_unwanted hunwanted
      rw [hwithout.result, hwithout.state]
      -- an empty mask is not compared either, with or without a handler
      by_cases hnone : y.notifyOn = []
      · have hwith : (r.preview caller y s (.ok files)).Still r (.ok ()) :=
          Repo.preview_unwanted (hwanted.trans hnone)
        rw [hwith.result, hwith.state]
        exact ⟨rfl, rfl, ⟨fun _ => Or.inr (Or.inl hnone), fun _ => rfl⟩, fun hne => absurd rfl hne⟩
      · -- with a handler and a mask, the comparisons decide
        cases hc : Preview.comparisons s.paths files r with
        | ok c =>
            have hwith : (r.preview caller y s (.ok files)).Still r (.ok ()) :=
              Repo.preview_passes (HandlerSet.outcome_passes hy hf) hc
            have hcomparable := Preview.comparisons_ok_iff.mp ⟨c, hc⟩
            rw [hwith.result, hwith.state]
            exact ⟨rfl, rfl, ⟨fun _ => Or.inr (Or.inr hcomparable), fun _ => rfl⟩,
              fun hne => absurd rfl hne⟩
        | error e =>
            have hwith : (r.preview caller y s (.ok files)).Still r (.error (.ofNative e)) :=
              Repo.preview_unreadable (fun h => hnone (hwanted.symm.trans h)) hc
            rw [hwith.result, hwith.state]
            refine ⟨rfl, rfl, ⟨?_, ?_⟩, fun _ => ⟨rfl, e, rfl⟩⟩
            · intro heq
              cases heq
            · rintro (⟨e', he'⟩ | hnone' | hcomparable)
              · cases he'
              · exact absurd hnone' hnone
              · obtain ⟨c, hok⟩ := Preview.comparisons_ok_iff.mpr hcomparable
                cases hc.symm.trans hok

/-! ## A bare repository -/

namespace OneCommit

def first : Commit := ⟨[], [], default, "first"⟩

def tip : Oid := ⟨"1111111111111111111111111111111111111111"⟩

def refs : RefStore :=
  { RefStore.empty true default with
    values := [("HEAD", .symbolic "refs/heads/main"), ("refs/heads/main", .direct tip),
      ("refs/heads/next", .direct tip)] }

/-- A repository with two branches at one commit, without files. -/
def repo (bare : Bool) : Repo :=
  { Repo.init "/r" bare default "refs/heads/main" with
    objects := [(tip, .commit first), (Object.treeId [], .tree [])]
    refs }

theorem find_tip (bare : Bool) : (repo bare).objects.find tip = .ok (.commit first) := by
  have hid : tip.isZero = false := by decide
  rw [ObjectStore.find, ObjectStore.get?, hid]
  rfl

theorem treeId_nil : Object.treeId [] = ⟨"4b825dc642cb6eb9a060e54bf8d69288fbee4904"⟩ := by
  decide +kernel

/-- The tree without entries is in every store. -/
theorem find_tree (bare : Bool) : (repo bare).objects.find (Object.treeId []) = .ok (.tree []) := by
  have hid : (Object.treeId []).isZero = false := by
    rw [treeId_nil]
    decide
  have hother : (Object.treeId [] == tip) = false := by
    rw [treeId_nil]
    decide
  have hlookup : (repo bare).objects.lookup (Object.treeId []) = some (.tree []) := by
    rw [repo, List.lookup_cons, hother]
    exact List.lookup_cons_self
  rw [ObjectStore.find, ObjectStore.get?, hid, if_neg Bool.false_ne_true, hlookup]

theorem treeOf_tip (bare : Bool) : (repo bare).objects.treeOf tip = .ok [] :=
  ObjectStore.treeOf_commit (find_tip bare) (find_tree bare)

/-- Each branch names the commit. -/
theorem revision {name : String} (bare : Bool) (hname : name ∈ ["main", "next"]) :
    (repo bare).revision name = .ok ⟨tip, some ("refs/heads/" ++ name)⟩ := by
  simp only [List.mem_cons, List.not_mem_nil, or_false] at hname
  rcases hname with rfl | rfl
  · have hexpand : (repo bare).expandName "main" = .ok ("refs/heads/main", tip) := rfl
    exact revision_of_name (by decide) (by decide) (by decide) hexpand
      (find_tip bare)
  · have hexpand : (repo bare).expandName "next" = .ok ("refs/heads/next", tip) := rfl
    exact revision_of_name (by decide) (by decide) (by decide) hexpand
      (find_tip bare)

theorem headFiles (bare : Bool) : Preview.headFiles (repo bare) = .ok [] := by
  have hhead : (repo bare).refs.head = .ok ("refs/heads/main", tip) := rfl
  rw [Preview.headFiles, hhead]
  exact treeOf_tip bare

end OneCommit

def dryRun : CheckoutSettings := { CheckoutSettings.default with strategy := .dryRun }

/-- Wants no notifications at all, or all of conflicts and declines. -/
def withoutHandler : HandlerSet := .empty .checkout

def withDeclining : HandlerSet := withoutHandler.install .checkoutNotify .declining

/-- With a working directory, the comparisons can be made. -/
theorem declining_dry_run_agrees :
    (OneCommit.repo false).isBare = false
      ∧ ((OneCommit.repo false).checkout 1 "main" withDeclining dryRun).result
        = ((OneCommit.repo false).checkout 1 "main" withoutHandler dryRun).result := by
  have hbare : (OneCommit.repo false).isBare = false := rfl
  have h := declining_dry_run (OneCommit.repo false) 1 "main" (s := dryRun) rfl
    (x := withoutHandler) (y := withDeclining) rfl rfl (fun _ _ => rfl) _ List.mem_cons_self
  exact ⟨hbare, h.2.2.1.mpr (Or.inr (Or.inr ⟨hbare, [], OneCommit.headFiles false⟩))⟩

/-- Without one they cannot, and the dry run fails with the handler only. -/
theorem declining_dry_run_differs :
    ((OneCommit.repo true).checkoutTree 1 "main" withoutHandler dryRun).result = .ok ()
      ∧ ((OneCommit.repo true).checkoutTree 1 "main" withDeclining dryRun).result
        = .error (.ofNative .bare) := by
  have htarget : ((OneCommit.repo true).revision "main" >>= fun d =>
      (OneCommit.repo true).objects.treeOf d.id) = .ok [] :=
    treeOf_revision (OneCommit.revision true List.mem_cons_self) (OneCommit.treeOf_tip true)
  have hbare : Preview.comparisons dryRun.paths [] (OneCommit.repo true) = .error .bare := by
    rw [Preview.comparisons, OneCommit.headFiles]
    rfl
  rw [Repo.checkoutTree_dryRun rfl, Repo.checkoutTree_dryRun rfl, htarget]
  exact ⟨(Repo.preview_unwanted rfl).result, (Repo.preview_unreadable (by decide) hbare).result⟩

end Gitwork
