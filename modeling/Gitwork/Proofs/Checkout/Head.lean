import Gitwork.Proofs.Checkout.DryRun
import Gitwork.Proofs.Operation
import Gitwork.Proofs.Ref.Commit
import Gitwork.Proofs.Ref.Name

/-! # When `HEAD` moves

    A checkout works on the index and on the working directory; it leaves the
    references and the objects alone (`Checkout.object_keeps`).  `HEAD` moves
    after it, by a step that either fails or gives `HEAD` the value that was
    asked for (`Repo.putHead_ok`).

    The main result is about every engine that leaves references and objects
    alone, whatever it calls (`head_moves_last`). -/

namespace Gitwork

/-! ## What a checkout leaves alone -/

/-- The references and the objects. -/
def Repo.held (r : Repo) : RefStore × ObjectStore := (r.refs, r.objects)

/-- A step of a checkout writes files and index only. -/
theorem Repo.checkoutStep_held (updateIndex : Bool) (r : Repo) (step : CheckoutStep) :
    (r.checkoutStep updateIndex step).held = r.held := by
  cases step with
  | remove path => cases updateIndex <;> rfl
  | write path content => cases updateIndex <;> rfl
  | conflict path sides shown => cases updateIndex <;> rfl

namespace Checkout

variable {wanted : List NotifyKind} {s : CheckoutSettings}

/-- Telling what was found writes nothing. -/
theorem notify_keeps {γ : Type} {part : Repo → γ} (notices : List Notice) :
    (notify wanted notices).Keeps part := by
  induction notices with
  | nil => exact .pure ()
  | cons n rest ih =>
      obtain ⟨kind, path⟩ := n
      rw [notify]
      split
      · exact (Engine.Keeps.tell _).bind fun _ => ih
      · exact ih

/-- The steps of a checkout keep references and objects. -/
theorem perform_keeps (updateIndex : Bool) (total done : Nat) (steps : List CheckoutStep) :
    (perform updateIndex total done steps).Keeps Repo.held := by
  induction steps generalizing done with
  | nil => exact .pure ()
  | cons step rest ih =>
      refine (Engine.Keeps.modify fun r => r.checkoutStep_held updateIndex step).bind fun _ => ?_
      exact (Engine.Keeps.inform _).bind fun _ => ih (done + 1)

theorem run_keeps (t : CheckoutTask) : (run wanted t).Keeps Repo.held := by
  refine Engine.Keeps.get.bind fun r => (notify_keeps _).bind fun _ => .guard ?_
  exact (Engine.Keeps.inform _).bind fun _ => perform_keeps _ _ _ _

theorem files_keeps (target : Files) : (files wanted s target).Keeps Repo.held := by
  refine Engine.Keeps.get.bind fun r => .guard (.guard ?_)
  exact (Engine.Keeps.ofExcept _).bind fun _ => run_keeps _

/-- **A checkout leaves the references and the objects alone.** -/
theorem object_keeps (id : Oid) : (object wanted s id).Keeps Repo.held := by
  refine Engine.Keeps.get.bind fun r => ?_
  split
  · exact files_keeps _
  · exact .throw _

end Checkout

/-! ## What a preview leaves alone -/

namespace Preview

variable {σ : Type} {wanted : List NotifyKind}

/-- Telling a report changes nothing. -/
theorem tell_keeps (report : Report) : (tell wanted report : Engine σ Unit).Keeps id := by
  induction report with
  | nil => exact .pure ()
  | cons l rest ih =>
      rw [tell]
      split
      · refine (Engine.Keeps.ask _).bind fun reply => ?_
        split
        · exact ih
        · exact .pure ()
      · exact ih

theorem run_keeps (compared : σ → Except NativeError (List Delta × List Delta)) :
    (run wanted compared).Keeps id := by
  rw [run]
  split
  · exact .pure ()
  · exact Engine.Keeps.get.bind fun _ => (Engine.Keeps.ofExcept _).bind fun _ => tell_keeps _

end Preview

namespace Repo

variable {r moved : Repo} {caller : ThreadId} {rev : String} {handlers : HandlerSet}
  {s : CheckoutSettings}

/-- Whatever the handlers do, a preview writes nothing. -/
theorem preview_state (target : Except NativeError Files) :
    (r.preview caller handlers s target).state = r := by
  cases target with
  | error e => rfl
  | ok files => exact (Preview.run_keeps _).operate caller handlers r

/-! ## Moving `HEAD` -/

/-- `HEAD` gets the value that was asked for, or the step fails. -/
theorem putHead_ok {value : RefValue} {shown : String} (h : r.putHead value shown = .ok moved) :
    moved.refs.get? RefName.head = some value := by
  simp only [putHead] at h
  obtain ⟨old, hold, h⟩ := bind_eq_ok_iff.mp h
  obtain ⟨done, hcheck, h⟩ := bind_eq_ok_iff.mp h
  have hcurrent : r.refs.get? RefName.head = some old := by
    have hfind : r.refs.find? RefName.head = .ok (some old) := by
      rw [RefStore.find?, hold]
    exact (RefStore.find?_ok hfind).symm
  -- the new value is settled as it is: a direct one is none, and a symbolic one is checked
  have hlands : RefStore.settled (r.refs.get? RefName.head) (some value) = some value := by
    rw [RefStore.settled_eq_iff, hcurrent]
    cases value with
    | direct id =>
        intro hnone
        cases hnone
    | symbolic name => exact Or.inr (RefStore.kept_of_checkTarget hcheck)
  split at h
  · cases h
  · rw [← Except.ok.inj h]
    show (r.refs.write _ _ _ _).get? RefName.head = _
    rw [RefStore.get?_write, if_pos rfl, hlands]

/-- The value that `HEAD` gets for what a revision names. -/
inductive Heads (r : Repo) (d : Designated) : RefValue → Prop
  | branch {name : String} : d.refname = some name → RefName.isBranch name = true →
      Heads r d (.symbolic name)
  | commit {id : Oid} : (∀ name, d.refname = some name → RefName.isBranch name = false) →
      r.peel .commit d.id = .ok id → Heads r d (.direct id)

/-- The objects decide what a revision leads to. -/
theorem Heads.of_objects {r' : Repo} {d : Designated} {v : RefValue} (h : r.Heads d v)
    (hobjects : r.objects = r'.objects) : r'.Heads d v := by
  cases h with
  | branch hname hbranch => exact .branch hname hbranch
  | commit hbranch hpeel =>
      refine .commit hbranch ?_
      rw [peel, hobjects] at hpeel
      exact hpeel

/-- A branch becomes what `HEAD` names. -/
theorem moveHead_branch {d : Designated} {name : String} (hname : d.refname = some name)
    (hbranch : RefName.isBranch name = true) :
    r.moveHead d = r.putHead (.symbolic name) name := by
  rw [moveHead, hname]
  exact if_pos hbranch

/-- Anything else detaches it. -/
theorem moveHead_other {d : Designated}
    (h : ∀ name, d.refname = some name → RefName.isBranch name = false) :
    r.moveHead d = moveHead.detach r d := by
  rw [moveHead]
  cases hname : d.refname with
  | none => rfl
  | some name => exact if_neg (Bool.eq_false_iff.mp (h name hname))

/-- A revision names a branch, or anything else. -/
theorem branch_or_other (d : Designated) :
    (∃ name, d.refname = some name ∧ RefName.isBranch name = true)
      ∨ ∀ name, d.refname = some name → RefName.isBranch name = false := by
  by_cases h : ∃ name, d.refname = some name ∧ RefName.isBranch name = true
  · exact Or.inl h
  · exact Or.inr fun name hname => Bool.eq_false_iff.mpr fun hbranch => h ⟨name, hname, hbranch⟩

/-- A move that succeeds leaves HEAD at what the revision designates. -/
theorem moveHead_ok {d : Designated} (h : r.moveHead d = .ok moved) :
    ∃ v, r.Heads d v ∧ moved.refs.get? RefName.head = some v := by
  rcases branch_or_other d with ⟨name, hname, hbranch⟩ | hother
  · rw [moveHead_branch hname hbranch] at h
    exact ⟨_, .branch hname hbranch, putHead_ok h⟩
  · rw [moveHead_other hother] at h
    obtain ⟨id, hpeel, hput⟩ := bind_eq_ok_iff.mp h
    exact ⟨_, .commit hother hpeel, putHead_ok hput⟩

/-! ## The checkout as a whole -/

/-- How a checkout ends that is no dry run: with the failure of its engine or of a
    handler, with a failure to move `HEAD`, or with `HEAD` moved. -/
theorem checkoutBy_cases (engine : Oid → Engine Repo Unit) {d : Designated}
    (hd : r.revision rev = .ok d) (hwrites : s.strategy ≠ .dryRun) :
    let done := operate caller handlers (engine d.id) r
    (∃ e, done.result = .error e ∧ r.checkoutBy engine caller rev handlers s = done)
      ∨ (∃ e, done.result = .ok ()
        ∧ r.checkoutBy engine caller rev handlers s = { done with result := .error (.ofNative e) })
      ∨ ∃ moved, done.result = .ok () ∧ done.state.moveHead d = .ok moved
        ∧ r.checkoutBy engine caller rev handlers s = { done with state := moved } := by
  intro done
  have hdone : done = operate caller handlers (engine d.id) r := rfl
  rw [checkoutBy, hd]
  dsimp only
  rw [if_neg hwrites, ← hdone]
  cases hresult : done.result with
  | error e => exact Or.inl ⟨e, rfl, rfl⟩
  | ok u =>
      cases hmove : done.state.moveHead d with
      | error e => exact Or.inr (Or.inl ⟨e, rfl, rfl⟩)
      | ok moved => exact Or.inr (Or.inr ⟨moved, rfl, rfl, rfl⟩)

end Repo

/-- If an operation ends well, no handler has failed. -/
theorem failures_of_operate_ok {σ α : Type} {caller : ThreadId} {handlers : HandlerSet}
    {op : Engine σ α} {s : σ} {a : α} (h : (operate caller handlers op s).result = .ok a) :
    (op.tree s).failures caller (.new caller handlers) none = [] := by
  have hempty : (Payload.new caller handlers).deferred = none := rfl
  have hsurfaces := Payload.check_parked ((op.tree s).run_parked caller hempty)
    ((op.tree s).run caller (.new caller handlers) none).result.1
  cases hfailures : (op.tree s).failures caller (.new caller handlers) none with
  | nil => rfl
  | cons e later =>
      have hfirst : (operate caller handlers op s).result = _ := hsurfaces.first e later hfailures
      rw [h] at hfirst
      exact nomatch hfirst

/-- **`HEAD` moves last, and only after a clean checkout.**

    Take any engine that leaves the references and the objects alone, whatever
    calls it makes and whatever it does with the replies, any repository,
    revision, set of handlers and settings.  If the operation fails, all
    references are what they were.  A dry run leaves the repository as it was,
    however it ends.  Otherwise, if the operation ends well, no handler has
    failed, and `HEAD` names the branch that the revision names, or else holds
    the commit that it leads to. -/
theorem head_moves_last {engine : Oid → Engine Repo Unit}
    (hengine : ∀ id, (engine id).Keeps Repo.held) (r : Repo) (caller : ThreadId) (rev : String)
    (handlers : HandlerSet) (s : CheckoutSettings) :
    let o := r.checkoutBy engine caller rev handlers s
    ((∃ e, o.result = .error e) → o.state.refs = r.refs)
      ∧ (s.strategy = .dryRun → o.state = r)
      ∧ (o.result = .ok () → s.strategy ≠ .dryRun → ∃ d, r.revision rev = .ok d
        ∧ ((engine d.id).tree r).failures caller (.new caller handlers) none = []
        ∧ ∃ v, r.Heads d v ∧ o.state.refs.get? RefName.head = some v) := by
  dsimp only
  cases hrev : r.revision rev with
  | error e =>
      have ho : r.checkoutBy engine caller rev handlers s = .refused caller handlers r e := by
        rw [Repo.checkoutBy, hrev]
      rw [ho]
      refine ⟨fun _ => rfl, fun _ => rfl, fun hok => ?_⟩
      cases hok
  | ok d =>
      by_cases hdry : s.strategy = .dryRun
      · have ho : r.checkoutBy engine caller rev handlers s
            = r.preview caller handlers s (r.objects.treeOf d.id) := by
          rw [Repo.checkoutBy, hrev]
          exact if_pos hdry
        rw [ho, Repo.preview_state]
        exact ⟨fun _ => rfl, fun _ => rfl, fun _ hwrites => absurd hdry hwrites⟩
      · -- the engine keeps the references and the objects, whatever its handlers do
        have hheld := (hengine d.id).operate caller handlers r
        have hrefs : (operate caller handlers (engine d.id) r).state.refs = r.refs :=
          congrArg Prod.fst hheld
        have hobjects : (operate caller handlers (engine d.id) r).state.objects = r.objects :=
          congrArg Prod.snd hheld
        rcases Repo.checkoutBy_cases engine hrev hdry with ⟨e, hfailed, ho⟩ | ⟨e, -, ho⟩
          | ⟨moved, hdone, hmove, ho⟩
        -- the engine failed, or HEAD could not be moved: the references are the old ones
        · rw [ho, hfailed]
          refine ⟨fun _ => hrefs, fun h => absurd h hdry, fun hok => ?_⟩
          cases hok
        · rw [ho]
          refine ⟨fun _ => hrefs, fun h => absurd h hdry, fun hok => ?_⟩
          cases hok
        · -- HEAD was moved, in a store with the objects that were there before
          obtain ⟨v, hv, hget⟩ := Repo.moveHead_ok hmove
          rw [ho]
          refine ⟨?_, fun h => absurd h hdry, fun _ _ => ?_⟩
          · rintro ⟨e, he⟩
            cases hdone.symm.trans he
          · exact ⟨d, rfl, failures_of_operate_ok hdone, v, hv.of_objects hobjects, hget⟩

/-- The second branch is checked out. -/
theorem OneCommit.checkout_next :
    ((repo false).checkout 1 "next" (.empty .checkout) .default).result = .ok () := by
  have hisOk : ((repo false).checkout 1 "next" (.empty .checkout) .default).result.isOk = true := by
    decide +kernel
  cases hresult : ((repo false).checkout 1 "next" (.empty .checkout) .default).result with
  | ok u => rfl
  | error e =>
      rw [hresult] at hisOk
      cases hisOk

/-- `HEAD` moves from one branch to the other. -/
theorem head_moves_last_next :
    let o := (OneCommit.repo false).checkout 1 "next" (.empty .checkout) .default
    o.result = .ok () ∧ o.state.refs.get? RefName.head = some (.symbolic "refs/heads/next") := by
  have hengine : ∀ id, (Checkout.object (HandlerSet.empty .checkout).wanted .default id).Keeps
      Repo.held := Checkout.object_keeps
  obtain ⟨d, hd, -, v, hv, hget⟩ := (head_moves_last hengine (OneCommit.repo false) 1 "next"
    (.empty .checkout) .default).2.2 OneCommit.checkout_next (by decide)
  obtain rfl := Except.ok.inj ((OneCommit.revision false (by decide)).symm.trans hd)
  cases hv with
  | branch hname _ =>
      obtain rfl := Option.some.inj hname
      exact ⟨OneCommit.checkout_next, hget⟩
  | commit hbranch _ =>
      have hnext : RefName.isBranch ("refs/heads/" ++ "next") = true := by decide +kernel
      exact absurd ((hbranch _ rfl).symm.trans hnext) Bool.false_ne_true

end Gitwork
