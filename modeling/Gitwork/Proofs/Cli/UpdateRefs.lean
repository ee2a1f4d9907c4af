import Mathlib.Data.List.Perm.Basic
import Gitwork.Proofs.Cli.Edits
import Gitwork.Proofs.Ref.Exclusion
import Gitwork.Proofs.Ref.Scope
import Gitwork.Proofs.Ref.Name
import Gitwork.Proofs.Revision
import Gitwork.Proofs.Text.Blank

/-! # Updating references is one assignment

    The command reads its specifications, and then locks, queues and commits
    all of them in one scope.

    * a specification that can be read asks for a value that the disk keeps
      as it is (`RefEdit.parse_clean`);
    * the command fails before the scope and does nothing, or it ends as the
      scope does (`Context.updateRefs_run`);
    * so it sets all names at once or none (`update_refs_assigns`). -/

namespace Gitwork.Cli

/-! ## Specifications -/

/-- The disk keeps a name without blanks at its ends. -/
theorem kept_trim (cs : List Char) :
    (RefValue.symbolic (String.ofList (Text.trim cs))).kept
      = .symbolic (String.ofList (Text.trim cs)) := by
  refine RefValue.kept_of_last fun c hc => ?_
  rw [String.toList_ofList] at hc
  have hlast : Text.isBlank c = false := (Text.trimmed_trim cs).last c hc
  constructor
  · rintro rfl
    exact absurd hlast (by decide)
  · rintro ⟨hlow, hhigh⟩
    have hlow : 9 ≤ c.toNat := hlow
    have hhigh : c.toNat ≤ 13 := hhigh
    simp [Text.isBlank, hlow, hhigh] at hlast

/-- The action of a target is one that a store takes as it is. -/
theorem RefAction.ofChars_clean (target : List Char) : (RefAction.ofChars target).Clean := by
  rw [RefAction.ofChars]
  split
  · trivial
  · split
    · exact kept_trim _
    · trivial

/-- A specification that is read gives a clean action. -/
theorem RefEdit.parse_clean {spec : String} {e : RefEdit} (h : RefEdit.parse spec = .ok e) :
    e.action.Clean := by
  simp only [RefEdit.parse] at h
  split at h
  · cases h
  · split at h
    · cases h
    · rw [← Except.ok.inj h]
      exact RefAction.ofChars_clean _

/-- Specifications are read one by one. -/
theorem mapM_parse_eq_ok {updates : List String} {edits : List RefEdit} :
    updates.mapM RefEdit.parse = .ok edits
      ↔ List.Forall₂ (fun spec e => RefEdit.parse spec = .ok e) updates edits := by
  induction updates generalizing edits with
  | nil =>
      rw [List.forall₂_nil_left_iff]
      exact ⟨fun h => (Except.ok.inj h).symm, fun h => h ▸ rfl⟩
  | cons spec rest ih =>
      rw [List.forall₂_cons_left_iff, List.mapM_cons]
      constructor
      · intro h
        obtain ⟨e, he, h⟩ := bind_eq_ok_iff.mp h
        obtain ⟨es, hes, h⟩ := bind_eq_ok_iff.mp h
        exact ⟨e, es, he, ih.mp hes, (Except.ok.inj h).symm⟩
      · rintro ⟨e, es, he, hes, rfl⟩
        rw [he, ih.mpr hes]
        rfl

/-- The actions of specifications that are read are clean. -/
theorem mapM_parse_clean {updates : List String} {edits : List RefEdit}
    (h : updates.mapM RefEdit.parse = .ok edits) : ∀ e ∈ edits, e.action.Clean := by
  have hread := mapM_parse_eq_ok.mp h
  clear h
  induction hread with
  | nil => exact fun _ hmem => absurd hmem List.not_mem_nil
  | cons hparse _ ih => exact List.forall_mem_cons.mpr ⟨RefEdit.parse_clean hparse, ih⟩

/-- In another order they are the same in another order. -/
theorem mapM_parse_perm {updates updates' : List String} (hperm : updates'.Perm updates)
    {edits : List RefEdit} (h : updates.mapM RefEdit.parse = .ok edits) :
    ∃ edits', updates'.mapM RefEdit.parse = .ok edits' ∧ edits'.Perm edits := by
  obtain ⟨edits', hread, hedits⟩ := List.perm_comp_forall₂ hperm (mapM_parse_eq_ok.mp h)
  exact ⟨edits', mapM_parse_eq_ok.mpr hread, hedits⟩

/-! ## The command -/

namespace Action

variable {α β : Type} {m : Action α} {desk desk' : Desk}

/-- An action that succeeds hands its result to the rest. -/
theorem run_bind_ok {a : α} (h : m.run desk = (.ok a, desk')) (f : α → Action β) :
    (m >>= f).run desk = (f a).run desk' := by
  have h' : m desk = (.ok a, desk') := h
  show (match m desk with | (x, s) => (ExceptT.bindCont f x) s) = _
  rw [h']
  rfl

/-- An action that fails ends the whole. -/
theorem run_bind_error {e : Failure} (h : m.run desk = (.error e, desk')) (f : α → Action β) :
    (m >>= f).run desk = (.error e, desk') := by
  have h' : m desk = (.error e, desk') := h
  show (match m desk with | (x, s) => (ExceptT.bindCont f x) s) = _
  rw [h']
  rfl

end Action

namespace Context

/-- Opening looks for a repository at the directory or above it. -/
theorem openRepo_run (x : Context) (desk : Desk) :
    (∃ f, x.openRepo.run desk = (.error f, desk))
    ∨ ∃ dir r, desk.bench.disk.discover (x.place x.cwd) = .ok dir
      ∧ desk.bench.disk.repo? dir = some r ∧ x.openRepo.run desk = (.ok (dir, r), desk) := by
  have hget (f : Desk → Action (String × Repo)) :
      ((get : Action Desk) >>= f).run desk = (f desk).run desk := rfl
  rw [openRepo, hget]
  cases hdir : desk.bench.disk.discover (x.place x.cwd) with
  | error e =>
      simp only [hdir, bind, Except.bind]
      exact Or.inl ⟨_, rfl⟩
  | ok dir =>
      simp only [hdir, bind, Except.bind]
      cases hr : desk.bench.disk.repo? dir with
      | none => exact Or.inl ⟨_, rfl⟩
      | some r => exact Or.inr ⟨dir, r, rfl, hr, rfl⟩

/-- A configuration that cannot be loaded ends the command and changes nothing. -/
theorem config_run (x : Context) (source : ConfigSource) (desk : Desk) :
    (∃ f, (x.config source).run desk = (.error f, desk))
    ∨ ∃ c, Config.load x.around.global source = .ok c
      ∧ (x.config source).run desk = (.ok c, desk) := by
  rw [config]
  cases Config.load x.around.global source with
  | error e => exact Or.inl ⟨_, rfl⟩
  | ok c => exact Or.inr ⟨c, rfl, rfl⟩

/-- The repository and the configuration that a command works with. -/
structure Sees (x : Context) (disk : Disk) (dir : String) (r : Repo) (c : Config) : Prop where
  found : disk.discover (x.place x.cwd) = .ok dir
  repo : disk.repo? dir = some r
  config : Config.load x.around.global r.config = .ok c

/-- The command fails before it reads its specifications, or its scope decides. -/
theorem updateRefs_run (x : Context) (message : Option String) (desk : Desk) :
    (∃ f, ∀ updates, (x.updateRefs updates message).run desk = (.error f, desk))
    ∨ ∃ dir r c, x.Sees desk.bench.disk dir r c
      ∧ ∀ updates,
        (∀ e, updates.mapM RefEdit.parse = .error e →
          ∃ f, (x.updateRefs updates message).run desk = (.error f, desk))
        ∧ ∀ edits, updates.mapM RefEdit.parse = .ok edits →
          let scope := desk.bench.scope dir 1 (some c.reflogMessage) Failure.ofError
            (applyEdits r message edits)
          (∀ f, scope.1 = .failed f → ∃ f',
            (x.updateRefs updates message).run desk = (.error f', { desk with bench := scope.2 }))
          ∧ (scope.1 = .returned () → ∃ console,
            (x.updateRefs updates message).run desk = (.ok (), ⟨scope.2, console⟩)) := by
  -- the repository and its configuration do not depend on the specifications
  rcases x.openRepo_run desk with ⟨f, hopen⟩ | ⟨dir, r, hdir, hr, hopen⟩
  · left
    refine ⟨f, fun updates => ?_⟩
    rw [updateRefs, Action.run_bind_error hopen]
  rcases x.config_run r.config desk with ⟨f, hconfig⟩ | ⟨c, hload, hconfig⟩
  · left
    refine ⟨f, fun updates => ?_⟩
    rw [updateRefs, Action.run_bind_ok hopen, Action.run_bind_error hconfig]
  right
  refine ⟨dir, r, c, ⟨hdir, hr, hload⟩, fun updates => ⟨?_, ?_⟩⟩
  · intro e he
    rw [updateRefs, Action.run_bind_ok hopen, Action.run_bind_ok hconfig, he]
    exact ⟨_, rfl⟩
  · intro edits hedits scope
    have hread : (Action.ofExcept (Except.mapError
        (fun e : RefEditError => (⟨[e.message], none⟩ : Failure)) (.ok edits))).run desk
        = (.ok edits, desk) := rfl
    have hget : (get : Action Desk).run desk = (.ok desk, desk) := rfl
    rw [updateRefs, Action.run_bind_ok hopen, Action.run_bind_ok hconfig, hedits,
      Action.run_bind_ok hread, Action.run_bind_ok hget]
    constructor
    · intro f hf
      have hscope : desk.bench.scope dir 1 (some c.reflogMessage) Failure.ofError
          (applyEdits r message edits) = (.failed f, scope.2) := Prod.ext hf rfl
      refine ⟨f.within "Reference update failed; no references were changed", ?_⟩
      simp only [hscope]
      rfl
    · intro hreturned
      have hscope : desk.bench.scope dir 1 (some c.reflogMessage) Failure.ofError
          (applyEdits r message edits) = (.returned (), scope.2) := Prod.ext hreturned rfl
      simp only [hscope]
      exact ⟨_, rfl⟩

end Context

/-! ## The workbench after the command -/

section Scope

variable {w : Workbench} {dir : String} {r : Repo}

/-- The session that a scope of the main thread begins with. -/
def scopeStart (w : Workbench) (r : Repo) (reflog : Option String) : Session :=
  ⟨Workbench.newTransaction r 1 reflog, w.held, r.refs⟩

theorem fresh_scopeStart (w : Workbench) (r : Repo) (reflog : Option String) :
    Fresh (scopeStart w r reflog) := ⟨rfl, rfl, rfl⟩

/-- A repository whose references are as before is as before. -/
theorem repo?_same (hr : w.disk.repo? dir = some r) {refs : RefStore} (hrefs : refs = r.refs)
    (other : String) : (if other = dir then some { r with refs } else w.disk.repo? other)
      = w.disk.repo? other := by
  rw [hrefs]
  split
  · next heq => rw [heq, hr]
  · rfl

/-- The scope gives its keys back. -/
theorem scope_held (hw : w.Exclusive) (r : Repo) (reflog : Option String)
    (ofError : Error → Failure) (body : TxnBody Failure Unit) :
    ((scopeStart w r reflog).run 1 ofError body).2.held.Perm w.held := by
  have haccounts := (hw.accounts_new r 1 reflog r.refs).run 1 ofError body
  exact (haccounts.ended (Session.run_closed _ 1 ofError body)).trans hw.held.symm

end Scope

/-- How the command ends whose scope has run: with the result, the keys and the
    references of the scope. -/
structure EndsWith (w : Workbench) (dir : String) (r : Repo) (ran : Ended Failure Unit × Session)
    (ended : Except Failure Unit × Desk) : Prop where
  result : ended.1 = .ok () ↔ ran.1 = .returned ()
  held : ended.2.bench.held = ran.2.held
  repos : ∀ other, ended.2.bench.disk.repo? other
    = if other = dir then some { r with refs := ran.2.refs } else w.disk.repo? other

/-- **The command ends before its scope and does nothing, or with its scope.** -/
theorem Context.updateRefs_cases (x : Context) (message : Option String) (w : Workbench)
    (console : Console) :
    (∃ f, ∀ updates, (x.updateRefs updates message).run ⟨w, console⟩ = (.error f, ⟨w, console⟩))
    ∨ ∃ dir r c, x.Sees w.disk dir r c
      ∧ ∀ updates,
        (∀ e, updates.mapM RefEdit.parse = .error e →
          ∃ f, (x.updateRefs updates message).run ⟨w, console⟩ = (.error f, ⟨w, console⟩))
        ∧ ∀ edits, updates.mapM RefEdit.parse = .ok edits →
          EndsWith w dir r ((scopeStart w r c.reflogMessage).run 1 Failure.ofError
            (applyEdits r message edits)) ((x.updateRefs updates message).run ⟨w, console⟩) := by
  rcases x.updateRefs_run message ⟨w, console⟩ with hnever | ⟨dir, r, c, hsees, hrun⟩
  · exact Or.inl hnever
  right
  refine ⟨dir, r, c, hsees, fun updates => ⟨(hrun updates).1, ?_⟩⟩
  intro edits hedits
  obtain ⟨hfailed, hreturned⟩ := (hrun updates).2 edits hedits
  obtain ⟨hresult, hheld, hrepos⟩ := Workbench.scope_session hsees.repo 1
    (some c.reflogMessage) Failure.ofError (applyEdits r message edits)
  have hfresh := fresh_scopeStart w r (some c.reflogMessage)
  rcases run_applyEdits_ended message hfresh rfl edits Failure.ofError with hran | ⟨f, hran⟩
  · obtain ⟨console', hended⟩ := hreturned (hresult.trans hran)
    rw [hended]
    exact ⟨⟨fun _ => hran, fun _ => rfl⟩, hheld, hrepos⟩
  · obtain ⟨f', hended⟩ := hfailed f (hresult.trans hran)
    rw [hended]
    refine ⟨⟨nofun, fun hreturned => ?_⟩, hheld, hrepos⟩
    rw [hran] at hreturned
    cases hreturned

namespace Context

variable {x : Context} {message : Option String} {w : Workbench} {console : Console}
  {updates : List String}

/-- What a command that succeeds has assigned. -/
theorem updateRefs_ok (h : ((x.updateRefs updates message).run ⟨w, console⟩).1 = .ok ()) :
    ∃ dir r edits after, w.disk.discover (x.place x.cwd) = .ok dir
      ∧ w.disk.repo? dir = some r ∧ updates.mapM RefEdit.parse = .ok edits
      ∧ (∀ other, ((x.updateRefs updates message).run ⟨w, console⟩).2.bench.disk.repo? other
        = if other = dir then some { r with refs := after } else w.disk.repo? other)
      ∧ (∀ name e, lastEdit edits name = some e → e.action.value r = .ok (after.get? name))
      ∧ (∀ name, lastEdit edits name = none → after.get? name = r.refs.get? name)
      ∧ after.locked = r.refs.locked := by
  rcases x.updateRefs_cases message w console with ⟨f, hnever⟩ | ⟨dir, r, c, hsees, hrun⟩
  · rw [hnever] at h
    cases h
  cases hread : updates.mapM RefEdit.parse with
  | error e =>
      obtain ⟨f, hended⟩ := (hrun updates).1 e hread
      rw [hended] at h
      cases h
  | ok edits =>
      have hends := (hrun updates).2 edits hread
      have hassigns := run_applyEdits_returned (fresh_scopeStart w r c.reflogMessage) rfl
        (mapM_parse_clean hread) (hends.result.mp h)
      exact ⟨dir, r, edits, _, hsees.found, hsees.repo, rfl, hends.repos, hassigns⟩

/-- A command that fails leaves all repositories as they were. -/
theorem updateRefs_error {f : Failure}
    (h : ((x.updateRefs updates message).run ⟨w, console⟩).1 = .error f) (other : String) :
    ((x.updateRefs updates message).run ⟨w, console⟩).2.bench.disk.repo? other
      = w.disk.repo? other := by
  rcases x.updateRefs_cases message w console with ⟨f, hnever⟩ | ⟨dir, r, c, hsees, hrun⟩
  · rw [hnever]
  cases hread : updates.mapM RefEdit.parse with
  | error e =>
      obtain ⟨f, hended⟩ := (hrun updates).1 e hread
      rw [hended]
  | ok edits =>
      have hends := (hrun updates).2 edits hread
      have hfresh := fresh_scopeStart w r c.reflogMessage
      rw [hends.repos]
      apply repo?_same hsees.repo
      rcases run_applyEdits_ended message hfresh rfl edits Failure.ofError with hran | ⟨f', hran⟩
      · rw [hends.result.mpr hran] at h
        cases h
      · exact run_applyEdits_failed hfresh rfl hran

/-- The command gives its keys back, however it ends. -/
theorem updateRefs_held (x : Context) (updates : List String) (message : Option String)
    (hw : w.Exclusive) (console : Console) :
    ((x.updateRefs updates message).run ⟨w, console⟩).2.bench.held.Perm w.held := by
  rcases x.updateRefs_cases message w console with ⟨f, hnever⟩ | ⟨dir, r, c, hsees, hrun⟩
  · rw [hnever]
  cases hread : updates.mapM RefEdit.parse with
  | error e =>
      obtain ⟨f, hended⟩ := (hrun updates).1 e hread
      rw [hended]
  | ok edits =>
      rw [((hrun updates).2 edits hread).held]
      exact scope_held hw r c.reflogMessage _ _

/-- Specifications of different names may come in any order. -/
theorem updateRefs_perm (x : Context) (message : Option String) (w : Workbench)
    (console : Console) {updates' : List String} (hperm : updates'.Perm updates)
    (hnodup : ∀ edits, updates.mapM RefEdit.parse = .ok edits → (edits.map (·.refname)).Nodup) :
    let one := (x.updateRefs updates message).run ⟨w, console⟩
    let two := (x.updateRefs updates' message).run ⟨w, console⟩
    (two.1 = .ok () ↔ one.1 = .ok ())
      ∧ ∀ other, two.2.bench.disk.repo? other = one.2.bench.disk.repo? other := by
  intro one two
  rcases x.updateRefs_cases message w console with ⟨f, hnever⟩ | ⟨dir, r, c, hsees, hrun⟩
  · have hone : one = (.error f, ⟨w, console⟩) := hnever updates
    have htwo : two = (.error f, ⟨w, console⟩) := hnever updates'
    rw [hone, htwo]
    exact ⟨Iff.rfl, fun _ => rfl⟩
  cases hread : updates.mapM RefEdit.parse with
  | error e =>
      obtain ⟨f, hone⟩ := (hrun updates).1 e hread
      have hone : one = (.error f, ⟨w, console⟩) := hone
      cases hread' : updates'.mapM RefEdit.parse with
      | error e' =>
          obtain ⟨f', htwo⟩ := (hrun updates').1 e' hread'
          have htwo : two = (.error f', ⟨w, console⟩) := htwo
          rw [hone, htwo]
          exact ⟨⟨nofun, nofun⟩, fun _ => rfl⟩
      | ok edits' =>
          -- what can be read in one order can be read in the other
          obtain ⟨edits, hedits, -⟩ := mapM_parse_perm hperm.symm hread'
          rw [hread] at hedits
          cases hedits
  | ok edits =>
      obtain ⟨edits', hread', hedits⟩ := mapM_parse_perm hperm hread
      have hone : EndsWith w dir r _ one := (hrun updates).2 edits hread
      have htwo : EndsWith w dir r _ two := (hrun updates').2 edits' hread'
      obtain ⟨hrefs, hresult⟩ := run_applyEdits_perm (fresh_scopeStart w r c.reflogMessage)
        rfl Failure.ofError hedits (hnodup edits hread)
      refine ⟨htwo.result.trans (hresult.trans hone.result.symm), ?_⟩
      intro other
      rw [htwo.repos, hone.repos, hrefs]

end Context

/-- **The command assigns all names at once, or changes nothing.**

    On any workbench that a run can lead to, whatever is on its disk and whoever
    holds which names: if the command succeeds, each name that is specified has
    what its last specification asks for, with revisions looked up in the repository
    as it was, and each other name has what it had; no other repository is touched.
    A name is given what is asked for even where nobody can read that, as with the
    empty target of `NAME=ref:` (`RefStore.read`).  If the command fails, at whatever
    point, all repositories are as they were.  In both cases the lock table has the
    keys it had, and so have the locks on disk.

    So specifications of different names can be given in any order: the command
    succeeds in both or in none, and leaves the same repositories. -/
theorem update_refs_assigns (x : Context) (updates : List String) (message : Option String)
    (actions : List Workbench.Action) (console : Console) :
    let w := Workbench.run actions
    let ended := (x.updateRefs updates message).run ⟨w, console⟩
    (ended.1 = .ok () → ∃ dir r edits after, w.disk.discover (x.place x.cwd) = .ok dir
        ∧ w.disk.repo? dir = some r ∧ updates.mapM RefEdit.parse = .ok edits
        ∧ (∀ other, ended.2.bench.disk.repo? other
          = if other = dir then some { r with refs := after } else w.disk.repo? other)
        ∧ (∀ name e, lastEdit edits name = some e → e.action.value r = .ok (after.get? name))
        ∧ (∀ name, lastEdit edits name = none → after.get? name = r.refs.get? name)
        ∧ after.locked = r.refs.locked)
      ∧ ((∃ f, ended.1 = .error f) → ∀ other,
        ended.2.bench.disk.repo? other = w.disk.repo? other)
      ∧ ended.2.bench.held.Perm w.held
      ∧ ∀ updates', updates'.Perm updates →
        (∀ edits, updates.mapM RefEdit.parse = .ok edits → (edits.map (·.refname)).Nodup) →
        let again := (x.updateRefs updates' message).run ⟨w, console⟩
        (again.1 = .ok () ↔ ended.1 = .ok ())
          ∧ ∀ other, again.2.bench.disk.repo? other = ended.2.bench.disk.repo? other := by
  intro w ended
  refine ⟨Context.updateRefs_ok, ?_, ?_, ?_⟩
  · rintro ⟨f, hfailed⟩
    exact Context.updateRefs_error hfailed
  · exact x.updateRefs_held updates message (.run actions) console
  · intro updates' hperm hnodup
    exact x.updateRefs_perm message w console hperm hnodup

/-! ### Two references change places -/

namespace Swap

def one : Oid := ⟨"1111111111111111111111111111111111111111"⟩

def two : Oid := ⟨"2222222222222222222222222222222222222222"⟩

/-- A repository in which `A` points to the first object and `B` to the second. -/
def repo : Repo :=
  { Repo.init "/r" true default "refs/heads/main" with
    objects := [(one, .blob []), (two, .blob [])]
    refs := { RefStore.empty true default with
      values := [("A", .direct one), ("B", .direct two)] } }

def actions : List Workbench.Action := [.disk ⟨[("/r", repo)], []⟩]

def context : Context :=
  ⟨⟨"/r", false, .missing, none, none⟩, ⟨none, false, true, true, .updateRefs [] none⟩⟩

def edits : List RefEdit := [⟨"A", .point "B"⟩, ⟨"B", .point "A"⟩]

theorem read : ["A=B", "B=A"].mapM RefEdit.parse = .ok edits := rfl

theorem found :
    (Workbench.run actions).disk.discover (context.place context.cwd) = .ok "/r" := by decide +kernel

theorem there : (Workbench.run actions).disk.repo? "/r" = some repo := rfl

theorem revision_A : repo.revision "A" = .ok ⟨one, some "A"⟩ := by
  have hid : one.isZero = false := by decide
  have hfind : repo.objects.find one = .ok (.blob []) := by
    rw [ObjectStore.find, ObjectStore.get?, hid]
    decide
  exact revision_of_name rfl (by decide) rfl rfl hfind

theorem revision_B : repo.revision "B" = .ok ⟨two, some "B"⟩ := by
  have hid : two.isZero = false := by decide
  have hfind : repo.objects.find two = .ok (.blob []) := by
    rw [ObjectStore.find, ObjectStore.get?, hid]
    decide
  exact revision_of_name rfl (by decide) rfl rfl hfind

/-- The session of the scope at its start, when both names are locked, and at its commit. -/
def start : Session := scopeStart (Workbench.run actions) repo (some Config.defaultReflogMessage)

def locked : Session :=
  (start.withLocked "A" (some (.direct one))).withLocked "B" (some (.direct two))

def queued : Session :=
  (locked.withUpdate "A" ⟨⟨"/r", "A"⟩, some (.direct one), none⟩ ⟨.target two, none, none⟩).withUpdate
    "B" ⟨⟨"/r", "B"⟩, some (.direct two), none⟩ ⟨.target one, none, none⟩

/-- Both names are locked with their old values, and both updates are queued. -/
theorem play_edits : start.play (Context.applyEdits repo none edits) = (.returned (), queued) := by
  have hlockA : start.call 1 (.lock "A")
      = (.ok (), start.withLocked "A" (some (.direct one))) := rfl
  have hlockB : (start.withLocked "A" (some (.direct one))).call 1 (.lock "B")
      = (.ok (), locked) := rfl
  have hsetA : locked.call 1 (.set "A" two none none) = (.ok (), locked.withUpdate "A"
      ⟨⟨"/r", "A"⟩, some (.direct one), none⟩ ⟨.target two, none, none⟩) := rfl
  have hsetB : (locked.withUpdate "A" ⟨⟨"/r", "A"⟩, some (.direct one), none⟩
      ⟨.target two, none, none⟩).call 1 (.set "B" one none none) = (.ok (), queued) := rfl
  -- the references are those of the repository until the commit
  have hrefs : { repo with refs := locked.refs } = repo := rfl
  have hrefs' (locked' : LockedRef) (u : Update) :
      { repo with refs := (locked.withUpdate "A" locked' u).refs } = repo := rfl
  simp only [Context.applyEdits, edits, Context.lockEdits, Context.queueEdits, Session.play,
    hlockA, hlockB, hsetA, hsetB, hrefs, hrefs', revision_A, revision_B]

/-- The scope commits. -/
theorem run_edits : (start.run 1 Failure.ofError (Context.applyEdits repo none edits)).1
    = .returned () := by
  have hopen : queued.txn.state = .opened := rfl
  have hcommit : (queued.commit 1).1 = .ok () := rfl
  have hcommit : queued.commit 1 = (.ok (), (queued.commit 1).2) := Prod.ext hcommit rfl
  rw [Session.run, play_edits]
  simp only [if_pos hopen]
  rw [hcommit]

/-- The command ends well. -/
theorem updateRefs_swap :
    ((context.updateRefs ["A=B", "B=A"] none).run ⟨Workbench.run actions, .empty⟩).1 = .ok () := by
  have hempty : ((context.updateRefs [] none).run ⟨Workbench.run actions, .empty⟩).1 = .ok () := by
    decide +kernel
  rcases context.updateRefs_cases none (Workbench.run actions) .empty with
    ⟨f, hnever⟩ | ⟨dir, r, c, hsees, hrun⟩
  · rw [hnever] at hempty
    cases hempty
  obtain rfl : "/r" = dir := Except.ok.inj (found.symm.trans hsees.found)
  obtain rfl : repo = r := Option.some.inj (there.symm.trans hsees.repo)
  obtain rfl : ⟨none, none⟩ = c := Except.ok.inj hsees.config
  exact ((hrun _).2 edits read).result.mpr run_edits

end Swap

/-- `A=B B=A` lets the two references change places. -/
theorem update_refs_assigns_swap :
    let w := Workbench.run Swap.actions
    let ended := (Swap.context.updateRefs ["A=B", "B=A"] none).run ⟨w, .empty⟩
    ended.1 = .ok () ∧ ended.2.bench.held = []
      ∧ ∃ r, ended.2.bench.disk.repo? "/r" = some r
        ∧ r.refs.get? "A" = some (.direct Swap.two) ∧ r.refs.get? "B" = some (.direct Swap.one) := by
  intro w ended
  obtain ⟨hassigns, -, hheld, -⟩ :=
    update_refs_assigns Swap.context ["A=B", "B=A"] none Swap.actions .empty
  obtain ⟨dir, r, edits, after, hdir, hr, hedits, hrepos, hvalue, -, -⟩ :=
    hassigns Swap.updateRefs_swap
  obtain rfl : "/r" = dir := Except.ok.inj (Swap.found.symm.trans hdir)
  obtain rfl : Swap.repo = r := Option.some.inj (Swap.there.symm.trans hr)
  obtain rfl : Swap.edits = edits := Except.ok.inj (Swap.read.symm.trans hedits)
  have hA := hvalue "A" ⟨"A", .point "B"⟩ (by decide)
  have hB := hvalue "B" ⟨"B", .point "A"⟩ (by decide)
  rw [RefAction.value, Swap.revision_B] at hA
  rw [RefAction.value, Swap.revision_A] at hB
  exact ⟨Swap.updateRefs_swap, hheld.eq_nil, _, (hrepos "/r").trans (if_pos rfl),
    (Except.ok.inj hA).symm, (Except.ok.inj hB).symm⟩

end Gitwork.Cli
