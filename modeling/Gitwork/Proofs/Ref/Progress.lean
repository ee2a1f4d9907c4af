import Gitwork.Proofs.Ref.Commit
import Gitwork.Proofs.Table

/-! # What a commit has checked

    A commit first locks the names with a change, then compares each with what
    it had when it was locked in the transaction, and only then queues and
    writes.  `Transaction.Advance` and `Transaction.Stop` say once what a step
    of it can be; `Transaction.Progress` says how far the commit is:

    * each step of its own makes progress (`Progress.step`);
    * other programs cannot undo it, as they respect the locks that the commit
      has (`Progress.others`);
    * up to its end a commit changes nothing (`step_same`), and from its last
      stage one can tell how it ends and what it leaves (`Progress.ended`). -/

namespace Gitwork

namespace Transaction

variable {t : Transaction} {x y : Stage} {exit : Exit} {after : RefStore}

/-! ## The changes to make -/

/-- The names and changes that a commit has to do with. -/
theorem mem_pending {p : Pending} : p ∈ t.pending ↔ (p.1, p.2.1) ∈ t.refs
    ∧ p.2.1.update = some p.2.2 ∧ ¬ (p.2.2.mutation = .remove ∧ p.2.1.observed = none) := by
  obtain ⟨name, locked, u⟩ := p
  rw [pending, List.mem_filterMap]
  constructor
  · rintro ⟨⟨name', locked'⟩, hmem, hsome⟩
    cases hupdate : locked'.update with
    | none =>
        simp only [hupdate] at hsome
        exact nomatch hsome
    | some u' =>
        simp only [hupdate] at hsome
        split at hsome
        · -- an update is left out if it removes what was absent when its name was locked
          exact nomatch hsome
        · next hkept =>
            obtain ⟨rfl, heq⟩ := Prod.mk.inj (Option.some.inj hsome)
            obtain ⟨rfl, rfl⟩ := Prod.mk.inj heq
            exact ⟨hmem, hupdate, hkept⟩
  · rintro ⟨hmem, hupdate, hkept⟩
    refine ⟨(name, locked), hmem, ?_⟩
    have hupdate : locked.update = some u := hupdate
    simp only [hupdate]
    exact if_neg hkept

/-- A change goes by the name of its entry. -/
theorem pending_name {name : String} {locked : LockedRef} {p : Pending}
    (h : (match locked.update with
      | none => none
      | some u =>
        if u.mutation = .remove ∧ locked.observed = none then none else some (name, locked, u))
      = some p) : p.1 = name := by
  split at h
  · exact nomatch h
  · split at h
    · exact nomatch h
    · rw [← Option.some.inj h]

/-- Each name has one change at most. -/
theorem pending_nodup (ho : t.refs.Ordered) : (t.pending.map (·.1)).Nodup := by
  have hpairs : t.pending.Pairwise fun p q => p.1 < q.1 := by
    apply List.Pairwise.filterMap _ _ ho
    intro e e' hlt p hp q hq
    rw [@pending_name e.1 e.2 p hp, @pending_name e'.1 e'.2 q hq]
    exact hlt
  rw [List.nodup_iff_pairwise_ne, List.pairwise_map]
  apply hpairs.imp
  intro p q hlt heq
  rw [heq] at hlt
  exact String.lt_irrefl _ hlt

/-- A change is made of its update, so it asks for the same. -/
theorem changeOf_value? {refs : RefStore} {message : String} {u : Update} {change : RefChange}
    (h : changeOf refs message u = .ok change) : change.value? = u.mutation.value? := by
  simp only [changeOf] at h
  split at h
  -- who signs the change makes no difference to its value
  all_goals
    obtain ⟨who, -, hmake⟩ := bind_eq_ok_iff.mp h
    cases hmutation : u.mutation with
    | remove =>
        simp only [hmutation] at hmake
        rw [← Except.ok.inj hmake]
        rfl
    | target id =>
        simp only [hmutation] at hmake
        split at hmake
        · rw [← Except.ok.inj hmake]
          rfl
        · cases hmake
    | symbolic name =>
        simp only [hmutation] at hmake
        split at hmake
        · rw [← Except.ok.inj hmake]
          rfl
        · cases hmake

/-! ## What a step can be -/

/-- A step after which the commit goes on. -/
inductive Advance (t : Transaction) : Stage → Stage → Prop
  | begin (refs : RefStore) :
      Advance t (.starting refs) (.locking ⟨refs, [], []⟩ (t.pending.map (·.1)))
  | lock (b : RefBatch) (name : String) (rest : List String) :
      Advance t (.locking b (name :: rest)) (.locking { b with
        refs := { b.refs with locked := name :: b.refs.locked }, taken := name :: b.taken } rest)
  | locked (b : RefBatch) : Advance t (.locking b []) (.comparing b t.pending)
  | agree (b : RefBatch) (p : Pending) (rest : List Pending) :
      b.refs.get? p.1 = p.2.1.observed →
      Advance t (.comparing b (p :: rest)) (.comparing b rest)
  | compared (b : RefBatch) : Advance t (.comparing b []) (.queueing b t.pending)
  | queue (b : RefBatch) (p : Pending) (rest : List Pending) (change : RefChange) :
      change.value? = p.2.2.mutation.value? →
      Advance t (.queueing b (p :: rest))
        (.queueing { b with changes := (p.1, change) :: b.changes } rest)
  | queued (b : RefBatch) : Advance t (.queueing b []) (.writing b)

/-- The last step of a commit. -/
inductive Stop (t : Transaction) : Stage → Exit → RefStore → Prop
  | idle (refs : RefStore) : t.pending = [] → Stop t (.starting refs) .idle refs
  | unopened (refs : RefStore) (e : NativeError) : Stop t (.starting refs) (.unopened e) refs
  | unlockable (b : RefBatch) (name : String) (rest : List String) (e : NativeError) :
      Stop t (.locking b (name :: rest)) (.unlockable name e) b.drop
  | unreadable (b : RefBatch) (p : Pending) (rest : List Pending) (e : NativeError) :
      Stop t (.comparing b (p :: rest)) (.unreadable p.1 e) b.drop
  | changed (b : RefBatch) (p : Pending) (rest : List Pending) :
      b.refs.get? p.1 ≠ p.2.1.observed →
      Stop t (.comparing b (p :: rest)) (.changed p.1) b.drop
  | unqueued (b : RefBatch) (p : Pending) (rest : List Pending) (e : NativeError) :
      Stop t (.queueing b (p :: rest)) (.unqueued e) b.drop
  | unwritten (b : RefBatch) (first : String) (e : NativeError) :
      Stop t (.writing b) (.unwritten first e) b.drop
  | written (b : RefBatch) :
      Stop t (.writing b) .written (RefBatch.writeAll b.drop b.changes.reverse)

/-- There are no other steps. -/
theorem step_cases (t : Transaction) (x : Stage) :
    (∃ y, t.step x = .inl y ∧ t.Advance x y)
    ∨ ∃ exit after, t.step x = .inr (exit, after) ∧ t.Stop x exit after := by
  cases x with
  | starting refs =>
      by_cases hpending : t.pending = []
      · exact Or.inr ⟨_, _, step_idle hpending, .idle refs hpending⟩
      cases hattempt : refs.attempt .begin with
      | error e =>
          have hbegin : RefBatch.begin refs = .error e := by
            rw [RefBatch.begin, hattempt]
            rfl
          exact Or.inr ⟨_, _, step_unopened hpending hbegin, .unopened refs e⟩
      | ok u =>
          have hbegin : RefBatch.begin refs = .ok ⟨refs, [], []⟩ := by
            rw [RefBatch.begin, hattempt]
            rfl
          exact Or.inl ⟨_, step_begins hpending hbegin, .begin refs⟩
  | locking b rest =>
      cases rest with
      | nil => exact Or.inl ⟨_, rfl, .locked b⟩
      | cons name rest =>
          rcases b.lock_cases name with ⟨e, hlock⟩ | hlock
          · exact Or.inr ⟨_, _, step_unlockable hlock, .unlockable b name rest e⟩
          · exact Or.inl ⟨_, step_locks hlock, .lock b name rest⟩
  | comparing b rest =>
      cases rest with
      | nil => exact Or.inl ⟨_, rfl, .compared b⟩
      | cons p rest =>
          obtain ⟨name, locked, u⟩ := p
          cases hfind : b.refs.find? name with
          | error e =>
              exact Or.inr ⟨_, _, step_unreadable hfind, .unreadable b (name, locked, u) rest e⟩
          | ok current =>
              -- what is read is what is stored, so the comparison is one of stored values
              have hcurrent : current = b.refs.get? name := RefStore.find?_ok hfind
              by_cases hsame : current = locked.observed
              · exact Or.inl ⟨_, step_agrees hfind hsame,
                  .agree b (name, locked, u) rest (hcurrent ▸ hsame)⟩
              · exact Or.inr ⟨_, _, step_changed hfind hsame,
                  .changed b (name, locked, u) rest (hcurrent ▸ hsame)⟩
  | queueing b rest =>
      cases rest with
      | nil => exact Or.inl ⟨_, rfl, .queued b⟩
      | cons p rest =>
          obtain ⟨name, locked, u⟩ := p
          cases hqueue : changeOf b.refs t.defaultMessage u >>= b.queue name with
          | error e =>
              exact Or.inr ⟨_, _, step_unqueued hqueue, .unqueued b (name, locked, u) rest e⟩
          | ok c =>
              obtain ⟨change, hchange, rfl⟩ := queue_ok hqueue
              exact Or.inl ⟨_, step_queues hqueue,
                .queue b (name, locked, u) rest change (changeOf_value? hchange)⟩
  | writing b =>
      rcases b.commit_cases with ⟨e, hcommit⟩ | hcommit
      · exact Or.inr ⟨_, _, step_unwritten hcommit,
          .unwritten b ((t.pending.map (·.1)).headD "") e⟩
      · exact Or.inr ⟨_, _, step_written hcommit, .written b⟩

/-- A step to a further stage advances the run. -/
theorem step_advances (hstep : t.step x = .inl y) : t.Advance x y := by
  rcases t.step_cases x with ⟨y', hy, h⟩ | ⟨exit, after, hexit, -⟩
  · obtain rfl := Sum.inl.inj (hy.symm.trans hstep)
    exact h
  · exact absurd (hexit.symm.trans hstep) Sum.inr_ne_inl

/-- A step that ends the run stops it for one of the listed reasons. -/
theorem step_stops (hend : t.step x = .inr (exit, after)) : t.Stop x exit after := by
  rcases t.step_cases x with ⟨y, hy, -⟩ | ⟨exit', after', hexit, h⟩
  · exact absurd (hy.symm.trans hend) Sum.inl_ne_inr
  · obtain ⟨rfl, rfl⟩ := Prod.mk.inj (Sum.inr.inj (hexit.symm.trans hend))
    exact h

/-! ## Progress -/

/-- The locks of all names are taken. -/
def Locked (t : Transaction) (b : RefBatch) : Prop := ∀ p ∈ t.pending, p.1 ∈ b.taken

/-- All names have what they had when they were locked. -/
def Unmoved (t : Transaction) (refs : RefStore) : Prop :=
  ∀ p ∈ t.pending, refs.get? p.1 = p.2.1.observed

/-- The batch has these changes. -/
def Queued (b : RefBatch) (done : List Pending) : Prop :=
  b.changes.reverse.map (fun c => (c.1, c.2.value?))
    = done.map fun p => (p.1, p.2.2.mutation.value?)

/-- One more change is queued. -/
theorem Queued.push {b : RefBatch} {done : List Pending} (h : Queued b done) (p : Pending) {change : RefChange}
    (hvalue : change.value? = p.2.2.mutation.value?) :
    Queued { b with changes := (p.1, change) :: b.changes } (done ++ [p]) := by
  show ((p.1, change) :: b.changes).reverse.map _ = _
  rw [List.reverse_cons, List.map_append, h, List.map_append, List.map_singleton,
    List.map_singleton, hvalue]

/-- The changes have the names of what they are for. -/
theorem Queued.names {b : RefBatch} {done : List Pending} (h : Queued b done) :
    b.changes.reverse.map Prod.fst = done.map (·.1) := by
  have hfirst := congrArg (List.map Prod.fst) h
  rw [List.map_map, List.map_map] at hfirst
  exact hfirst

/-- What holds of a commit at each stage. -/
def Progress (t : Transaction) : Stage → Prop
  | .starting _ => True
  | .locking b rest => b.changes = []
    ∧ ∃ done, t.pending.map (·.1) = done ++ rest ∧ ∀ name ∈ done, name ∈ b.taken
  | .comparing b rest => b.changes = [] ∧ t.Locked b
    ∧ ∃ done, t.pending = done ++ rest ∧ ∀ p ∈ done, b.refs.get? p.1 = p.2.1.observed
  | .queueing b rest => t.Locked b ∧ t.Unmoved b.refs
    ∧ ∃ done, t.pending = done ++ rest ∧ Queued b done
  | .writing b => t.Locked b ∧ t.Unmoved b.refs ∧ Queued b t.pending

/-- A step of the commit makes progress. -/
theorem Progress.step (h : t.Progress x) (hstep : t.step x = .inl y) : t.Progress y := by
  cases step_advances hstep with
  | begin refs => exact ⟨rfl, [], rfl, fun _ hmem => absurd hmem List.not_mem_nil⟩
  -- each pass goes over a prefix of the pending updates, one of them more with each step
  | lock b name rest =>
      obtain ⟨hchanges, done, hdone, htaken⟩ := h
      refine ⟨hchanges, done ++ [name], hdone.trans (List.append_cons ..), ?_⟩
      intro other hother
      rcases List.mem_append.mp hother with hold | hnew
      · exact List.mem_cons_of_mem _ (htaken other hold)
      · rw [List.mem_singleton.mp hnew]
        exact List.mem_cons_self
  | locked b =>
      obtain ⟨hchanges, done, hdone, htaken⟩ := h
      refine ⟨hchanges, ?_, [], rfl, fun _ hmem => absurd hmem List.not_mem_nil⟩
      intro p hp
      rw [List.append_nil] at hdone
      exact htaken p.1 (hdone ▸ List.mem_map.mpr ⟨p, hp, rfl⟩)
  | agree b p rest hagree =>
      obtain ⟨hchanges, hlocked, done, hdone, hsame⟩ := h
      refine ⟨hchanges, hlocked, done ++ [p], hdone.trans (List.append_cons ..), ?_⟩
      intro q hq
      rcases List.mem_append.mp hq with hold | hnew
      · exact hsame q hold
      · rw [List.mem_singleton.mp hnew]
        exact hagree
  | compared b =>
      obtain ⟨hchanges, hlocked, done, hdone, hsame⟩ := h
      refine ⟨hlocked, ?_, [], rfl, ?_⟩
      · intro p hp
        rw [hdone, List.append_nil] at hp
        exact hsame p hp
      · rw [Queued, hchanges]
        rfl
  | queue b p rest change hvalue =>
      obtain ⟨hlocked, hunmoved, done, hdone, hqueued⟩ := h
      exact ⟨hlocked, hunmoved, done ++ [p], hdone.trans (List.append_cons ..),
        hqueued.push p hvalue⟩
  | queued b =>
      obtain ⟨hlocked, hunmoved, done, hdone, hqueued⟩ := h
      rw [List.append_nil] at hdone
      exact ⟨hlocked, hunmoved, hdone ▸ hqueued⟩

/-- Other programs cannot undo it: the names that count are locked. -/
theorem Progress.others (h : t.Progress x) {refs : RefStore}
    (hspare : ∀ name ∈ x.taken, refs.get? name = x.refs.get? name) :
    t.Progress (x.setRefs refs) := by
  -- every name that was compared is locked, and so is spared by the others
  have hunmoved : ∀ b : RefBatch, x.taken = b.taken → x.refs = b.refs → t.Locked b →
      ∀ p ∈ t.pending, b.refs.get? p.1 = p.2.1.observed → refs.get? p.1 = p.2.1.observed := by
    intro b htaken hrefs hlocked p hp hsame
    rw [hspare p.1 (htaken ▸ hlocked p hp), hrefs, hsame]
  cases x with
  | starting _ => trivial
  | locking b rest => exact h
  | comparing b rest =>
      obtain ⟨hchanges, hlocked, done, hdone, hsame⟩ := h
      refine ⟨hchanges, hlocked, done, hdone, ?_⟩
      intro p hp
      have hmem : p ∈ t.pending := hdone ▸ List.mem_append_left _ hp
      exact hunmoved b rfl rfl hlocked p hmem (hsame p hp)
  | queueing b rest =>
      obtain ⟨hlocked, hsame, hqueued⟩ := h
      exact ⟨hlocked, fun p hp => hunmoved b rfl rfl hlocked p hp (hsame p hp), hqueued⟩
  | writing b =>
      obtain ⟨hlocked, hsame, hqueued⟩ := h
      exact ⟨hlocked, fun p hp => hunmoved b rfl rfl hlocked p hp (hsame p hp), hqueued⟩

/-- Every stage of a run keeps to the progress. -/
theorem Reaches.progress {refs : RefStore} (h : t.Reaches (.starting refs) x) : t.Progress x := by
  induction h with
  | here => trivial
  | own _ hstep ih => exact ih.step hstep
  | others _ hspare ih => exact ih.others hspare

/-! ## The end -/

/-- Before its end a commit changes nothing. -/
theorem step_same (hstep : t.step x = .inl y) : y.refs.Same x.refs := by
  cases step_advances hstep with
  | begin | lock | locked | agree | compared | queue | queued => exact ⟨rfl, rfl⟩

/-- What the end of a commit says of its last stage and of what it leaves. -/
inductive Ended (t : Transaction) (x : Stage) (exit : Exit) (after : RefStore) : Prop
  /-- The disk refused to lock or to read a name. -/
  | refused (e : Error) : exit.result = .error e → ¬ exit.Looked → after.Same x.refs →
      Ended t x exit after
  | changed (p : Pending) : p ∈ t.pending → exit = .changed p.1 →
      x.refs.get? p.1 ≠ p.2.1.observed → after.Same x.refs → Ended t x exit after
  /-- The disk refused a change. -/
  | failed (e : Error) : exit.result = .error e → (∀ name, exit ≠ .changed name) →
      t.Unmoved x.refs → after.Same x.refs → Ended t x exit after
  | made : exit.result = .ok () → t.Unmoved x.refs →
      (∀ p ∈ t.pending,
        after.get? p.1 = RefStore.settled (x.refs.get? p.1) p.2.2.mutation.value?) →
      (∀ name, name ∉ t.pending.map (·.1) → after.get? name = x.refs.get? name) →
      Ended t x exit after

/-- What the changes of a complete batch come to. -/
theorem Queued.written {b : RefBatch} (ho : t.refs.Ordered) (h : Queued b t.pending) :
    let after := RefBatch.writeAll b.drop b.changes.reverse
    (∀ p ∈ t.pending, after.get? p.1 = RefStore.settled (b.refs.get? p.1) p.2.2.mutation.value?)
      ∧ ∀ name, name ∉ t.pending.map (·.1) → after.get? name = b.refs.get? name := by
  -- the changes have the names of the pending ones, and those are all different
  have hnames := h.names
  constructor
  · intro p hp
    have hmem : (p.1, p.2.2.mutation.value?) ∈ b.changes.reverse.map fun c => (c.1, c.2.value?) :=
      h ▸ List.mem_map.mpr ⟨p, hp, rfl⟩
    obtain ⟨⟨name, change⟩, hc, heq⟩ := List.mem_map.mp hmem
    obtain ⟨rfl, hvalue⟩ := Prod.mk.inj heq
    rw [RefBatch.get?_writeAll _ _ (hnames ▸ pending_nodup ho) hc, hvalue]
    rfl
  · intro name hname
    rw [RefBatch.get?_writeAll_other _ _ (hnames ▸ hname)]
    rfl

/-- Where a run ends, its progress says what has been looked at. -/
theorem Progress.ended (ho : t.refs.Ordered) (h : t.Progress x)
    (hend : t.step x = .inr (exit, after)) : Ended t x exit after := by
  cases step_stops hend with
  | idle _ hnothing =>
      have hnone : ∀ p, p ∉ t.pending := by
        intro p
        rw [hnothing]
        exact List.not_mem_nil
      exact .made rfl (fun p hp => absurd hp (hnone p)) (fun p hp => absurd hp (hnone p))
        (fun _ _ => rfl)
  | unopened _ e => exact .refused (.ofNative e) rfl (fun hl => hl) ⟨rfl, rfl⟩
  | unlockable b name rest e => exact .refused (lockError e name) rfl (fun hl => hl) ⟨rfl, rfl⟩
  | unreadable b p rest e => exact .refused (.ofNative e) rfl (fun hl => hl) ⟨rfl, rfl⟩
  | changed b p rest hmoved =>
      obtain ⟨-, -, done, hdone, -⟩ := h
      refine .changed p ?_ rfl hmoved ⟨rfl, rfl⟩
      rw [hdone]
      exact List.mem_append_right _ List.mem_cons_self
  | unqueued b p rest e =>
      obtain ⟨-, hunmoved, -⟩ := h
      exact .failed (.ofNative e) rfl (fun _ => Exit.noConfusion) hunmoved ⟨rfl, rfl⟩
  | unwritten b first e =>
      obtain ⟨-, hunmoved, -⟩ := h
      exact .failed (lockError e first) rfl (fun _ => Exit.noConfusion) hunmoved ⟨rfl, rfl⟩
  | written b =>
      obtain ⟨-, hunmoved, hqueued⟩ := h
      obtain ⟨hwritten, hother⟩ := hqueued.written ho
      exact .made rfl hunmoved hwritten hother

end Transaction

end Gitwork
