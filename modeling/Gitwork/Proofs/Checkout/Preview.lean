import Gitwork.Checkout.Basic
import Gitwork.Proofs.Checkout.Report
import Gitwork.Proofs.Payload.Passthrough

/-! # What a preview tells

    A preview makes the calls that are due by its report in turn, up to the
    first that the handler does not let pass (`UntilFailure`), and then ends
    well whatever became of that call (`Preview.run_tell`). -/

namespace Gitwork

/-! ## Calls in turn -/

namespace Outcome

variable {ρ : Type}

/-- The one who called goes on. -/
def Passes : Outcome ρ → Prop
  | value _ | decline => True
  | fail _ | panicked _ => False

def failure? : Outcome ρ → Option Error
  | fail e => some e
  | _ => none

def panic? : Outcome ρ → Option String
  | panicked text => some text
  | _ => none

end Outcome

/-- How a call at a site ends; without a handler it is declined. -/
def HandlerSet.outcome (h : HandlerSet) (site : CallSite) (earlier : List Call) (call : Call) :
    Outcome site.Value :=
  (h.handler? site).elim .decline fun f => f.answer earlier call

/-- From the calls that are due to the calls that are made: all up to the first
    one that does not pass, whose outcome is the last part. -/
inductive UntilFailure {ρ : Type} (answer : List Call → Call → Outcome ρ) :
    List Call → List Call → List Call → Option (Outcome ρ) → Prop
  | all (earlier : List Call) : UntilFailure answer earlier [] [] none
  | passed {earlier due made : List Call} {c : Call} {cut : Option (Outcome ρ)} :
      (answer earlier c).Passes → UntilFailure answer (c :: earlier) due made cut →
      UntilFailure answer earlier (c :: due) (c :: made) cut
  | cut {earlier due : List Call} {c : Call} :
      ¬ (answer earlier c).Passes →
      UntilFailure answer earlier (c :: due) [c] (some (answer earlier c))

/-! ## The mask of notifications -/

namespace NotifyKind

theorem bit_inj {k k' : NotifyKind} (h : k.bit = k'.bit) : k = k' := by
  cases k <;> cases k' <;> first | rfl | exact nomatch h

/-- The mask of one kind holds its own bit alone. -/
theorem testBit_mask (k k' : NotifyKind) : k.mask.testBit k'.bit = decide (k' = k) := by
  rw [mask, Nat.one_shiftLeft, Nat.testBit_two_pow, decide_eq_decide]
  exact ⟨fun h => (bit_inj h).symm, fun h => (congrArg bit h).symm⟩

/-- A mask built from kinds holds the bits of these kinds and those it had. -/
theorem testBit_foldl (ks : List NotifyKind) (m : Nat) (k : NotifyKind) :
    (ks.foldl (fun m k => m ||| k.mask) m).testBit k.bit = (m.testBit k.bit || ks.contains k) := by
  induction ks generalizing m with
  | nil => simp
  | cons k' rest ih =>
      rw [List.foldl_cons, ih, Nat.testBit_or, testBit_mask, List.contains_cons, Bool.or_assoc]
      rfl

end NotifyKind

/-- The mask holds the kinds that are wanted. -/
theorem HandlerSet.testBit_notifyMask (h : HandlerSet) (k : NotifyKind) :
    h.notifyMask.testBit k.bit = h.wanted.contains k := by
  rw [notifyMask, NotifyKind.testBit_foldl, Nat.zero_testBit, Bool.false_or]

/-- A kind is only wanted where a handler is installed. -/
theorem HandlerSet.has_of_wanted {h : HandlerSet} {k : NotifyKind}
    (hk : h.wanted.contains k = true) : h.has .checkoutNotify = true := by
  by_contra hnone
  rw [wanted, if_neg hnone] at hk
  exact nomatch hk

/-! ## Operations that ask -/

namespace Engine

variable {σ α : Type}

theorem tree_ask (c : Call) (next : Reply c.site.Value → Engine σ α) (s : σ) :
    (ask c >>= next).tree s = .call none c fun r => (next r).tree s := rfl

end Engine

/-- The payload of an operation that has made calls and not failed. -/
def Payload.calm (caller : ThreadId) (handlers : HandlerSet) (calls : List Call) : Payload :=
  ⟨caller, handlers, calls, none⟩

namespace Preview

variable {σ : Type}

/-- The calls that a report asks for: one for each line whose kind is in the mask. -/
def due (handlers : HandlerSet) (report : Report) : List Call :=
  (report.filter fun l => handlers.notifyMask.testBit l.2.bit).map fun l =>
    .checkoutNotify l.2 (some l.1)

/-- A payload that knows of no other calls shows the handler all that it knows. -/
theorem callsAt_of_site {p : Payload} {site : CallSite} (h : ∀ c ∈ p.calls, c.site = site) :
    p.callsAt site = p.calls := by
  refine List.filter_eq_self.mpr ?_
  intro c hc
  exact decide_eq_true (h c hc)

section OneCall

variable {caller : ThreadId} {handlers : HandlerSet} {kind : NotifyKind} {path : Option String}
  {earlier : List Call}

/-- How a notification ends for the engine. -/
def notified : Outcome Unit → Fired Unit
  | .value r => .replied (.ofValue r)
  | .decline => .replied (.ofStatus .ok)
  | .fail _ => .replied (.ofStatus .user)
  | .panicked text => .panicked text

/-- What a payload without a parked error replies to a notification, and what it parks. -/
theorem fire_calm {f : Handler .checkoutNotify} (hf : handlers.handler? .checkoutNotify = some f)
    (hsite : ∀ c ∈ earlier, c.site = .checkoutNotify) {o : Outcome Unit}
    (ho : f.answer earlier (.checkoutNotify kind path) = o) :
    (Payload.calm caller handlers earlier).fire caller (.checkoutNotify kind path)
      = (notified o, ⟨caller, handlers, .checkoutNotify kind path :: earlier, o.failure?⟩) := by
  -- the caller is the owner, so the handler is reached
  have hown : (Payload.calm caller handlers earlier).fire caller (.checkoutNotify kind path)
      = (Payload.calm caller handlers earlier).invoke (.checkoutNotify kind path) := if_pos rfl
  -- all calls so far were notifications, so the handler is shown them all
  have hanswer : f.answer ((Payload.calm caller handlers earlier).callsAt
      (Call.checkoutNotify kind path).site) (.checkoutNotify kind path) = o := by
    have hseen : (Payload.calm caller handlers earlier).callsAt .checkoutNotify = earlier :=
      callsAt_of_site hsite
    show f.answer (Payload.callsAt _ .checkoutNotify) _ = o
    rw [hseen]
    exact ho
  have hinvoke : (Payload.calm caller handlers earlier).invoke (.checkoutNotify kind path) = _ :=
    Payload.invoke_some hf
  rw [hown, hinvoke, hanswer]
  cases o with
  | _ => rfl

/-- Tells of one line, and goes on if the handler lets it pass. -/
def tellThen (kind : NotifyKind) (path : Option String) (rest : Engine σ Unit) : Engine σ Unit := do
  let reply ← Engine.ask (.checkoutNotify kind path)
  if reply.goesOn then rest else pure ()

/-- Told of a line that passes, the engine goes on. -/
theorem run_tellThen_passes {rest : Engine σ Unit} {s : σ}
    (hinstalled : handlers.has .checkoutNotify = true)
    (hsite : ∀ c ∈ earlier, c.site = .checkoutNotify)
    (hpasses : (handlers.outcome .checkoutNotify earlier (.checkoutNotify kind path)).Passes) :
    ((tellThen kind path rest).tree s).run caller (.calm caller handlers earlier) none
      = (rest.tree s).run caller (.calm caller handlers (.checkoutNotify kind path :: earlier))
          none := by
  obtain ⟨f, hf⟩ := Option.isSome_iff_exists.mp hinstalled
  rw [HandlerSet.outcome, hf] at hpasses
  rw [tellThen, Engine.tree_ask, Operation.run]
  cases ho : f.answer earlier (.checkoutNotify kind path) with
  | value r => rw [Option.getD_none, fire_calm hf hsite ho]; rfl
  | decline => rw [Option.getD_none, fire_calm hf hsite ho]; rfl
  | fail e => exact (by rwa [Option.elim_some, ho] at hpasses : False).elim
  | panicked text => exact (by rwa [Option.elim_some, ho] at hpasses : False).elim

/-- It ends well after any other outcome. -/
theorem run_tellThen_cut {rest : Engine σ Unit} {s : σ}
    (hinstalled : handlers.has .checkoutNotify = true)
    (hsite : ∀ c ∈ earlier, c.site = .checkoutNotify) {o : Outcome Unit}
    (ho : handlers.outcome .checkoutNotify earlier (.checkoutNotify kind path) = o)
    (hcut : ¬ o.Passes) :
    ((tellThen kind path rest).tree s).run caller (.calm caller handlers earlier) none
      = ⟨(.ok (), s), ⟨caller, handlers, .checkoutNotify kind path :: earlier, o.failure?⟩,
          o.panic?⟩ := by
  obtain ⟨f, hf⟩ := Option.isSome_iff_exists.mp hinstalled
  rw [HandlerSet.outcome, hf, Option.elim_some] at ho
  rw [tellThen, Engine.tree_ask, Operation.run, Option.getD_none, fire_calm hf hsite ho]
  -- a failure is parked and a panic unwinds: both end the preview
  cases o with
  | value r => exact absurd trivial hcut
  | decline => exact absurd trivial hcut
  | fail e => rfl
  | panicked text => rfl

end OneCall

section OneLine

variable {handlers : HandlerSet} {path : String} {kind : NotifyKind} (rest : Report)

/-- A wanted line is due. -/
theorem due_cons_of_wanted (h : handlers.wanted.contains kind = true) :
    due handlers ((path, kind) :: rest)
      = .checkoutNotify kind (some path) :: due handlers rest := by
  rw [due, List.filter_cons_of_pos (by rwa [HandlerSet.testBit_notifyMask])]
  rfl

theorem due_cons_of_unwanted (h : ¬ handlers.wanted.contains kind = true) :
    due handlers ((path, kind) :: rest) = due handlers rest := by
  rw [due, List.filter_cons_of_neg (by rwa [HandlerSet.testBit_notifyMask])]
  rfl

/-- A wanted line is told first. -/
theorem tell_cons_of_wanted (h : handlers.wanted.contains kind = true) :
    (tell handlers.wanted ((path, kind) :: rest) : Engine σ Unit)
      = tellThen kind (some path) (tell handlers.wanted rest) := by
  rw [tell, if_pos h]
  rfl

end OneLine

/-- **Telling a report.**  The handler hears the calls that are due until it does
    not let one pass; the engine sees no failure in that. -/
theorem run_tell (caller : ThreadId) (handlers : HandlerSet) (s : σ) (report : Report)
    {earlier : List Call} (hsite : ∀ c ∈ earlier, c.site = .checkoutNotify) :
    ∃ made cut, UntilFailure (handlers.outcome .checkoutNotify) earlier (due handlers report) made cut
      ∧ ((tell handlers.wanted report).tree s).run caller (.calm caller handlers earlier) none
        = ⟨(.ok (), s), ⟨caller, handlers, made.reverse ++ earlier, cut.bind Outcome.failure?⟩,
            cut.bind Outcome.panic?⟩ := by
  induction report generalizing earlier with
  | nil => exact ⟨[], none, .all earlier, rfl⟩
  | cons l rest ih =>
      obtain ⟨path, kind⟩ := l
      -- unwanted lines are skipped; the first outcome that does not pass ends the run
      by_cases hwanted : handlers.wanted.contains kind = true
      · have hinstalled : handlers.has .checkoutNotify = true := HandlerSet.has_of_wanted hwanted
        rw [due_cons_of_wanted rest hwanted, tell_cons_of_wanted rest hwanted]
        by_cases hpasses :
            (handlers.outcome .checkoutNotify earlier (.checkoutNotify kind (some path))).Passes
        · have hcall : (Call.checkoutNotify kind (some path)).site = .checkoutNotify := rfl
          obtain ⟨made, cut, huntil, hrun⟩ := ih (List.forall_mem_cons.mpr ⟨hcall, hsite⟩)
          refine ⟨_, cut, .passed hpasses huntil, ?_⟩
          rw [run_tellThen_passes hinstalled hsite hpasses, hrun, List.reverse_cons,
            List.append_assoc, List.singleton_append]
        · refine ⟨_, _, .cut hpasses, ?_⟩
          rw [run_tellThen_cut hinstalled hsite rfl hpasses]
          rfl
      · rw [tell, if_neg hwanted, due_cons_of_unwanted rest hwanted]
        exact ih hsite

/-- Nothing is told if nothing is wanted. -/
theorem tell_nil (report : Report) : (tell [] report : Engine σ Unit) = pure () := by
  induction report with
  | nil => rfl
  | cons l rest ih => exact ih

/-- What a preview does once the comparisons are made. -/
theorem tree_run (wanted : List NotifyKind)
    {compared : σ → Except NativeError (List Delta × List Delta)} {s : σ}
    {incoming changed : List Delta} (h : compared s = .ok (incoming, changed)) :
    (run wanted compared).tree s = (tell wanted (report incoming changed)).tree s := by
  cases wanted with
  | nil =>
      rw [tell_nil]
      rfl
  | cons k rest =>
      show ((Engine.ofExcept (compared s) >>= fun c => tell (k :: rest) (report c.1 c.2)).tree s) = _
      rw [h]
      rfl

/-- It fails with the comparisons, if something is wanted. -/
theorem tree_run_error {wanted : List NotifyKind} (hwanted : wanted ≠ [])
    {compared : σ → Except NativeError (List Delta × List Delta)} {s : σ} {e : NativeError}
    (h : compared s = .error e) : (run wanted compared).tree s = .done (.error e, s) := by
  cases wanted with
  | nil => exact absurd rfl hwanted
  | cons k rest =>
      show ((Engine.ofExcept (compared s) >>= fun c => tell (k :: rest) (report c.1 c.2)).tree s) = _
      rw [h]
      rfl

/-- **A preview tells its report.** -/
theorem operate_run (caller : ThreadId) (handlers : HandlerSet)
    {compared : σ → Except NativeError (List Delta × List Delta)} {s : σ}
    {incoming changed : List Delta} (h : compared s = .ok (incoming, changed)) :
    ∃ made cut, UntilFailure (handlers.outcome .checkoutNotify) []
        (due handlers (report incoming changed)) made cut
      ∧ (((run handlers.wanted compared).tree s).run caller (.new caller handlers) none).result
        = (.ok (), s)
      ∧ operate caller handlers (run handlers.wanted compared) s
        = ⟨(cut.bind Outcome.failure?).elim (.ok ()) fun e => .error (.callback e), s,
            .calm caller handlers made.reverse, cut.bind Outcome.panic?⟩ := by
  have hnone : ∀ c ∈ ([] : List Call), c.site = .checkoutNotify := fun _ hc => nomatch hc
  obtain ⟨made, cut, huntil, hrun⟩ := run_tell caller handlers s (report incoming changed) hnone
  rw [← tree_run handlers.wanted h] at hrun
  have hplayed : ((run handlers.wanted compared).tree s).run caller (.new caller handlers) none = _ :=
    hrun
  refine ⟨made, cut, huntil, by rw [hplayed], ?_⟩
  rw [operate, hplayed, Payload.check_eq, List.append_nil]
  rfl

end Preview

/-- **A preview tells an exact report.**

    Take any two comparisons, any set of handlers, with whatever mask, and any
    caller.  There is one report that is exact for the comparisons.  The
    handler hears the lines of that report whose kinds are in the mask, in
    turn, and none after the first that it does not let pass.  For the engine
    the preview ends well, with the state as it was; what the operation reports
    is the failure of the last call, if that failed. -/
theorem preview_tells_report {σ : Type} (caller : ThreadId) (handlers : HandlerSet)
    {compared : σ → Except NativeError (List Delta × List Delta)} {s : σ}
    {incoming changed : List Delta} (h : compared s = .ok (incoming, changed)) :
    let preview := Preview.run handlers.wanted compared
    let o := operate caller handlers preview s
    ∃ report : Preview.Report, report.Exact incoming changed
      ∧ (∀ other : Preview.Report, other.Exact incoming changed → other = report)
      ∧ ∃ cut, UntilFailure (handlers.outcome .checkoutNotify) [] (Preview.due handlers report)
          o.calls cut
        ∧ ((preview.tree s).run caller (.new caller handlers) none).result = (.ok (), s)
        ∧ o.state = s
        ∧ o.result = ((cut.bind Outcome.failure?).elim (.ok ()) fun e => .error (.callback e))
        ∧ o.panicked = cut.bind Outcome.panic? := by
  intro preview o
  have hexact := Preview.report_exact incoming changed
  obtain ⟨made, cut, huntil, hnative, ho⟩ := Preview.operate_run caller handlers h
  refine ⟨_, hexact, fun other hother => hother.unique hexact, cut, ?_, hnative,
    congrArg Operated.state ho, congrArg Operated.result ho, congrArg Operated.panicked ho⟩
  -- the calls are kept newest first
  have hcalls : o.calls = made := by
    show (operate caller handlers (Preview.run handlers.wanted compared) s).calls = made
    rw [ho]
    exact made.reverse_reverse
  rw [hcalls]
  exact huntil

/-- Told of all kinds but untracked paths, until the third time. -/
def thriceTold : HandlerSet :=
  { (HandlerSet.empty .checkout).install .checkoutNotify
      (.script [.decline, .value (), .fail (.host "enough")]) with
    notifyOn := [.dirty, .conflict, .updated] }

/-- A path that comes in twice, one without a name, and one that sorts after a
    path below it. -/
def comesIn : List Delta :=
  [.ofPath .added "a.b", .ofPath .modified "a/b", ⟨.deleted, none, none⟩, .ofPath .modified "a//b"]

/-- One of the paths that come in, one that is dirty and untracked, and some
    more. -/
def staysHere : List Delta :=
  [.ofPath .untracked "d", .ofPath .untracked "c", .ofPath .modified "a/b", .ofPath .deleted "d",
    .ofPath .ignored "a.b", .ofPath .conflicted "e"]

/-- The third line is the last one that is told, and the untracked path is none
    of them. -/
theorem preview_tells_report_thrice :
    let o := operate 1 thriceTold (Preview.run thriceTold.wanted fun _ => .ok (comesIn, staysHere)) ()
    (∃ report cut, Preview.Report.Exact comesIn staysHere report
      ∧ UntilFailure (thriceTold.outcome .checkoutNotify) [] (Preview.due thriceTold report)
        o.calls cut)
      ∧ o.calls = [.checkoutNotify .conflict (some "a/b"), .checkoutNotify .updated (some "a.b"),
        .checkoutNotify .dirty (some "d")]
      ∧ o.result = .error (.callback (.host "enough")) := by
  intro o
  obtain ⟨report, hexact, -, cut, huntil, -⟩ := @preview_tells_report Unit 1 thriceTold
    (fun _ => .ok (comesIn, staysHere)) () comesIn staysHere rfl
  have hrun : (o.calls, o.result) = ([.checkoutNotify .conflict (some "a/b"),
      .checkoutNotify .updated (some "a.b"), .checkoutNotify .dirty (some "d")],
      .error (.callback (.host "enough"))) := by
    rfl
  obtain ⟨hcalls, hresult⟩ := Prod.mk.inj hrun
  exact ⟨⟨report, cut, hexact, huntil⟩, hcalls, hresult⟩

end Gitwork
