import Gitwork.Operation.Basic
import Gitwork.Proofs.Payload.Registration

/-! # The first failure of an operation

    While the engine works it calls the host, from the thread of the operation
    or from others, and goes on as it likes with each reply.  The failures of
    these callbacks, in their order, are the operation's `failures`.

    * a callback parks its failure if none is parked (`Payload.fire_deferred`);
    * hence, at the end of any operation, the payload holds the first one
      (`Operation.run_deferred`), and the check reports it (`Payload.check_parked`);
    * callbacks by id do the same, however other payloads come and go
      (`Operation.Playing.reaches`). -/

namespace Gitwork

variable {α β σ : Type}

/-! ## One callback -/

namespace Payload

/-- The failure of a callback, if it fails: it comes from a thread that is not
    the owner's, or the handler of its site gives up with an error. -/
def failure? (p : Payload) (caller : ThreadId) (call : Call) : Option Error :=
  if caller = p.owner then
    (p.handlers.handler? call.site).bind fun h =>
      match h.answer (p.calls.filter (·.site = call.site)) call with
      | .fail e => some e
      | _ => none
  else some (.threadAffinity .payload p.owner caller)

theorem record_deferred (p : Payload) (e : Error) :
    (p.record e).deferred = p.deferred.or (some e) := by
  show (p.deferred.orElse fun _ => some e) = _
  rw [Option.orElse_eq_or]

/-- A callback parks its failure, unless an earlier one is parked. -/
theorem fire_deferred (p : Payload) (caller : ThreadId) (call : Call) :
    (p.fire caller call).2.deferred = p.deferred.or (p.failure? caller call) := by
  -- only a handler that runs on the owner's thread and fails parks an error of its own
  by_cases hc : caller = p.owner
  · simp only [fire, failure?, if_pos hc, invoke]
    cases hh : p.handlers.handler? call.site with
    | none => simp
    | some h =>
        cases ha : h.answer (p.calls.filter (·.site = call.site)) call with
        | value r => simp [ha]
        | decline => simp [ha]
        | fail e => simp [ha, record_deferred]
        | panicked text => simp [ha]
  · simp only [fire, failure?, if_neg hc]
    exact record_deferred p _

/-- Neither the owner nor the handlers change in a callback. -/
theorem fire_handlers (p : Payload) (caller : ThreadId) (call : Call) :
    (p.fire caller call).2.handlers = p.handlers := by
  by_cases hc : caller = p.owner
  · simp only [fire, if_pos hc, invoke]
    cases hh : p.handlers.handler? call.site with
    | none => rfl
    | some h =>
        cases ha : h.answer (p.calls.filter (·.site = call.site)) call with
        | value r => simp [ha]
        | decline => simp [ha]
        | fail e => simp [ha, record]
        | panicked text => simp [ha]
  · simp only [fire, if_neg hc]
    rfl

/-- The check reports what is parked before what the engine says, and empties the slot. -/
theorem check_eq (p : Payload) (result : Except NativeError α) :
    p.check result = (p.deferred.elim (result.mapError .ofNative) fun e => .error (.callback e),
      { p with deferred := none }) := by
  cases hd : p.deferred with
  | none => simp [check, takeError, hd]
  | some e => simp [check, takeError, hd]

end Payload

/-! ## All callbacks of an operation -/

namespace Operation

/-- The failures of the callbacks of an operation, in their order.  Once a
    handler has panicked, there are no callbacks any more. -/
def failures (caller : ThreadId) : Payload → Option String → Operation α → List Error
  | _, _, done _ => []
  | p, some text, call _ _ next => failures caller p (some text) (next (.ofStatus .error))
  | p, none, call thread c next =>
    let own := (p.failure? (thread.getD caller) c).toList
    match p.fire (thread.getD caller) c with
    | (.replied r, q) => own ++ failures caller q none (next r)
    | (.panicked text, q) => own ++ failures caller q (some text) (next (.ofStatus .error))

/-- At the end of an operation its first failure is parked, unless there was an
    earlier one. -/
theorem run_deferred (caller : ThreadId) (op : Operation α) (p : Payload)
    (panicked : Option String) :
    (op.run caller p panicked).payload.deferred
      = p.deferred.or (op.failures caller p panicked).head? := by
  induction op generalizing p panicked with
  | done a => exact (Option.or_none).symm
  | call thread c next ih =>
      cases panicked with
      | some text => exact ih (.ofStatus .error) p (some text)
      | none =>
          -- what the callback parks comes before what the rest of the operation parks
          have hpark := p.fire_deferred (thread.getD caller) c
          have hown : ∀ rest : List Error,
              ((p.failure? (thread.getD caller) c).toList ++ rest).head?
                = (p.failure? (thread.getD caller) c).or rest.head? := by
            intro rest
            cases p.failure? (thread.getD caller) c with
            | none => rfl
            | some e => rfl
          simp only [run, failures]
          cases hf : p.fire (thread.getD caller) c with
          | mk fired q =>
              rw [hf] at hpark
              cases fired with
              | replied r =>
                  show ((next r).run caller q none).payload.deferred = _
                  rw [ih r q none, hpark, hown, Option.or_assoc]
              | panicked text =>
                  show ((next (.ofStatus .error)).run caller q (some text)).payload.deferred = _
                  rw [ih (.ofStatus .error) q (some text), hpark, hown, Option.or_assoc]

end Operation

/-- What a check has to report of an operation with these failures and this
    result of the engine. -/
structure Surfaces (failures : List Error) (native : Except NativeError α)
    (reported : Except Error α) : Prop where
  /-- The first failure, as it is. -/
  first : ∀ e later, failures = e :: later → reported = .error (.callback e)
  /-- Without a failure, what the engine says. -/
  native : failures = [] → reported = native.mapError .ofNative
  /-- Then no handler is to blame. -/
  unblamed : failures = [] → ∀ e, reported = .error e → e.cause? = none

/-- The check of a payload that holds the first failure reports it. -/
theorem Payload.check_parked {p : Payload} {failures : List Error}
    (hp : p.deferred = failures.head?) (native : Except NativeError α) :
    Surfaces failures native (p.check native).1 := by
  rw [Payload.check_eq, hp]
  refine ⟨?_, ?_, ?_⟩
  · intro e later hfail
    rw [hfail]
    rfl
  · intro hfail
    rw [hfail]
    rfl
  · intro hfail e he
    rw [hfail] at he
    cases native with
    | ok a => exact nomatch he
    | error n =>
        rw [← Except.error.inj he]
        rfl

/-- So after an operation that began with an empty slot. -/
theorem Operation.run_parked (caller : ThreadId) (op : Operation α) {p : Payload}
    (hp : p.deferred = none) :
    (op.run caller p none).payload.deferred = (op.failures caller p none).head? := by
  rw [op.run_deferred, hp, Option.none_or]

/-! ## Callbacks that carry an id -/

namespace Operation

/-- An operation under way: the registry of the process, the text of the first
    panic, and what the engine does next. -/
structure Underway (α : Type) where
  payloads : Registry Payload
  panicked : Option String
  rest : Operation α

/-- The operation of a payload goes on, from one point to a later one; its
    callbacks carry the id of the payload.  In between others do as they like. -/
inductive Playing (id : PayloadId) (kind : SetKind) (caller : ThreadId) :
    Underway α → Underway α → Prop
  | here (x : Underway α) : Playing id kind caller x x
  | replied {payloads after : Registry Payload} {thread : Option ThreadId} {c : Call}
      {next : Reply c.site.Value → Operation α} {r : Reply c.site.Value} {y : Underway α} :
      payloads.fire id kind (thread.getD caller) c = (.replied r, after) →
      Playing id kind caller ⟨after, none, next r⟩ y →
      Playing id kind caller ⟨payloads, none, call thread c next⟩ y
  | panicked {payloads after : Registry Payload} {thread : Option ThreadId} {c : Call}
      {next : Reply c.site.Value → Operation α} {text : String} {y : Underway α} :
      payloads.fire id kind (thread.getD caller) c = (.panicked text, after) →
      Playing id kind caller ⟨after, some text, next (.ofStatus .error)⟩ y →
      Playing id kind caller ⟨payloads, none, call thread c next⟩ y
  | unwinding {payloads : Registry Payload} {thread : Option ThreadId} {c : Call}
      {next : Reply c.site.Value → Operation α} {text : String} {y : Underway α} :
      Playing id kind caller ⟨payloads, some text, next (.ofStatus .error)⟩ y →
      Playing id kind caller ⟨payloads, some text, call thread c next⟩ y
  | others {payloads : Registry Payload} {m : Registry.Move} {panicked : Option String}
      {rest : Operation α} {y : Underway α} :
      m.Spares id → Playing id kind caller ⟨payloads.apply m, panicked, rest⟩ y →
      Playing id kind caller ⟨payloads, panicked, rest⟩ y

/-- A callback of an operation under way is a callback of its payload, which
    stays registered. -/
theorem fire_underway {payloads after : Registry Payload} {id : PayloadId} {p : Payload}
    (hsound : payloads.Sound) (hp : payloads.get? id = some p) {thread : ThreadId} {c : Call}
    {fired : Fired c.site.Value}
    (hf : payloads.fire id p.handlers.kind thread c = (fired, after)) :
    after.Sound ∧ ∃ q, p.fire thread c = (fired, q) ∧ after.get? id = some q
      ∧ q.handlers.kind = p.handlers.kind := by
  obtain ⟨h1, h2⟩ := Registry.fire_registered hp thread c
  rw [hf] at h1 h2
  -- the entry becomes what the callback made of the payload
  obtain rfl : after = _ := h2
  refine ⟨hsound.modify id _, (p.fire thread c).2, ?_, ?_, ?_⟩
  · exact Prod.ext h1.symm rfl
  · exact Registry.get?_modify_self hp _
  · rw [Payload.fire_handlers]

/-- What is left of an operation under way plays to the same end at all times. -/
theorem Playing.reaches {id : PayloadId} {kind : SetKind} {caller : ThreadId}
    {x y : Underway α} (h : Playing id kind caller x y) :
    ∀ p, x.payloads.Sound → x.payloads.get? id = some p → p.handlers.kind = kind →
      ∃ q, y.payloads.get? id = some q
        ∧ x.rest.run caller p x.panicked = y.rest.run caller q y.panicked := by
  induction h with
  | here x =>
      intro p _ hp _
      exact ⟨p, hp, rfl⟩
  | replied hf _ ih =>
      intro p hsound hp hkind
      subst hkind
      -- the reply changes the payload in the registry as it does in the run alone
      obtain ⟨hafter, q, hq, hget, hsame⟩ := fire_underway hsound hp hf
      obtain ⟨q', hget', hrun⟩ := ih q hafter hget hsame
      refine ⟨q', hget', ?_⟩
      rw [← hrun]
      simp only [run, hq]
  | panicked hf _ ih =>
      intro p hsound hp hkind
      subst hkind
      obtain ⟨hafter, q, hq, hget, hsame⟩ := fire_underway hsound hp hf
      obtain ⟨q', hget', hrun⟩ := ih q hafter hget hsame
      refine ⟨q', hget', ?_⟩
      rw [← hrun]
      simp only [run, hq]
  | unwinding _ ih =>
      intro p hsound hp hkind
      exact ih p hsound hp hkind
  | others hm _ ih =>
      intro p hsound hp hkind
      exact ih p (hsound.apply _) (Registry.get?_apply hsound hp hm) hkind

end Operation

/-! ## The operation as a whole -/

/-- **The first failure of a handler is what the operation reports.**

    Whatever the engine does with its replies, from whatever threads it calls,
    and whatever it ends with: the check reports the first failure, as it is,
    and without a failure what the engine says.  It leaves the slot empty, so
    a later check of the payload reports of the callbacks after it.  Nothing
    of this changes when the callbacks carry the id of the payload and others
    use the registry at the same time. -/
theorem first_failure_surfaces (caller : ThreadId) (handlers : HandlerSet) (op : Engine σ α)
    (s : σ) :
    let native := ((op.tree s).run caller (.new caller handlers) none).result
    let o := operate caller handlers op s
    Surfaces ((op.tree s).failures caller (.new caller handlers) none) native.1 o.result
      ∧ (∀ later : Operation (Except NativeError β),
        let again := later.run caller o.payload none
        Surfaces (later.failures caller o.payload none) again.result
          (again.payload.check again.result).1)
      ∧ ∀ moves id registry after panicked result,
        (Registry.history moves).insert (.new caller handlers) = .ok (id, registry) →
        Operation.Playing id handlers.kind caller ⟨registry, none, op.tree s⟩
          ⟨after, panicked, .done result⟩ →
        result = native ∧ ∃ q, after.get? id = some q ∧ (q.check result.1).1 = o.result := by
  intro native o
  have hempty : o.payload.deferred = none := by
    show (Payload.check _ _).2.deferred = none
    rw [Payload.check_eq]
  refine ⟨?_, ?_, ?_⟩
  · exact Payload.check_parked ((op.tree s).run_parked caller rfl) native.1
  · intro later
    exact Payload.check_parked (later.run_parked caller hempty) _
  · intro moves id registry after panicked result hinsert hplay
    have hsound := Registry.Sound.history moves
    -- with others in between, the payload still runs through the operation as alone
    obtain ⟨q, hget, hrun⟩ := hplay.reaches (.new caller handlers) (hsound.insert hinsert)
      (Registry.get?_insert_self hsound hinsert) rfl
    have hend : (op.tree s).run caller (.new caller handlers) none = ⟨result, q, panicked⟩ := hrun
    refine ⟨?_, q, hget, ?_⟩
    · show result = ((op.tree s).run caller (.new caller handlers) none).result
      rw [hend]
    · show _ = ((Payload.check _ _).1 : Except Error α)
      rw [hend]

/-- A handler whose failures the engine does not look at. -/
def failingTips : HandlerSet :=
  (HandlerSet.empty .remote).install .updateTips
    (.script [.decline, .fail (.host "tips rejected"), .fail (.host "again")])

/-- Tells of a reference three times and of another one from a foreign thread,
    and ends well whatever it is told. -/
def heedless : Engine Unit Nat := fun s =>
  let tip := Call.updateTips "refs/heads/main" .zero .zero
  .call none tip fun _ => .call none tip fun _ => .call (some 7) tip fun _ =>
    .call none tip fun _ => .done (.ok 5, s)

/-- Another payload comes and goes while the second callback is on its way. -/
theorem first_failure_surfaces_heedless :
    (operate 1 failingTips heedless ()).result = .error (.callback (.host "tips rejected"))
      ∧ ∃ after panicked result q, after.get? (.pack 0 0) = some q
        ∧ Operation.Playing (.pack 0 0) .remote 1
          ⟨⟨[⟨0, some (.new 1 failingTips)⟩], []⟩, none, heedless.tree ()⟩
          ⟨after, panicked, .done result⟩
        ∧ (q.check result.1).1 = .error (.callback (.host "tips rejected")) := by
  have h := first_failure_surfaces (β := Unit) 1 failingTips heedless ()
  have hresult := h.1.first (.host "tips rejected") _ rfl
  have hspared : (Registry.Move.remove (.pack 1 0)).Spares (.pack 0 0) := by
    show PayloadId.pack 1 0 ≠ PayloadId.pack 0 0
    decide
  have hplay : Operation.Playing (.pack 0 0) .remote 1
      ⟨⟨[⟨0, some (.new 1 failingTips)⟩], []⟩, none, heedless.tree ()⟩ ⟨_, _, .done _⟩ :=
    .replied rfl <| .others (m := .insert (.new 2 failingTips)) trivial <| .replied rfl <|
      .others hspared <| .replied rfl <| .replied rfl <| .here _
  obtain ⟨-, q, hget, hcheck⟩ := h.2.2 [] (.pack 0 0) _ _ _ _ rfl hplay
  exact ⟨hresult, _, _, _, q, hget, hplay, hcheck.trans hresult⟩

end Gitwork
