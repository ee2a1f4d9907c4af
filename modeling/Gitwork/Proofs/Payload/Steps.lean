import Gitwork.Payload.Run
import Gitwork.Proofs.Payload.Registration

/-! # Steps of payloads

    What programs and engine do with payloads, one step after the other: make
    one, run a callback with its id, ask for its failure, drop it.  Each step
    goes by the name of a payload and has an answer; the steps of a run with
    their answers are its transcript.

    A callback of a dropped payload or of a payload of another kind is refused
    and leaves the run as it is (`PayloadRun.fire_dead`, `PayloadRun.fire_mistaken`);
    every other one is a callback of its payload (`PayloadRun.fire_alive`). -/

namespace Gitwork

/-- One step with the payload of a name. -/
inductive PayloadStep : Type 1
  | new (name : String) (owner : ThreadId) (handlers : HandlerSet)
  /-- A callback with the id that the name got last, resolved as a payload of
      its own kind or of another one. -/
  | fire (name : String) (kind : Option SetKind) (caller : ThreadId) (call : Call)
  | hasError (name : String)
  | takeError (name : String)
  | check {α : Type} (name : String) (native : Except NativeError α)
  | checkStatus (name : String) (s : Status)
  | drop (name : String)

namespace PayloadStep

def name : PayloadStep → String
  | new name .. | fire name .. | hasError name | takeError name | check name _
  | checkStatus name _ | drop name => name

/-- What a step gives; nothing, if it needs a payload or an id and the name has
    none.  A creation says whether an earlier payload of the name was dropped for
    it, a callback what it reports and which calls reached a handler. -/
def Answer : PayloadStep → Type
  | new .. => Except Error Bool
  | fire _ _ _ call => Option (Fired call.site.Value × List Call)
  | hasError _ => Option Bool
  | takeError _ => Option (Option Error)
  | @check α _ _ => Option (Except Error α)
  | checkStatus .. => Option (Except Error Unit)
  | drop _ => Bool

end PayloadStep

/-- A step with its answer. -/
abbrev Told : Type 1 := (s : PayloadStep) × s.Answer

namespace Payload

/-- The calls that reached a handler in a callback. -/
def callsIn (p : Payload) (caller : ThreadId) (call : Call) : List Call :=
  let log := (p.fire caller call).2.calls
  (log.take (log.length - p.calls.length)).reverse

/-- A callback from another thread only parks its failure. -/
theorem fire_foreign {p : Payload} {caller : ThreadId} (h : caller ≠ p.owner) (call : Call) :
    p.fire caller call
      = (.replied (.ofStatus .user), p.record (.threadAffinity .payload p.owner caller)) :=
  if_neg h

/-- Another thread reaches no handler. -/
theorem callsIn_foreign {p : Payload} {caller : ThreadId} (h : caller ≠ p.owner) (call : Call) :
    p.callsIn caller call = [] := by
  have hlog : (p.fire caller call).2.calls = p.calls := by
    rw [fire_foreign h]
    rfl
  rw [callsIn, hlog, Nat.sub_self]
  rfl

end Payload

namespace PayloadRun

/-! ## One step -/

/-- Asks the payload of a name. -/
def ask {α : Type} (r : PayloadRun) (name : String) (f : Payload → α × Payload) :
    Option α × PayloadRun :=
  match r.onPayload name f with
  | some (a, after) => (some a, after)
  | none => (none, r)

/-- Asking a payload puts it back as the question leaves it. -/
theorem ask_alive {α : Type} {r : PayloadRun} {name : String} {p : Payload}
    (h : r.payload? name = some p) (f : Payload → α × Payload) :
    r.ask name f = (some (f p).1, r.put name (f p).2) := by
  rw [ask, onPayload, h]
  rfl

theorem ask_none {α : Type} {r : PayloadRun} {name : String} (h : r.payload? name = none)
    (f : Payload → α × Payload) : r.ask name f = (none, r) := by
  rw [ask, onPayload, h]
  rfl

/-- A callback needs an id; a name that never got one has none to give. -/
def play (r : PayloadRun) : (s : PayloadStep) → s.Answer × PayloadRun
  | .new name owner handlers =>
    match r.new name owner handlers with
    | .ok after => (.ok (r.live.contains name), after)
    | .error e => (.error e, r)
  | .fire name kind caller call =>
    if (r.ids.lookup name).isSome then
      let (fired, calls, after) := r.fire name kind caller call
      (some (fired, calls), after)
    else (none, r)
  | .hasError name => ((r.payload? name).map (·.hasError), r)
  | .takeError name => r.ask name (·.takeError)
  | .check name native => r.ask name (·.check native)
  | .checkStatus name s => r.ask name (·.checkStatus s)
  | .drop name => r.drop name

variable {r : PayloadRun} {name : String} {p : Payload} {kind : Option SetKind}

/-- Gives an id to a name. -/
def adopt (r : PayloadRun) (name : String) (id : PayloadId) : PayloadRun :=
  { r with ids := (name, id) :: r.ids.filter (·.1 != name), live := name :: r.live }

/-- A creation puts the payload into the registry before the earlier one of the
    name is dropped. -/
theorem play_new_ok {owner : ThreadId} {handlers : HandlerSet} {id : PayloadId}
    {registry : Registry Payload}
    (hins : r.registry.insert (.new owner handlers) = .ok (id, registry)) :
    r.play (.new name owner handlers) = (.ok (r.live.contains name),
      (({ r with registry } : PayloadRun).drop name).2.adopt name id) := by
  rw [play, PayloadRun.new, hins]
  rfl

/-- A creation for which the registry has no place does nothing. -/
theorem play_new_error {owner : ThreadId} {handlers : HandlerSet} {e : Error}
    (hins : r.registry.insert (.new owner handlers) = .error e) :
    r.play (.new name owner handlers) = (.error e, r) := by
  rw [play, PayloadRun.new, hins]
  rfl

/-- A callback with the id of no payload is refused, and nothing changes. -/
theorem fire_dead (h : r.registry.get? (r.id name) = none) (kind : Option SetKind)
    (caller : ThreadId) (call : Call) :
    r.fire name kind caller call = (.replied (.ofStatus .user), [], r) := by
  simp [PayloadRun.fire, Registry.fire, h]

/-- A callback for a payload of another kind is refused, and nothing changes. -/
theorem fire_mistaken (h : r.registry.get? (r.id name) = some p)
    (hkind : kind.getD p.handlers.kind ≠ p.handlers.kind) (caller : ThreadId) (call : Call) :
    r.fire name kind caller call = (.replied (.ofStatus .user), [], r) := by
  simp [PayloadRun.fire, Registry.fire, h, Ne.symm hkind]

/-- Every other callback is a callback of its payload. -/
theorem fire_alive (h : r.registry.get? (r.id name) = some p)
    (hkind : kind.getD p.handlers.kind = p.handlers.kind) (caller : ThreadId) (call : Call) :
    r.fire name kind caller call
      = ((p.fire caller call).1, p.callsIn caller call, r.put name (p.fire caller call).2) := by
  obtain ⟨hreply, hafter⟩ := Registry.fire_registered h caller call
  have hget := Registry.get?_modify_self h fun _ => (p.fire caller call).2
  simp only [PayloadRun.fire, h, Option.elim_some, hkind, hreply, hafter, hget, Payload.callsIn,
    put]

/-! ## Runs -/

/-- The steps of a run with their answers. -/
def transcript : PayloadRun → List PayloadStep → List Told
  | _, [] => []
  | r, s :: rest => ⟨s, (r.play s).1⟩ :: transcript (r.play s).2 rest

/-- Where a run ends. -/
def after : PayloadRun → List PayloadStep → PayloadRun
  | r, [] => r
  | r, s :: rest => after (r.play s).2 rest

end PayloadRun

end Gitwork
