import Gitwork.Payload.Dispatch

/-! # Runs of payloads

    Payloads under the names that a program gives them, in one registry.  A
    callback names its payload by the id that was issued for it, and goes on
    doing so after the payload is dropped. -/

namespace Gitwork

structure PayloadRun where
  registry : Registry Payload
  /-- The id that each name got last. -/
  ids : List (String × PayloadId)
  /-- The names whose payload is not dropped. -/
  live : List String

namespace PayloadRun

def empty : PayloadRun := ⟨.empty, [], []⟩

/-- The id that a name got last; a name that never got one has the first. -/
def id (r : PayloadRun) (name : String) : PayloadId := (r.ids.lookup name).getD ⟨0⟩

/-- The payload of a name, unless it is dropped. -/
def payload? (r : PayloadRun) (name : String) : Option Payload :=
  if r.live.contains name then r.registry.get? (r.id name) else none

/-- Drops the payload of a name; says whether there was one. -/
def drop (r : PayloadRun) (name : String) : Bool × PayloadRun :=
  if r.live.contains name then
    (true, { r with registry := (r.registry.remove (r.id name)).2, live := r.live.erase name })
  else (false, r)

/-- Makes a payload for handlers.  An earlier payload of the name is dropped
    afterwards. -/
def new (r : PayloadRun) (name : String) (owner : ThreadId) (handlers : HandlerSet) :
    Except Error PayloadRun := do
  let (fresh, registry) ← r.registry.insert (.new owner handlers)
  let (_, r) := { r with registry }.drop name
  return { r with ids := (name, fresh) :: r.ids.filter (·.1 != name), live := name :: r.live }

/-- Runs a callback with the id that a name got last, resolved as a payload of
    its own kind or of another one.  Gives also the calls that it made. -/
def fire (r : PayloadRun) (name : String) (kind : Option SetKind) (caller : ThreadId)
    (call : Call) : Fired call.site.Value × List Call × PayloadRun :=
  let id := r.id name
  let callsOf (registry : Registry Payload) : List Call := (registry.get? id).elim [] (·.calls)
  let own := (r.registry.get? id).elim .remote (·.handlers.kind)
  let (fired, registry) := r.registry.fire id (kind.getD own) caller call
  let log := callsOf registry
  (fired, (log.take (log.length - (callsOf r.registry).length)).reverse, { r with registry })

/-- Puts a payload back after a change. -/
def put (r : PayloadRun) (name : String) (p : Payload) : PayloadRun :=
  { r with registry := r.registry.modify (r.id name) fun _ => p }

/-- Applies what empties the slot of a payload. -/
def onPayload {α : Type} (r : PayloadRun) (name : String) (f : Payload → α × Payload) :
    Option (α × PayloadRun) :=
  (r.payload? name).map fun p => ((f p).1, r.put name (f p).2)

end PayloadRun

end Gitwork
