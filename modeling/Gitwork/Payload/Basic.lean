import Gitwork.Handler.Set
import Gitwork.Payload.Id

/-! # Payloads

    What one operation takes along across the boundary: the thread it belongs
    to, its handlers with the calls made to them, and one slot for a failure.
    The first failure stays; a later one is dropped.  `Payload.check` and
    `Payload.checkStatus` put it before whatever the engine says, and empty
    the slot. -/

namespace Gitwork

/-- The context of one running operation. -/
structure Payload where
  owner : ThreadId
  handlers : HandlerSet
  /-- The calls that reached a handler, the newest first. -/
  calls : List Call
  /-- The first failure of a handler. -/
  deferred : Option Error

namespace Payload

def new (owner : ThreadId) (handlers : HandlerSet) : Payload := ⟨owner, handlers, [], none⟩

def has (p : Payload) (site : CallSite) : Bool := p.handlers.has site

def hasError (p : Payload) : Bool := p.deferred.isSome

/-- The text for logs, with the id that the payload goes by. -/
def text (p : Payload) (id : PayloadId) : String :=
  "Payload \x7b id: PayloadId(" ++ toString id.raw.toNat ++ "), owner: ThreadId("
    ++ toString p.owner ++ "), has_error: " ++ toString p.hasError ++ " \x7d"

/-- Parks a failure, unless an earlier one is parked. -/
def record (p : Payload) (e : Error) : Payload :=
  { p with deferred := p.deferred.orElse fun _ => some e }

/-- Takes the parked failure out. -/
def takeError (p : Payload) : Option Error × Payload := (p.deferred, { p with deferred := none })

/-- The outcome of an operation that ended with a bare status. -/
def checkStatus (p : Payload) (s : Status) : Except Error Unit × Payload :=
  let (parked, p) := p.takeError
  match parked with
  | some e => (.error (.callback e), p)
  | none =>
    if s.isOk then (.ok (), p)
    else (.error (.ofStatus s ("native call failed: " ++ s.text)), p)

/-- The outcome of an operation that ended with a result. -/
def check {α : Type} (p : Payload) (result : Except NativeError α) : Except Error α × Payload :=
  let (parked, p) := p.takeError
  match parked with
  | some e => (.error (.callback e), p)
  | none => (result.mapError .ofNative, p)

end Payload

end Gitwork
