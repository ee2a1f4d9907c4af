import Gitwork.Payload.Basic
import Gitwork.Payload.Registry

/-! # Dispatch

    One callback, from the word it carries to the status it reports.  The
    word is looked up in the registry; a word that names no payload of the
    expected kind, or a thread that is not the owner's, ends it with
    `Status.user` before any handler runs.  Otherwise the handler's outcome
    decides: a value is success, a decline is the site's own decline status,
    a failure is parked on the payload and reported as `Status.user`. -/

namespace Gitwork

/-- What one callback reports to the engine. -/
structure Reply (ρ : Type) where
  status : Status
  value : Option ρ
deriving Repr

/-- The error that a failing status is turned into. -/
def Status.toNativeError (s : Status) : NativeError :=
  if s = .user then ⟨-7, "a callback returned an error"⟩
  else if s = .passthrough then ⟨-1, "a callback declined to act"⟩
  else ⟨-1, "callback failed with " ++ s.text⟩

namespace Reply

variable {ρ : Type}

def ofStatus (s : Status) : Reply ρ := ⟨s, none⟩
def ofValue (r : ρ) : Reply ρ := ⟨.ok, some r⟩

/-- Whether the engine goes on. -/
def goesOn (r : Reply ρ) : Bool := r.status.isOk

/-- The reply where the engine takes an error or nothing. -/
def toNative (r : Reply ρ) : Except NativeError Unit :=
  if r.status.isOk then .ok () else .error r.status.toNativeError

/-- The reply of the credentials site.  A decline means that there are none. -/
def toCredential (r : Reply Credential) : Except NativeError Nat :=
  match r.value with
  | some c => c.toNative
  | none =>
    if r.status = .passthrough then
      .error ⟨-16, "authentication required but no credentials were supplied"⟩
    else .error r.status.toNativeError

end Reply

/-- What the engine is told about a peer's certificate. -/
inductive CertificateVerdict
  | accept
  /-- The engine's own check decides. -/
  | undecided
deriving DecidableEq, Repr

/-- The reply of the certificate site. -/
def Reply.toCertificate (r : Reply Bool) : Except NativeError CertificateVerdict :=
  match r.value with
  | some true => .ok .accept
  | some false => .error ⟨-17, "certificate rejected by handler"⟩
  | none =>
    if r.status = .passthrough then .ok .undecided else .error r.status.toNativeError

/-- How one callback ends. -/
inductive Fired (ρ : Type)
  | replied (reply : Reply ρ)
  /-- The handler did not return. -/
  | panicked (text : String)
deriving Repr

namespace Payload

/-- Runs the handler of a call's site, on the owner's thread. -/
def invoke (p : Payload) (call : Call) : Fired call.site.Value × Payload :=
  match p.handlers.handler? call.site with
  | none => (.replied (.ofStatus call.site.declineStatus), p)
  | some h =>
    let earlier := p.calls.filter (·.site = call.site)
    let q := { p with calls := call :: p.calls }
    match h.answer earlier call with
    | .value r => (.replied (.ofValue r), q)
    | .decline => (.replied (.ofStatus call.site.declineStatus), q)
    | .fail e => (.replied (.ofStatus .user), q.record e)
    | .panicked text => (.panicked text, q)

/-- Runs a call that comes from some thread. -/
def fire (p : Payload) (caller : ThreadId) (call : Call) : Fired call.site.Value × Payload :=
  if caller = p.owner then p.invoke call
  else (.replied (.ofStatus .user), p.record (.threadAffinity .payload p.owner caller))

end Payload

/-- Runs the call that a callback with this word makes, as a callback of an
    operation of this kind. -/
def Registry.fire (payloads : Registry Payload) (id : PayloadId) (kind : SetKind)
    (caller : ThreadId) (call : Call) : Fired call.site.Value × Registry Payload :=
  match payloads.get? id with
  | none => (.replied (.ofStatus .user), payloads)
  | some p =>
    if p.handlers.kind = kind then
      let (fired, q) := p.fire caller call
      (fired, payloads.modify id fun _ => q)
    else (.replied (.ofStatus .user), payloads)

end Gitwork
