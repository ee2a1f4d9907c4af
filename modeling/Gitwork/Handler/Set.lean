import Gitwork.Handler.Call
import Gitwork.Text.Quoted

/-! # Handlers

    A handler answers a call from what it was called with before, so it may
    keep a state of its own but sees nothing of other handlers.  A set holds
    at most one handler for each site of its kind; a site without one behaves
    as if its handler always declined. -/

namespace Gitwork

/-- How one invocation of a handler ends. -/
inductive Outcome (ρ : Type)
  | value (result : ρ)
  /-- The default behaviour is asked for. -/
  | decline
  | fail (cause : Error)
  /-- The handler does not return; its stack is unwound. -/
  | panicked (text : String)
deriving Repr

/-- A handler of one site: from the earlier calls at the site, the newest
    first, and the present one to an outcome. -/
structure Handler (site : CallSite) where
  answer : List Call → Call → Outcome site.Value

namespace Handler

variable {site : CallSite}

/-- The handler that always declines. -/
def declining : Handler site := ⟨fun _ _ => .decline⟩

/-- Plays the n-th outcome at the n-th call, and the last one ever after. -/
def script (outcomes : List (Outcome site.Value)) : Handler site :=
  ⟨fun earlier _ => (outcomes[min earlier.length (outcomes.length - 1)]?).getD .decline⟩

end Handler

/-- The operation that a set of handlers is for. -/
inductive SetKind
  | remote
  | checkout
  | stash
deriving DecidableEq, Repr, Inhabited

namespace SetKind

/-- The sites that a set of the kind has slots for. -/
def owns : SetKind → CallSite → Bool
  | remote, .checkoutNotify | remote, .checkoutProgress | remote, .stashApplyProgress => false
  | remote, _ => true
  | checkout, .checkoutNotify | checkout, .checkoutProgress => true
  | checkout, _ => false
  | stash, .checkoutNotify | stash, .checkoutProgress | stash, .stashApplyProgress => true
  | stash, _ => false

/-- The kind that a word names. -/
def ofWord? : String → Option SetKind
  | "remote" => some remote
  | "checkout" => some checkout
  | "stash" => some stash
  | _ => none

def name : SetKind → String
  | remote => "RemoteHandlers"
  | checkout => "CheckoutHandlers"
  | stash => "StashApplyHandlers"

end SetKind

/-- Handlers for the sites of one kind of operation. -/
structure HandlerSet where
  kind : SetKind
  slot : (site : CallSite) → Option (Handler site)
  /-- The kinds of notifications that the notify handler wants. -/
  notifyOn : List NotifyKind

namespace HandlerSet

/-- A set with no handler; it asks for conflicts only. -/
def empty (kind : SetKind) : HandlerSet := ⟨kind, fun _ => none, [.conflict]⟩

/-- The handler of a site that the set has. -/
def handler? (h : HandlerSet) (site : CallSite) : Option (Handler site) :=
  if h.kind.owns site then h.slot site else none

def has (h : HandlerSet) (site : CallSite) : Bool := (h.handler? site).isSome

/-- The sites with a handler, in the order of the table. -/
def installed (h : HandlerSet) : List CallSite := CallSite.all.filter h.has

/-- The notifications that the engine is asked for: none without a handler. -/
def wanted (h : HandlerSet) : List NotifyKind :=
  if h.has .checkoutNotify then h.notifyOn else []

/-- The same as a word of flags. -/
def notifyMask (h : HandlerSet) : Nat := h.wanted.foldl (fun m k => m ||| k.mask) 0

def text (h : HandlerSet) : String :=
  h.kind.name ++ " \x7b installed: " ++ Text.quoteList (h.installed.map CallSite.name) ++ " \x7d"

/-- Installs a handler. -/
def install (h : HandlerSet) (site : CallSite) (f : Handler site) : HandlerSet :=
  { h with slot := fun s => if e : s = site then some (e ▸ f) else h.slot s }

end HandlerSet

end Gitwork
