/-! # Status codes and call sites

    The git engine reports every outcome as an integer: zero or more is
    success, less is a failure.  Two failures are reserved for callbacks:
    `Status.user`, a callback asks the operation to stop, and
    `Status.passthrough`, a callback declines to act.

    Not every place that calls back understands the decline code.  The table
    `CallSite.convention` says, for each of the eleven call sites, whether it
    does, whether it looks at the answer at all, and whether it sits in a hot
    loop; `CallSite.declineStatus` is what a declining handler reports there. -/

namespace Gitwork

/-- An outcome of the engine, as a raw code. -/
structure Status where
  code : Int
deriving DecidableEq, Repr, Inhabited

namespace Status

def ok : Status := ⟨0⟩
def error : Status := ⟨-1⟩
def notFound : Status := ⟨-3⟩
def alreadyExists : Status := ⟨-4⟩
def ambiguous : Status := ⟨-5⟩
/-- A callback failed. -/
def user : Status := ⟨-7⟩
def invalidSpec : Status := ⟨-12⟩
/-- A callback declined to act. -/
def passthrough : Status := ⟨-30⟩
def iterOver : Status := ⟨-31⟩

/-- Every code from zero up is a success. -/
def isOk (s : Status) : Bool := 0 ≤ s.code

/-- The name of a code that has one. -/
def name? (s : Status) : Option String :=
  match s.code with
  | 0 => some "ok"
  | -1 => some "error"
  | -3 => some "not-found"
  | -4 => some "exists"
  | -5 => some "ambiguous"
  | -7 => some "user"
  | -12 => some "invalid-spec"
  | -14 => some "locked"
  | -30 => some "passthrough"
  | -31 => some "iter-over"
  | _ => none

/-- A named code is written with its number in brackets, any other one as
    `status` and its number. -/
def text (s : Status) : String :=
  match s.name? with
  | some n => n ++ " (" ++ toString s.code ++ ")"
  | none => "status " ++ toString s.code

end Status

/-! ## Call sites -/

/-- A place where the engine calls back into the host. -/
inductive CallSite
  | credentials
  | certificateCheck
  | sidebandProgress
  | transferProgress
  | updateTips
  | pushUpdateReference
  | pushNegotiation
  | pushTransferProgress
  | checkoutNotify
  | checkoutProgress
  | stashApplyProgress
deriving DecidableEq, Repr, Inhabited

/-- How one call site treats what the host answers. -/
structure CallSite.Convention where
  /-- The code that means "decline", where the site has one. -/
  passCode : Option Status
  /-- Whether the engine looks at the answer at all. -/
  returnsStatus : Bool
  /-- Whether the site sits in a hot loop, so that it is wired only for a
      handler that is there. -/
  expensive : Bool
deriving DecidableEq, Repr

namespace CallSite

/-- All sites, in the order of the table. -/
def all : List CallSite :=
  [credentials, certificateCheck, sidebandProgress, transferProgress, updateTips,
    pushUpdateReference, pushNegotiation, pushTransferProgress, checkoutNotify,
    checkoutProgress, stashApplyProgress]

def name : CallSite → String
  | credentials => "credentials"
  | certificateCheck => "certificate_check"
  | sidebandProgress => "sideband_progress"
  | transferProgress => "transfer_progress"
  | updateTips => "update_tips"
  | pushUpdateReference => "push_update_reference"
  | pushNegotiation => "push_negotiation"
  | pushTransferProgress => "push_transfer_progress"
  | checkoutNotify => "checkout_notify"
  | checkoutProgress => "checkout_progress"
  | stashApplyProgress => "stash_apply_progress"

/-- The site of a name. -/
def ofName? (n : String) : Option CallSite := all.find? (·.name == n)

/-- Only the two sites of the connection set-up reserve a code for "decline";
    the progress of a push and of a checkout is told, not asked. -/
def convention : CallSite → Convention
  | credentials => ⟨some .passthrough, true, false⟩
  | certificateCheck => ⟨some .passthrough, true, false⟩
  | sidebandProgress => ⟨none, true, true⟩
  | transferProgress => ⟨none, true, true⟩
  | updateTips => ⟨none, true, false⟩
  | pushUpdateReference => ⟨none, true, false⟩
  | pushNegotiation => ⟨none, true, false⟩
  | pushTransferProgress => ⟨none, false, true⟩
  | checkoutNotify => ⟨none, true, false⟩
  | checkoutProgress => ⟨none, false, true⟩
  | stashApplyProgress => ⟨none, true, false⟩

/-- What a handler that declines reports: the site's own code for it, else
    success. -/
def declineStatus (s : CallSite) : Status := s.convention.passCode.getD .ok

end CallSite

end Gitwork
