import Gitwork.Status
import Gitwork.Object.Oid
import Gitwork.Handler.Credential

/-! # Calls

    What the engine tells a handler, one constructor for each call site, and
    the type of the value that the site expects back. -/

namespace Gitwork

/-- Content of a file or an object. -/
abbrev Bytes := List UInt8

inductive CertificateKind
  | x509
  | hostKey
  | other
deriving DecidableEq, Repr, Inhabited

namespace CertificateKind

def name : CertificateKind → String
  | x509 => "X509"
  | hostKey => "HostKey"
  | other => "Other"

def ofName (n : String) : CertificateKind := ([x509, hostKey].find? (·.name == n)).getD other

end CertificateKind

/-- How far a download is. -/
structure TransferProgress where
  totalObjects : Nat
  indexedObjects : Nat
  receivedObjects : Nat
  localObjects : Nat
  totalDeltas : Nat
  indexedDeltas : Nat
  receivedBytes : Nat
deriving DecidableEq, Repr, Inhabited

/-- How far an upload is. -/
structure PushTransferProgress where
  current : Nat
  total : Nat
  bytes : Nat
deriving DecidableEq, Repr, Inhabited

/-- One reference that a push is about to move. -/
structure RefUpdate where
  srcRefname : Option String
  dstRefname : Option String
  src : Oid
  dst : Oid
deriving DecidableEq, Repr, Inhabited

/-- What a checkout has to say about one path. -/
inductive NotifyKind
  | conflict
  | dirty
  | updated
  | untracked
  | ignored
deriving DecidableEq, Repr, Inhabited

namespace NotifyKind

/-- All kinds, the more urgent first. -/
def all : List NotifyKind := [conflict, dirty, updated, untracked, ignored]

/-- The bit of a kind in a mask. -/
def bit : NotifyKind → Nat
  | conflict => 0
  | dirty => 1
  | updated => 2
  | untracked => 3
  | ignored => 4

/-- The mask that holds just this kind. -/
def mask (k : NotifyKind) : Nat := 1 <<< k.bit

/-- The first kind that a word of flags holds. -/
def ofBits? (bits : Nat) : Option NotifyKind := all.find? fun k => bits.testBit k.bit

def name : NotifyKind → String
  | conflict => "conflict"
  | dirty => "dirty"
  | updated => "updated"
  | untracked => "untracked"
  | ignored => "ignored"

/-- The name in capitals at its start. -/
def title (k : NotifyKind) : String := k.name.capitalize

def ofName? (n : String) : Option NotifyKind := all.find? (·.name == n)

end NotifyKind

/-- How far the application of a stash is. -/
inductive StashStage
  | none
  | loadingStash
  | analyzeIndex
  | analyzeModified
  | analyzeUntracked
  | checkoutUntracked
  | checkoutModified
  | done
deriving DecidableEq, Repr, Inhabited

namespace StashStage

def all : List StashStage :=
  [none, loadingStash, analyzeIndex, analyzeModified, analyzeUntracked, checkoutUntracked,
    checkoutModified, done]

def name : StashStage → String
  | none => "None"
  | loadingStash => "LoadingStash"
  | analyzeIndex => "AnalyzeIndex"
  | analyzeModified => "AnalyzeModified"
  | analyzeUntracked => "AnalyzeUntracked"
  | checkoutUntracked => "CheckoutUntracked"
  | checkoutModified => "CheckoutModified"
  | done => "Done"

def ofName (n : String) : StashStage := (all.find? (·.name == n)).getD none

end StashStage

/-- A call with its arguments. -/
inductive Call
  | credentials (url : String) (username : Option String) (allowed : AllowedCredentials)
  | certificateCheck (host : String) (kind : CertificateKind)
  | sidebandProgress (data : Bytes)
  | transferProgress (progress : TransferProgress)
  | updateTips (refname : String) (old new : Oid)
  | pushUpdateReference (refname : String) (rejection : Option String)
  | pushNegotiation (updates : List RefUpdate)
  | pushTransferProgress (progress : PushTransferProgress)
  | checkoutNotify (kind : NotifyKind) (path : Option String)
  | checkoutProgress (path : Option String) (completed total : Nat)
  | stashApplyProgress (stage : StashStage)
deriving DecidableEq, Repr, Inhabited

/-- The site that a call belongs to. -/
def Call.site : Call → CallSite
  | credentials .. => .credentials
  | certificateCheck .. => .certificateCheck
  | sidebandProgress .. => .sidebandProgress
  | transferProgress .. => .transferProgress
  | updateTips .. => .updateTips
  | pushUpdateReference .. => .pushUpdateReference
  | pushNegotiation .. => .pushNegotiation
  | pushTransferProgress .. => .pushTransferProgress
  | checkoutNotify .. => .checkoutNotify
  | checkoutProgress .. => .checkoutProgress
  | stashApplyProgress .. => .stashApplyProgress

/-- What a handler of the site returns: a credential, whether to trust the
    peer, or nothing but "go on". -/
abbrev CallSite.Value : CallSite → Type
  | .credentials => Credential
  | .certificateCheck => Bool
  | _ => Unit

end Gitwork
