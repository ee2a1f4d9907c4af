import Gitwork.Status
import Gitwork.Payload.Id

/-! # Errors

    Everything that can go wrong, by cause, with one wording for each
    (`Error.message`).  A failure of the engine keeps its code, and the code
    decides its kind.  A failure of a handler travels as it is, inside
    `Error.callback`. -/

namespace Gitwork

/-- The thread that a call comes from. -/
abbrev ThreadId := Nat

/-- Kinds of failures of input and output. -/
inductive IoKind
  | notFound
  | permissionDenied
  | connectionRefused
  | connectionReset
  | connectionAborted
  | notConnected
  | addrInUse
  | addrNotAvailable
  | brokenPipe
  | alreadyExists
  | wouldBlock
  | notADirectory
  | isADirectory
  | directoryNotEmpty
  | invalidInput
  | invalidData
  | timedOut
  | writeZero
  | interrupted
  | unsupported
  | unexpectedEof
  | outOfMemory
  | other
deriving DecidableEq, Repr, Inhabited

namespace IoKind

def name : IoKind → String
  | notFound => "NotFound"
  | permissionDenied => "PermissionDenied"
  | connectionRefused => "ConnectionRefused"
  | connectionReset => "ConnectionReset"
  | connectionAborted => "ConnectionAborted"
  | notConnected => "NotConnected"
  | addrInUse => "AddrInUse"
  | addrNotAvailable => "AddrNotAvailable"
  | brokenPipe => "BrokenPipe"
  | alreadyExists => "AlreadyExists"
  | wouldBlock => "WouldBlock"
  | notADirectory => "NotADirectory"
  | isADirectory => "IsADirectory"
  | directoryNotEmpty => "DirectoryNotEmpty"
  | invalidInput => "InvalidInput"
  | invalidData => "InvalidData"
  | timedOut => "TimedOut"
  | writeZero => "WriteZero"
  | interrupted => "Interrupted"
  | unsupported => "Unsupported"
  | unexpectedEof => "UnexpectedEof"
  | outOfMemory => "OutOfMemory"
  | other => "Other"

/-- The kinds that the description of an error can name; the others, such as an
    interruption, come from the system alone. -/
def describable : List IoKind :=
  [notFound, permissionDenied, brokenPipe, invalidData, timedOut, unexpectedEof]

/-- The kind that a description means; any other name is `other`. -/
def ofName (n : String) : IoKind := (describable.find? (·.name == n)).getD other

end IoKind

/-- What a failing code of the engine is about. -/
inductive NativeKind
  | alreadyExists
  | invalidSpec
  | ambiguous
  | notFound
  | iterOver
  | generic
deriving DecidableEq, Repr, Inhabited

namespace NativeKind

def description : NativeKind → String
  | alreadyExists => "already exists"
  | invalidSpec => "invalid spec"
  | ambiguous => "ambiguous"
  | notFound => "not found"
  | iterOver => "iteration over"
  | generic => "git error"

end NativeKind

/-- Five codes have a kind of their own. -/
def Status.kind (s : Status) : NativeKind :=
  if s = .alreadyExists then .alreadyExists
  else if s = .invalidSpec then .invalidSpec
  else if s = .ambiguous then .ambiguous
  else if s = .notFound then .notFound
  else if s = .iterOver then .iterOver
  else .generic

/-- A failure that the engine reports: a code and a message. -/
structure NativeError where
  code : Int
  message : String
deriving DecidableEq, Repr, Inhabited

/-- The codes that have a name in the engine's interface. -/
def NativeError.codes : List (String × Int) :=
  [("GenericError", -1), ("NotFound", -3), ("Exists", -4), ("Ambiguous", -5), ("BufSize", -6),
    ("User", -7), ("BareRepo", -8), ("UnbornBranch", -9), ("NotFastForward", -11),
    ("InvalidSpec", -12), ("Conflict", -13), ("Locked", -14), ("Modified", -15), ("Auth", -16),
    ("Certificate", -17), ("Eof", -20)]

/-- The code of a name; any other name is that of the general one. -/
def NativeError.codeOf (name : String) : Int := (codes.lookup name).getD (-1)

/-- What can be bound to the thread that made it. -/
inductive ThreadBound
  | payload
  | transaction
deriving DecidableEq, Repr, Inhabited

def ThreadBound.name : ThreadBound → String
  | payload => "payload"
  | transaction => "transaction"

/-- Why an operation failed. -/
inductive Error
  /-- An error of the host's own, known by its text. -/
  | host (text : String)
  /-- A handler failed; the cause is its own error. -/
  | callback (cause : Error)
  /-- The engine failed, and no handler is to blame. -/
  | native (code : Int) (text : String)
  | threadAffinity (object : ThreadBound) (owner caller : ThreadId)
  /-- Another live transaction holds the reference. -/
  | lockConflict (refname : String)
  | refNotLocked (refname : String)
  /-- A locked reference moved before the commit. -/
  | refChanged (refname : String)
  | transactionClosed
  | streamClosed
  | registryFull
  | unknownPayload (id : PayloadId)
  | io (kind : IoKind) (text : String)
deriving DecidableEq, Repr, Inhabited

namespace Error

/-- A failure of the engine, with its code and message. -/
def ofNative (e : NativeError) : Error := .native e.code e.message

/-- A failure known by its status alone. -/
def ofStatus (s : Status) (text : String) : Error := .native s.code text

def message : Error → String
  | host text => text
  | callback cause => cause.message
  | native code text =>
    (Status.mk code).kind.description ++ ": " ++ text ++ " (code " ++ toString code ++ ")"
  | threadAffinity object owner caller =>
    object.name ++ " belongs to thread ThreadId(" ++ toString owner
      ++ ") but was used from thread ThreadId(" ++ toString caller ++ ")"
  | lockConflict r => "reference '" ++ r ++ "' is locked by another transaction"
  | refNotLocked r => "reference '" ++ r ++ "' is not locked by this transaction"
  | refChanged r => "reference '" ++ r ++ "' changed after it was locked"
  | transactionClosed => "transaction is no longer open"
  | streamClosed => "filter stream is closed"
  | registryFull => "payload registry is full"
  | unknownPayload id => "no live payload with id " ++ id.text
  | io _ text => "i/o error: " ++ text

/-- The name of the kind of an error. -/
def name : Error → String
  | host _ => "Host"
  | callback _ => "Callback"
  | native .. => "Native"
  | threadAffinity .. => "ThreadAffinity"
  | lockConflict _ => "LockConflict"
  | refNotLocked _ => "RefNotLocked"
  | refChanged _ => "RefChanged"
  | transactionClosed => "TransactionClosed"
  | streamClosed => "StreamClosed"
  | registryFull => "RegistryFull"
  | unknownPayload _ => "UnknownPayload"
  | io .. => "Io"

/-- The handler's own error, if a handler failed. -/
def cause? : Error → Option Error
  | callback cause => some cause
  | _ => none

def isCallback (e : Error) : Bool := e.cause?.isSome

/-- The kind of a failure of the engine. -/
def nativeKind? : Error → Option NativeKind
  | native code _ => some (Status.mk code).kind
  | _ => none

/-- The text of the failure of input or output underneath. -/
def sourceText? : Error → Option String
  | io _ text => some text
  | _ => none

end Error

end Gitwork
