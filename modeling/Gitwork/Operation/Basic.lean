import Gitwork.Payload.Dispatch

/-! # Operations

    What the engine does, seen from the host: a tree of calls to the host, in
    which the reply to each call decides how it goes on, and a result at every
    leaf.  `Operation.run` plays a tree against a payload.

    `Engine` adds a state that survives a failure and failures that end the
    operation; operations on repositories are written in it. -/

namespace Gitwork

/-- A finite tree of calls. -/
inductive Operation (α : Type)
  | done (result : α)
  /-- A call from the thread of the operation, or from another one. -/
  | call (thread : Option ThreadId) (c : Call) (next : Reply c.site.Value → Operation α)

namespace Operation

variable {α β : Type}

def bind : Operation α → (α → Operation β) → Operation β
  | done a, f => f a
  | call thread c next, f => call thread c fun r => (next r).bind f

instance : Monad Operation where
  pure := done
  bind := bind

/-- Calls the host and takes its reply. -/
def ask (c : Call) : Operation (Reply c.site.Value) := call none c done

/-- What is left of an operation that was played. -/
structure Played (α : Type) where
  result : α
  payload : Payload
  /-- The text of the first panic of a handler. -/
  panicked : Option String

/-- Plays an operation on a thread.  Once a handler has panicked, no handler
    is called any more and every call fails. -/
def run (caller : ThreadId) : Payload → Option String → Operation α → Played α
  | p, panicked, done a => ⟨a, p, panicked⟩
  | p, some text, call _ _ next => run caller p (some text) (next (.ofStatus .error))
  | p, none, call thread c next =>
    match p.fire (thread.getD caller) c with
    | (.replied r, q) => run caller q none (next r)
    | (.panicked text, q) => run caller q (some text) (next (.ofStatus .error))

end Operation

/-- An operation on a state that can fail; what it did to the state before it
    failed stays. -/
abbrev Engine (σ : Type) := ExceptT NativeError (StateT σ Operation)

namespace Engine

variable {σ α : Type}

/-- Calls the host. -/
def ask (c : Call) : Engine σ (Reply c.site.Value) :=
  ExceptT.lift (StateT.lift (Operation.ask c))

/-- Calls the host and goes on only if it agrees. -/
def tell (c : Call) : Engine σ Unit := do
  let r ← ask c
  if r.goesOn then pure () else throw r.status.toNativeError

/-- Calls the host, whatever it says. -/
def inform (c : Call) : Engine σ Unit := do let _ ← ask c

/-- A computation that asks nobody. -/
def ofExcept (r : Except NativeError α) : Engine σ α :=
  match r with
  | .ok a => pure a
  | .error e => throw e

/-- The tree of an operation from a state on. -/
def tree (op : Engine σ α) (s : σ) : Operation (Except NativeError α × σ) := op.run s

end Engine

/-- An operation that ran to its end. -/
structure Operated (σ α : Type) where
  result : Except Error α
  state : σ
  payload : Payload
  panicked : Option String

/-- Runs an operation with a set of handlers.  A failure of a handler wins over
    whatever the engine reports. -/
def operate {σ α : Type} (caller : ThreadId) (handlers : HandlerSet) (op : Engine σ α) (s : σ) :
    Operated σ α :=
  let played := (op.tree s).run caller (.new caller handlers) none
  let (result, payload) := played.payload.check played.result.1
  ⟨result, played.result.2, payload, played.panicked⟩

/-- An operation that failed before any handler could be called. -/
def Operated.refused {σ α : Type} (caller : ThreadId) (handlers : HandlerSet) (s : σ)
    (e : NativeError) : Operated σ α :=
  ⟨.error (.ofNative e), s, .new caller handlers, none⟩

/-- The calls that reached a handler, the oldest first. -/
def Operated.calls {σ α : Type} (o : Operated σ α) : List Call := o.payload.calls.reverse

end Gitwork
