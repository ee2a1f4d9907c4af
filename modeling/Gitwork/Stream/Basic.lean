import Gitwork.Error
import Gitwork.Handler.Call

/-! # A stream fed by a worker

    A worker writes into a sink, a reader pulls from the other end, and a
    channel with room for one message lies between them.  Each write hands
    over one chunk, of `chunkSize` bytes at most; the reader keeps what a
    short read leaves of a chunk, so no byte is lost or read twice.

    The two sides move in steps.  `workerStep` and `readerStep` give the next
    configuration, or none when the side has to wait or has nothing to do;
    every interleaving of the two threads is a sequence of such steps. -/

namespace Gitwork.Stream

/-! ## The worker -/

/-- How a write into the sink ends. -/
inductive WriteResult
  | accepted (count : Nat)
  /-- The reader has closed the stream. -/
  | brokenPipe
deriving DecidableEq, Repr, Inhabited

/-- What a worker does next, and where that leads. -/
inductive Act (σ : Type)
  | write (data : Bytes) (next : WriteResult → σ)
  | askCancelled (next : Bool → σ)
  /-- A step of its own, without the sink. -/
  | work (next : σ)
  | finish (result : Except Error Unit)
  /-- The worker dies without a result. -/
  | panic

/-- A program for workers. -/
abbrev Producer (σ : Type) := σ → Act σ

/-- Where the worker stands. -/
inductive Worker (σ : Type)
  | running (s : σ)
  /-- It holds a chunk that waits for room in the channel. -/
  | sending (chunk : Bytes) (next : WriteResult → σ)
  /-- It has a result that waits for room in the channel. -/
  | ending (result : Except Error Unit) (s : σ)
  /-- It has left its last state for good. -/
  | ended (s : σ)

/-! ## The stream -/

/-- What goes through the channel. -/
inductive Message
  | chunk (data : Bytes)
  | finished (result : Except Error Unit)

inductive State
  | starting
  | streaming
  | draining
  | closed
deriving DecidableEq, Repr, Inhabited

def State.name : State → String
  | starting => "Starting"
  | streaming => "Streaming"
  | draining => "Draining"
  | closed => "Closed"

/-- What the reader asks for. -/
inductive Request
  | read (max : Nat)
  | close
deriving DecidableEq, Repr, Inhabited

/-- What a request comes to: bytes, an error, or just an end. -/
inductive Answer
  | bytes (data : Bytes)
  | error (e : Error)
  | closed
deriving DecidableEq, Repr, Inhabited

/-- Where the reader stands inside a request. -/
inductive Phase
  | idle
  | reading (max : Nat)
  /-- It empties the channel before it lets go of it. -/
  | draining
  /-- It waits for the end of the worker, and then gives this answer. -/
  | joining (answer : Answer)
deriving DecidableEq, Repr, Inhabited

/-- Both sides and all that they share. -/
structure Config (σ : Type) where
  worker : Worker σ
  cancelled : Bool
  slot : Option Message
  /-- The reader still holds its end of the channel. -/
  receiver : Bool
  phase : Phase
  /-- The chunk received last, unless it is used up. -/
  remainder : Bytes
  /-- How much of it is delivered. -/
  offset : Nat
  writerDone : Bool
  closedByCaller : Bool
  state : State
  /-- The answers given so far, the newest first. -/
  answers : List Answer

variable {σ : Type}

namespace Config

/-- A fresh stream whose worker starts in the state `s`. -/
def spawn (s : σ) : Config σ where
  worker := .running s
  cancelled := false
  slot := none
  receiver := true
  phase := .idle
  remainder := []
  offset := 0
  writerDone := false
  closedByCaller := false
  state := .starting
  answers := []

/-- The number of bytes received and not delivered. -/
def retained (c : Config σ) : Nat := c.remainder.length - c.offset

/-- The text for logs. -/
def text (c : Config σ) : String :=
  "FilterStream \x7b state: " ++ c.state.name ++ ", retained: " ++ toString c.retained ++ " \x7d"

/-- Ends the present request. -/
def reply (c : Config σ) (a : Answer) : Config σ :=
  { c with phase := .idle, answers := a :: c.answers }

/-- Lets go of the channel and waits for the worker. -/
def finish (c : Config σ) (a : Answer) : Config σ :=
  { c with receiver := false, slot := none, phase := .joining a }

end Config

/-! ## Steps -/

/-- The text of the error that a write fails with once the reader is gone. -/
def brokenPipeText : String := "filter stream reader closed"

/-- The text of the error for a worker that died. -/
def lostWorkerText : String := "filter worker exited without finishing"

/-- One step of the worker, unless it waits for room or has ended.  A write
    looks at the cancel flag first, and hands over the chunk in a step of its
    own. -/
def workerStep (act : Producer σ) (chunkSize : Nat) (c : Config σ) : Option (Config σ) :=
  match c.worker with
  | .running s =>
    match act s with
    | .write data next =>
      if data = [] then some { c with worker := .running (next (.accepted 0)) }
      else if c.cancelled then some { c with worker := .running (next .brokenPipe) }
      else some { c with worker := .sending (data.take chunkSize) next }
    | .askCancelled next => some { c with worker := .running (next c.cancelled) }
    | .work next => some { c with worker := .running next }
    | .finish r => some { c with worker := .ending r s }
    | .panic => some { c with worker := .ended s }
  | .sending chunk next =>
    if !c.receiver then some { c with worker := .running (next .brokenPipe) }
    else if c.slot.isNone then
      some { c with slot := some (.chunk chunk),
                    worker := .running (next (.accepted chunk.length)) }
    else none
  | .ending r s =>
    if !c.receiver then some { c with worker := .ended s }
    else if c.slot.isNone then some { c with slot := some (.finished r), worker := .ended s }
    else none
  | .ended _ => none

/-- A request begins. -/
def begin (c : Config σ) : Request → Config σ
  | .read max =>
    if c.closedByCaller then c.reply (.error .streamClosed)
    else if max = 0 then c.reply (.bytes [])
    else { c with phase := .reading max }
  | .close =>
    let c := { c with closedByCaller := true }
    if c.state = .closed then c.reply .closed
    else { c with cancelled := true, phase := .draining }

/-- Delivers up to `max` bytes of the remainder. -/
def deliver (c : Config σ) (max : Nat) : Config σ :=
  let piece := (c.remainder.drop c.offset).take max
  let offset := c.offset + piece.length
  let c :=
    if offset = c.remainder.length then { c with remainder := [], offset := 0 }
    else { c with offset }
  c.reply (.bytes piece)

/-- One step of a read. -/
def readStep (c : Config σ) (max : Nat) : Option (Config σ) :=
  if c.offset < c.remainder.length then some (deliver c max)
  else if c.writerDone || c.state = .closed then some (c.finish (.bytes []))
  else if !c.receiver then some (c.reply (.bytes []))
  else
    match c.slot with
    | some (.chunk data) =>
      some { c with
        slot := none
        remainder := data
        offset := 0
        state := if c.state = .starting then .streaming else c.state }
    | some (.finished (.ok ())) => some { c with slot := none, writerDone := true, state := .draining }
    | some (.finished (.error e)) => some (c.finish (.error e))
    | none =>
      match c.worker with
      | .ended _ => some (c.finish (.error (.io .unexpectedEof lostWorkerText)))
      | _ => none

/-- One step of the reader inside a request, unless it has to wait. -/
def readerStep (c : Config σ) : Option (Config σ) :=
  match c.phase with
  | .idle => none
  | .reading max => readStep c max
  | .draining =>
    match c.slot with
    | some _ => some { c with slot := none }
    | none => some ({ c with remainder := [], offset := 0 }.finish .closed)
  | .joining a =>
    match c.worker with
    | .ended _ => some ({ c with state := .closed }.reply a)
    | _ => none

/-! ## One schedule -/

/-- Runs the present request to its end: the reader moves whenever it can, and
    the worker when the reader waits.  Stops early without fuel. -/
def settle (act : Producer σ) (chunkSize : Nat) : Nat → Config σ → Config σ
  | 0, c => c
  | fuel + 1, c =>
    match c.phase with
    | .idle => c
    | _ =>
      match readerStep c with
      | some c' => settle act chunkSize fuel c'
      | none =>
        match workerStep act chunkSize c with
        | some c' => settle act chunkSize fuel c'
        | none => c

/-- Runs one request from its begin to its end. -/
def serve (act : Producer σ) (chunkSize fuel : Nat) (c : Config σ) (r : Request) : Config σ :=
  settle act chunkSize fuel (begin c r)

/-- A chunk holds at least one byte. -/
def effectiveChunkSize (n : Nat) : Nat := max n 1

end Gitwork.Stream
