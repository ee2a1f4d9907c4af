import Gitwork.Stream.Basic

/-! # Scripted workers

    A worker that plays a list of operations on its sink and keeps a log. -/

namespace Gitwork.Stream

/-- One operation of a worker. -/
inductive SinkOp
  /-- Writes until all is written. -/
  | writeAll (data : Bytes)
  /-- Writes once and logs the count. -/
  | writeOnce (data : Bytes)
  /-- Writes the data again and again until a write fails; `rest` is left of
      the present round. -/
  | forever (data rest : Bytes)
  /-- Logs why the last write failed, and fails for the same reason. -/
  | giveUp
  | flush
  | logChunkSize
  | fail (e : Error)
  | panic
deriving DecidableEq, Repr, Inhabited

/-- What a worker notes. -/
inductive LogEntry
  | number (n : Nat)
  | failed (cancelled : Bool)
deriving DecidableEq, Repr, Inhabited

/-- What is left to do, and the log, the newest entry first. -/
structure Script where
  todo : List SinkOp
  log : List LogEntry
deriving DecidableEq, Repr, Inhabited

namespace Script

def ofOps (ops : List SinkOp) : Script := ⟨ops, []⟩

/-- The error of a write after the reader is gone. -/
def brokenPipe : Error := .io .brokenPipe brokenPipeText

/-- After a write that has to succeed. -/
def afterWrite (s : Script) (onAccepted : Nat → Script) : WriteResult → Script
  | .accepted n => onAccepted n
  | .brokenPipe => { s with todo := [.fail brokenPipe] }

/-- What a script does next. -/
def act (chunkSize : Nat) : Producer Script := fun s =>
  match s.todo with
  | [] => .finish (.ok ())
  | .writeAll data :: rest =>
    if data = [] then .work { s with todo := rest }
    else .write data (s.afterWrite fun n => { s with todo := .writeAll (data.drop n) :: rest })
  | .writeOnce data :: rest =>
    .write data (s.afterWrite fun n => ⟨rest, .number n :: s.log⟩)
  | .forever data left :: rest =>
    .write left fun
      | .accepted n =>
        let left := left.drop n
        { s with todo := .forever data (if left = [] then data else left) :: rest }
      | .brokenPipe => { s with todo := [.giveUp] }
  | .giveUp :: _ => .askCancelled fun b => ⟨[.fail brokenPipe], .failed b :: s.log⟩
  | .flush :: rest => .work { s with todo := rest }
  | .logChunkSize :: rest => .work ⟨rest, .number chunkSize :: s.log⟩
  | .fail e :: _ => .finish (.error e)
  | .panic :: _ => .panic

/-- The bytes that an operation hands over in one go. -/
def size (s : Script) : Nat :=
  s.todo.foldl (fun n op => n + match op with
    | .writeAll data => data.length
    | .writeOnce data => data.length
    | _ => 0) 0

/-- Enough steps for one request: between two chunks a worker passes each of
    its operations once. -/
def budget (s : Script) : Nat := 16 * (s.todo.length + 4)

end Script

/-- The last state of a worker's program. -/
def Worker.last? {σ : Type} : Worker σ → Option σ
  | .running s => some s
  | .ending _ s => some s
  | .ended s => some s
  | .sending .. => none

/-! ## Streams of scripted workers -/

/-- A stream with a scripted worker. -/
structure Scripted where
  chunkSize : Nat
  /-- Steps that one request may take. -/
  fuel : Nat
  /-- All bytes that the worker has to write. -/
  size : Nat
  config : Config Script

namespace Scripted

/-- Starts a worker on a list of operations. -/
def spawn (chunkSize : Nat) (ops : List SinkOp) : Scripted where
  chunkSize := effectiveChunkSize chunkSize
  fuel := (Script.ofOps ops).budget
  size := (Script.ofOps ops).size
  config := .spawn (.ofOps ops)

/-- Runs one request. -/
def serve (s : Scripted) (r : Request) : Scripted :=
  { s with config := Stream.serve (Script.act s.chunkSize) s.chunkSize s.fuel s.config r }

/-- The answer to the last request. -/
def answer (s : Scripted) : Answer := s.config.answers.headD .closed

/-- Reads up to `max` bytes. -/
def read (s : Scripted) (max : Nat) : Except Error Bytes × Scripted :=
  let s := s.serve (.read max)
  match s.answer with
  | .bytes data => (.ok data, s)
  | .error e => (.error e, s)
  | .closed => (.ok [], s)

def close (s : Scripted) : Scripted := s.serve .close

/-- Reads `step` bytes at a time until nothing comes any more, and tries again
    after an interruption if asked to.  Gives the pieces that came before the
    end, and the error that ended them. -/
def readLoop (step : Nat) (retry : Bool) :
    Nat → Scripted → List Bytes → List Bytes × Option Error × Scripted
  | 0, s, acc => (acc.reverse, none, s)
  | fuel + 1, s, acc =>
    match s.read step with
    | (.ok piece, s) =>
      if piece = [] then (acc.reverse, none, s) else readLoop step retry fuel s (piece :: acc)
    | (.error e, s) =>
      match retry, e with
      | true, .io .interrupted _ => readLoop step retry fuel s acc
      | _, _ => (acc.reverse, some e, s)

/-- All chunks of at most `step` bytes up to the end or an error. -/
def readChunks (step : Nat) (s : Scripted) : List Bytes × Option Error × Scripted :=
  readLoop step false (s.size + 4) s []

/-- Everything up to the end or an error, for a consumer that tries again
    after an interruption. -/
def drain (s : Scripted) : List Bytes × Option Error × Scripted :=
  readLoop 8192 true (s.size + 4) s []

end Scripted

end Gitwork.Stream
