import Gitwork.Stream.Basic

/-! # What passes through a stream

    A configuration tells where the two sides stand, and not what they have
    done.  A ledger keeps that beside it: the bytes put into the channel, the
    writes that came back to the worker, the requests that have an answer.

    `Ledger.move` is one move of one side, and `Ledger.play` a run of moves in
    any order; a run breaks off at a move that its side cannot make.
    `WorkerMove` and `ReaderMove` say once what a move can be, with one
    constructor for each: every invariant of a stream is proved along them. -/

namespace Gitwork.Stream

variable {σ : Type}

/-! ## Books -/

/-- The bytes that a message carries. -/
def Message.payload : Message → Bytes
  | .chunk data => data
  | .finished _ => []

/-- The bytes that wait in the channel. -/
def waiting (slot : Option Message) : Bytes := slot.elim [] Message.payload

/-- The bytes that a change of the channel has put into it. -/
def put : Option Message → Option Message → Bytes
  | none, after => waiting after
  | some _, _ => []

/-- The bytes that an answer delivers. -/
def Answer.payload : Answer → Bytes
  | .bytes data => data
  | _ => []

/-- The bytes that answers have delivered, in order. -/
def delivered (served : List (Request × Answer)) : Bytes := served.flatMap fun x => x.2.payload

/-- The part of its data that a write has written. -/
def writtenPart (w : Bytes × WriteResult) : Bytes :=
  match w.2 with
  | .accepted count => w.1.take count
  | .brokenPipe => []

/-- The bytes that writes have written, in order. -/
def written (writes : List (Bytes × WriteResult)) : Bytes := writes.flatMap writtenPart

/-- One of the answers is an error. -/
def Failed (served : List (Request × Answer)) : Prop := ∃ r e, (r, Answer.error e) ∈ served

/-- A configuration with the books of the run that led to it. -/
structure Ledger (σ : Type) where
  config : Config σ
  /-- The bytes put into the channel, in order. -/
  handed : Bytes
  /-- The data of the write begun last. -/
  offered : Bytes
  /-- The writes that came back to the worker, the oldest first. -/
  writes : List (Bytes × WriteResult)
  /-- The request begun last. -/
  request : Request
  /-- The requests that have an answer, the oldest first. -/
  served : List (Request × Answer)

/-! ## Moves -/

/-- Who moves, and the reader also when it begins a request. -/
inductive Move
  | worker
  | reader
  | ask (r : Request)
deriving DecidableEq, Repr

/-- The data that a worker offers at its next step, if that begins a write. -/
def offers (act : Producer σ) : Worker σ → Option Bytes
  | .running s =>
    match act s with
    | .write data _ => some data
    | _ => none
  | _ => none

/-- The write that comes back to the worker at its next step. -/
def returning (act : Producer σ) (offered : Bytes) (c : Config σ) :
    List (Bytes × WriteResult) :=
  match c.worker with
  | .running s =>
    match act s with
    | .write data _ =>
      if data = [] then [(data, .accepted 0)]
      else if c.cancelled then [(data, .brokenPipe)]
      else []
    | _ => []
  | .sending chunk _ =>
    if !c.receiver then [(offered, .brokenPipe)] else [(offered, .accepted chunk.length)]
  | _ => []

namespace Ledger

/-- The books of a fresh stream. -/
def spawn (s : σ) : Ledger σ := ⟨.spawn s, [], [], [], .close, []⟩

/-- Enters a move of the worker. -/
def worked (act : Producer σ) (l : Ledger σ) (c : Config σ) : Ledger σ :=
  { l with
    config := c
    handed := l.handed ++ put l.config.slot c.slot
    offered := (offers act l.config.worker).getD l.offered
    writes := l.writes ++ returning act l.offered l.config }

/-- Enters a move of the reader, with the answer if the request has ended. -/
def heard (l : Ledger σ) (c : Config σ) : Ledger σ :=
  { l with
    config := c
    served := l.served ++ if c.phase = .idle then [(l.request, c.answers.headD .closed)] else [] }

/-- One move, unless the one whose move it is has to wait. -/
def move (act : Producer σ) (chunkSize : Nat) (l : Ledger σ) : Move → Option (Ledger σ)
  | .worker => (workerStep act chunkSize l.config).map (l.worked act)
  | .reader => (readerStep l.config).map l.heard
  | .ask r =>
    if l.config.phase = .idle then some ({ l with request := r }.heard (begin l.config r)) else none

/-- A run of moves. -/
def play (act : Producer σ) (chunkSize : Nat) : Ledger σ → List Move → Option (Ledger σ)
  | l, [] => some l
  | l, m :: rest => (l.move act chunkSize m).bind fun l => l.play act chunkSize rest

end Ledger

/-! ## What a move can be -/

/-- The moves of a worker. -/
inductive WorkerMove (act : Producer σ) (chunkSize : Nat) (c : Config σ) : Config σ → Prop
  | emptyWrite {s : σ} {next : WriteResult → σ} :
      c.worker = .running s → act s = .write [] next →
      WorkerMove act chunkSize c { c with worker := .running (next (.accepted 0)) }
  | refusedWrite {s : σ} {data : Bytes} {next : WriteResult → σ} :
      c.worker = .running s → act s = .write data next → data ≠ [] → c.cancelled = true →
      WorkerMove act chunkSize c { c with worker := .running (next .brokenPipe) }
  | beginWrite {s : σ} {data : Bytes} {next : WriteResult → σ} :
      c.worker = .running s → act s = .write data next → data ≠ [] → c.cancelled = false →
      WorkerMove act chunkSize c { c with worker := .sending (data.take chunkSize) next }
  | askCancelled {s : σ} {next : Bool → σ} :
      c.worker = .running s → act s = .askCancelled next →
      WorkerMove act chunkSize c { c with worker := .running (next c.cancelled) }
  | work {s t : σ} :
      c.worker = .running s → act s = .work t →
      WorkerMove act chunkSize c { c with worker := .running t }
  | finish {s : σ} {r : Except Error Unit} :
      c.worker = .running s → act s = .finish r →
      WorkerMove act chunkSize c { c with worker := .ending r s }
  | panic {s : σ} :
      c.worker = .running s → act s = .panic →
      WorkerMove act chunkSize c { c with worker := .ended s }
  | loseChunk {chunk : Bytes} {next : WriteResult → σ} :
      c.worker = .sending chunk next → c.receiver = false →
      WorkerMove act chunkSize c { c with worker := .running (next .brokenPipe) }
  | putChunk {chunk : Bytes} {next : WriteResult → σ} :
      c.worker = .sending chunk next → c.receiver = true → c.slot = none →
      WorkerMove act chunkSize c
        { c with slot := some (.chunk chunk),
                 worker := .running (next (.accepted chunk.length)) }
  | loseEnd {r : Except Error Unit} {s : σ} :
      c.worker = .ending r s → c.receiver = false →
      WorkerMove act chunkSize c { c with worker := .ended s }
  | putEnd {r : Except Error Unit} {s : σ} :
      c.worker = .ending r s → c.receiver = true → c.slot = none →
      WorkerMove act chunkSize c { c with slot := some (.finished r), worker := .ended s }

/-- What a step of the worker does is one of its moves. -/
theorem workerStep_moves {act : Producer σ} {chunkSize : Nat} {c c' : Config σ}
    (h : workerStep act chunkSize c = some c') : WorkerMove act chunkSize c c' := by
  unfold workerStep at h
  cases hw : c.worker with
  | running s =>
      rw [hw] at h
      cases ha : act s with
      | write data next =>
          simp only [ha] at h
          by_cases hd : data = []
          · subst hd
            rw [if_pos rfl] at h
            exact Option.some.inj h ▸ .emptyWrite hw ha
          · rw [if_neg hd] at h
            cases hc : c.cancelled with
            | true =>
                rw [hc, if_pos rfl] at h
                exact Option.some.inj h ▸ hc ▸ .refusedWrite hw ha hd hc
            | false =>
                rw [hc, if_neg Bool.false_ne_true] at h
                exact Option.some.inj h ▸ hc ▸ .beginWrite hw ha hd hc
      | askCancelled next =>
          simp only [ha] at h
          exact Option.some.inj h ▸ .askCancelled hw ha
      | work t =>
          simp only [ha] at h
          exact Option.some.inj h ▸ .work hw ha
      | finish r =>
          simp only [ha] at h
          exact Option.some.inj h ▸ .finish hw ha
      | panic =>
          simp only [ha] at h
          exact Option.some.inj h ▸ .panic hw ha
  | sending chunk next =>
      rw [hw] at h
      cases hr : c.receiver with
      | false =>
          simp only [hr, Bool.not_false, if_true] at h
          exact Option.some.inj h ▸ hr ▸ .loseChunk hw hr
      | true =>
          -- while the channel is full the worker waits, which is no move
          cases hs : c.slot with
          | some m => simp [hr, hs] at h
          | none =>
              simp only [hr, hs, Bool.not_true, Bool.false_eq_true, if_false, Option.isNone_none,
                if_true] at h
              exact Option.some.inj h ▸ hr ▸ .putChunk hw hr hs
  | ending r s =>
      rw [hw] at h
      cases hr : c.receiver with
      | false =>
          simp only [hr, Bool.not_false, if_true] at h
          exact Option.some.inj h ▸ hr ▸ .loseEnd hw hr
      | true =>
          cases hs : c.slot with
          | some m => simp [hr, hs] at h
          | none =>
              simp only [hr, hs, Bool.not_true, Bool.false_eq_true, if_false, Option.isNone_none,
                if_true] at h
              exact Option.some.inj h ▸ hr ▸ .putEnd hw hr hs
  | ended s =>
      rw [hw] at h
      exact nomatch h

/-- The moves of a reader inside a request. -/
inductive ReaderMove (c : Config σ) : Config σ → Prop
  | deliver {max : Nat} :
      c.phase = .reading max → c.offset < c.remainder.length → ReaderMove c (deliver c max)
  | seeEnd {max : Nat} :
      c.phase = .reading max → c.remainder.length ≤ c.offset →
      (c.writerDone = true ∨ c.state = .closed) → ReaderMove c (c.finish (.bytes []))
  | seeNothing {max : Nat} :
      c.phase = .reading max → c.remainder.length ≤ c.offset →
      c.state ≠ .closed → c.receiver = false → ReaderMove c (c.reply (.bytes []))
  | takeChunk {max : Nat} {data : Bytes} :
      c.phase = .reading max → c.remainder.length ≤ c.offset → c.writerDone = false →
      c.state ≠ .closed → c.receiver = true → c.slot = some (.chunk data) →
      ReaderMove c
        { c with
          slot := none
          remainder := data
          offset := 0
          state := if c.state = .starting then .streaming else c.state }
  | takeEnd {max : Nat} :
      c.phase = .reading max → c.remainder.length ≤ c.offset → c.writerDone = false →
      c.state ≠ .closed → c.receiver = true → c.slot = some (.finished (.ok ())) →
      ReaderMove c { c with slot := none, writerDone := true, state := .draining }
  | takeError {max : Nat} {e : Error} :
      c.phase = .reading max → c.remainder.length ≤ c.offset → c.writerDone = false →
      c.state ≠ .closed → c.receiver = true → c.slot = some (.finished (.error e)) →
      ReaderMove c (c.finish (.error e))
  | missWorker {max : Nat} {s : σ} :
      c.phase = .reading max → c.remainder.length ≤ c.offset → c.writerDone = false →
      c.state ≠ .closed → c.receiver = true → c.slot = none → c.worker = .ended s →
      ReaderMove c (c.finish (.error (.io .unexpectedEof lostWorkerText)))
  | discard {m : Message} :
      c.phase = .draining → c.slot = some m → ReaderMove c { c with slot := none }
  | letGo :
      c.phase = .draining → c.slot = none →
      ReaderMove c ({ c with remainder := [], offset := 0 }.finish .closed)
  | join {a : Answer} {s : σ} :
      c.phase = .joining a → c.worker = .ended s →
      ReaderMove c ({ c with state := .closed }.reply a)

/-- What a step of a read does is one of the reader's moves. -/
theorem readStep_moves {c c' : Config σ} {max : Nat} (hp : c.phase = .reading max)
    (h : readStep c max = some c') : ReaderMove c c' := by
  unfold readStep at h
  by_cases ho : c.offset < c.remainder.length
  · rw [if_pos ho] at h
    exact Option.some.inj h ▸ .deliver hp ho
  rw [if_neg ho] at h
  have hle : c.remainder.length ≤ c.offset := Nat.le_of_not_lt ho
  by_cases hd : (c.writerDone || c.state = .closed) = true
  · rw [if_pos hd] at h
    exact Option.some.inj h ▸ .seeEnd hp hle (by simpa using hd)
  rw [if_neg hd] at h
  have hopen : c.writerDone = false ∧ c.state ≠ .closed := by simpa using hd
  cases hr : c.receiver with
  | false =>
      simp only [hr, Bool.not_false, if_true] at h
      exact Option.some.inj h ▸ .seeNothing hp hle hopen.2 hr
  | true =>
      simp only [hr, Bool.not_true, Bool.false_eq_true, if_false] at h
      rcases hs : c.slot with _ | (data | ⟨e | u⟩)
      · simp only [hs] at h
        cases hw : c.worker with
        | ended s =>
            simp only [hw] at h
            exact Option.some.inj h ▸ .missWorker hp hle hopen.1 hopen.2 hr hs hw
        -- the channel is empty, and the reader waits for a worker that goes on
        | running s => simp [hw] at h
        | sending chunk next => simp [hw] at h
        | ending r s => simp [hw] at h
      · simp only [hs] at h
        exact Option.some.inj h ▸ hr ▸ .takeChunk hp hle hopen.1 hopen.2 hr hs
      · simp only [hs] at h
        exact Option.some.inj h ▸ .takeError hp hle hopen.1 hopen.2 hr hs
      · simp only [hs] at h
        exact Option.some.inj h ▸ hr ▸ .takeEnd hp hle hopen.1 hopen.2 hr hs

/-- What a step of the reader does is one of its moves. -/
theorem readerStep_moves {c c' : Config σ} (h : readerStep c = some c') : ReaderMove c c' := by
  unfold readerStep at h
  cases hp : c.phase with
  | idle => simp [hp] at h
  | reading max =>
      rw [hp] at h
      exact readStep_moves hp h
  | draining =>
      rw [hp] at h
      cases hs : c.slot with
      | some m =>
          simp only [hs] at h
          exact Option.some.inj h ▸ hp ▸ .discard hp hs
      | none =>
          simp only [hs] at h
          exact Option.some.inj h ▸ hs ▸ .letGo hp hs
  | joining a =>
      rw [hp] at h
      cases hw : c.worker with
      | ended s =>
          simp only [hw] at h
          exact Option.some.inj h ▸ hw ▸ .join hp hw
      | running s => simp [hw] at h
      | sending chunk next => simp [hw] at h
      | ending r s => simp [hw] at h

/-! ## What runs keep -/

section Keeps

variable {act : Producer σ} {chunkSize : Nat} {P : Config σ → Prop} {l l' : Ledger σ}

/-- A property of all moves is kept by every move of a ledger. -/
theorem Ledger.move_keeps (hworker : ∀ c c', P c → WorkerMove act chunkSize c c' → P c')
    (hreader : ∀ c c', P c → ReaderMove c c' → P c')
    (hask : ∀ c r, P c → c.phase = .idle → P (begin c r)) (h : P l.config) {m : Move}
    (hm : l.move act chunkSize m = some l') : P l'.config := by
  cases m with
  | worker =>
      obtain ⟨c, hc, rfl⟩ := Option.map_eq_some_iff.mp hm
      exact hworker _ _ h (workerStep_moves hc)
  | reader =>
      obtain ⟨c, hc, rfl⟩ := Option.map_eq_some_iff.mp hm
      exact hreader _ _ h (readerStep_moves hc)
  | ask r =>
      obtain ⟨hidle, he⟩ := Option.ite_none_right_eq_some.mp hm
      rw [← Option.some.inj he]
      exact hask _ r h hidle

/-- What the moves of both sides keep, and the begin of a request, every run keeps. -/
theorem Ledger.play_keeps (hworker : ∀ c c', P c → WorkerMove act chunkSize c c' → P c')
    (hreader : ∀ c c', P c → ReaderMove c c' → P c')
    (hask : ∀ c r, P c → c.phase = .idle → P (begin c r)) (h : P l.config) {moves : List Move}
    (hp : l.play act chunkSize moves = some l') : P l'.config := by
  induction moves generalizing l with
  | nil => exact Option.some.inj hp ▸ h
  | cons m rest ih =>
      obtain ⟨k, hm, hrest⟩ := Option.bind_eq_some_iff.mp hp
      exact ih (Ledger.move_keeps hworker hreader hask h hm) hrest

end Keeps

end Gitwork.Stream
