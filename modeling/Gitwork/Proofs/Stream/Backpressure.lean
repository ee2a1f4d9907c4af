import Gitwork.Proofs.Stream.Supply

/-! # How much a stream holds

    A worker that is faster than its reader has to wait.  All that lies between the two
    is one chunk in the channel and one that the reader has begun, and no chunk is larger
    than its size allows: `Filled` says so of a configuration, and every move keeps it.

    * A worker sends into an empty channel only (`WorkerMove.sends`).
    * A reader takes a chunk only when it has used up the one before
      (`Steered.takes_when_used_up`).

    With the books of an open stream, the writes are ahead of the reads by two chunks at
    most, whatever the worker has still to write. -/

namespace Gitwork.Stream

variable {σ : Type} {act : Producer σ} {chunkSize : Nat} {c c' : Config σ}

/-! ## Chunks and their size -/

/-- Data that may be a chunk. -/
def IsChunk (chunkSize : Nat) (data : Bytes) : Prop := 1 ≤ data.length ∧ data.length ≤ chunkSize

theorem isChunk_take (hsize : 0 < chunkSize) {data : Bytes} (hdata : data ≠ []) :
    IsChunk chunkSize (data.take chunkSize) :=
  ⟨List.length_pos_iff.mpr (take_ne_nil hsize hdata), List.length_take_le _ _⟩

/-- Wherever a chunk is, it is a chunk; and one that the reader keeps is not used up. -/
structure Filled (chunkSize : Nat) (c : Config σ) : Prop where
  sending : ∀ chunk next, c.worker = .sending chunk next → IsChunk chunkSize chunk
  queued : ∀ data, c.slot = some (.chunk data) → IsChunk chunkSize data
  kept : c.remainder ≠ [] → IsChunk chunkSize c.remainder ∧ c.offset < c.remainder.length

theorem Filled.spawn (s : σ) : Filled chunkSize (.spawn s) := ⟨nofun, nofun, fun h => absurd rfl h⟩

/-- A worker only puts chunks into the channel. -/
theorem Filled.worker (h : Filled chunkSize c) (hsize : 0 < chunkSize)
    (hm : WorkerMove act chunkSize c c') : Filled chunkSize c' := by
  cases hm with
  | beginWrite _ _ hd _ =>
      refine { h with sending := ?_ }
      intro chunk next hs
      obtain ⟨rfl, -⟩ := Worker.sending.inj hs
      exact isChunk_take hsize hd
  | putChunk hw _ _ =>
      refine { h with sending := nofun, queued := ?_ }
      intro data hs
      obtain rfl := Message.chunk.inj (Option.some.inj hs)
      exact h.sending _ _ hw
  | putEnd _ _ _ => exact { h with sending := nofun, queued := nofun }
  | emptyWrite | refusedWrite | askCancelled | work | finish | panic | loseChunk | loseEnd =>
      exact { h with sending := nofun }

/-- A delivery leaves a rest of the chunk, or nothing at all. -/
theorem deliver_rest (c : Config σ) (max : Nat) (ho : c.offset < c.remainder.length) :
    ∃ kept offset piece, deliver c max = { c with remainder := kept, offset }.reply (.bytes piece)
      ∧ (kept ≠ [] → kept = c.remainder ∧ offset < kept.length) := by
  have hpiece : ((c.remainder.drop c.offset).take max).length ≤ c.remainder.length - c.offset := by
    rw [List.length_take, List.length_drop]
    exact Nat.min_le_right _ _
  by_cases hall : c.offset + ((c.remainder.drop c.offset).take max).length = c.remainder.length
  · exact ⟨[], 0, _, congrArg (Config.reply · _) (if_pos hall), fun hsome => absurd rfl hsome⟩
  · refine ⟨c.remainder, _, _, congrArg (Config.reply · _) (if_neg hall), fun _ => ⟨rfl, ?_⟩⟩
    omega

/-- The reader only keeps chunks, and not one that is used up. -/
theorem Filled.reader (h : Filled chunkSize c) (hm : ReaderMove c c') : Filled chunkSize c' := by
  cases hm with
  | @deliver max hp ho =>
      obtain ⟨kept, offset, piece, heq, hrest⟩ := deliver_rest c max ho
      rw [heq]
      refine { h with kept := ?_ }
      -- what is left of a chunk is kept as long as some of it has not been delivered
      intro hsome
      obtain ⟨rfl, hoffset⟩ := hrest hsome
      exact ⟨(h.kept hsome).1, hoffset⟩
  | takeChunk _ _ _ _ _ hslot =>
      have hchunk := h.queued _ hslot
      exact { h with queued := nofun, kept := fun _ => ⟨hchunk, hchunk.1⟩ }
  | letGo => exact { h with queued := nofun, kept := fun hsome => absurd rfl hsome }
  | seeEnd | takeEnd | takeError | missWorker | discard => exact { h with queued := nofun }
  | seeNothing | join => exact { h with }

/-- A request does not touch what is kept. -/
theorem begin_rest (c : Config σ) (r : Request) :
    (begin c r).remainder = c.remainder ∧ (begin c r).offset = c.offset := by
  cases r with
  | read max =>
      simp only [begin]
      split
      · exact ⟨rfl, rfl⟩
      · split <;> exact ⟨rfl, rfl⟩
  | close =>
      simp only [begin]
      split <;> exact ⟨rfl, rfl⟩

/-- A request does not touch what the chunks are. -/
theorem Filled.ask (h : Filled chunkSize c) (r : Request) : Filled chunkSize (begin c r) := by
  obtain ⟨hworker, hslot, -⟩ := begin_frame c r
  obtain ⟨hremainder, hoffset⟩ := begin_rest c r
  refine ⟨?_, ?_, ?_⟩
  · rw [hworker]
    exact h.sending
  · rw [hslot]
    exact h.queued
  · rw [hremainder, hoffset]
    exact h.kept

theorem Filled.play {l l' : Ledger σ} (h : Filled chunkSize l.config) (hsize : 0 < chunkSize)
    {moves : List Move} (hp : l.play act chunkSize moves = some l') :
    Filled chunkSize l'.config :=
  Ledger.play_keeps (fun _ _ h hm => h.worker hsize hm) (fun _ _ h hm => h.reader hm)
    (fun _ r h _ => h.ask r) h hp

/-! ## One chunk at a time -/

/-- A worker sends into an empty channel only. -/
theorem WorkerMove.sends (hm : WorkerMove act chunkSize c c') : c'.slot = c.slot ∨ c.slot = none := by
  cases hm with
  | putChunk _ _ hslot | putEnd _ _ hslot => exact Or.inr hslot
  | emptyWrite | refusedWrite | beginWrite | askCancelled | work | finish | panic | loseChunk
  | loseEnd => exact Or.inl rfl

/-- A reader only takes out of the channel. -/
theorem ReaderMove.takes (hm : ReaderMove c c') : c'.slot = c.slot ∨ c'.slot = none := by
  cases hm with
  | @deliver max hp ho =>
      obtain ⟨_, _, _, heq, -⟩ := deliver_rest c max ho
      rw [heq]
      exact Or.inl rfl
  | seeNothing | join => exact Or.inl rfl
  | seeEnd | takeChunk | takeEnd | takeError | missWorker | discard | letGo => exact Or.inr rfl

/-- No message is pushed out of the channel by another one. -/
theorem Ledger.move_slot {l k : Ledger σ} {m : Move} (hm : l.move act chunkSize m = some k)
    {x : Message} (hx : l.config.slot = some x) :
    k.config.slot = some x ∨ (m = .reader ∧ k.config.slot = none) := by
  cases m with
  | worker =>
      obtain ⟨c, hc, rfl⟩ := Option.map_eq_some_iff.mp hm
      -- only an empty channel is written to
      rcases (workerStep_moves hc).sends with hsame | hempty
      · exact Or.inl (hsame.trans hx)
      · exact absurd (hx.symm.trans hempty) nofun
  | reader =>
      obtain ⟨c, hc, rfl⟩ := Option.map_eq_some_iff.mp hm
      exact (readerStep_moves hc).takes.imp (·.trans hx) fun hnone => ⟨rfl, hnone⟩
  | ask r =>
      obtain ⟨-, he⟩ := Option.ite_none_right_eq_some.mp hm
      rw [← Option.some.inj he]
      exact Or.inl ((begin_frame l.config r).2.1.trans hx)

/-- **A chunk is taken only when the one before is used up**, and it is then kept whole. -/
theorem Steered.takes_when_used_up {l : Ledger σ} (h : Steered act l)
    (hm : ReaderMove l.config c) {data : Bytes} (hchunk : l.config.slot = some (.chunk data))
    (hgone : c.slot = none) :
    l.config.retained = 0 ∧ c.remainder = data ∧ c.offset = 0 := by
  cases hm with
  -- it was used up, or the reader would have delivered from it
  | takeChunk _ husedUp _ _ _ hslot =>
      obtain rfl := Message.chunk.inj (Option.some.inj (hchunk.symm.trans hslot))
      exact ⟨Nat.sub_eq_zero_of_le husedUp, rfl, rfl⟩
  | @deliver max hp ho =>
      obtain ⟨_, _, _, heq, -⟩ := deliver_rest l.config max ho
      rw [heq] at hgone
      exact absurd (hchunk.symm.trans hgone) nofun
  | seeEnd hp _ hend =>
      obtain ⟨_, _, hempty, _⟩ := h.end_known hp hend
      exact absurd (hchunk.symm.trans hempty) nofun
  | seeNothing | join => exact absurd (hchunk.symm.trans hgone) nofun
  | takeEnd _ _ _ _ _ hslot | takeError _ _ _ _ _ hslot | missWorker _ _ _ _ _ hslot _ =>
      exact absurd (hchunk.symm.trans hslot) nofun
  | discard hp _ | letGo hp _ => exact absurd hp h.unclosing

/-! ## The bound -/

/-- What is kept and what waits are a chunk each. -/
theorem Filled.held (h : Filled chunkSize c) :
    (c.remainder.drop c.offset).length ≤ chunkSize ∧ (waiting c.slot).length ≤ chunkSize := by
  constructor
  · rw [List.length_drop]
    by_cases hsome : c.remainder = []
    · rw [hsome]
      exact Nat.le_trans (Nat.sub_le _ _) (Nat.zero_le _)
    · exact Nat.le_trans (Nat.sub_le _ _) (h.kept hsome).1.2
  · rcases hslot : c.slot with _ | (data | r)
    · exact Nat.zero_le _
    · exact (h.queued data hslot).2
    · exact Nat.zero_le _

/-- **A stream holds two chunks at most**, however fast its worker is and however much it has
    still to write.  In each run in which the reader has not closed the stream:

    * there is one message at most in the channel, and none is pushed out by another one;
    * a chunk in the channel, and a chunk that the reader keeps, is not empty and not larger
      than the size of a chunk, and what is left of one that is kept is not empty either;
    * what writes have written is ahead of what reads have got by two chunks at most;
    * a chunk is taken out of the channel only when nothing is left of the one before. -/
theorem backpressure (act : Producer σ) (n : Nat) (s : σ) (moves : List Move) (l : Ledger σ)
    (hrun : (Ledger.spawn s).play act (effectiveChunkSize n) moves = some l)
    (hopen : l.config.closedByCaller = false) :
    (l.config.slot.toList.length ≤ 1
      ∧ ∀ m k x, l.move act (effectiveChunkSize n) m = some k → l.config.slot = some x →
        k.config.slot = some x ∨ k.config.slot = none)
    ∧ (∀ data, l.config.slot = some (.chunk data) →
      1 ≤ data.length ∧ data.length ≤ effectiveChunkSize n)
    ∧ (l.config.remainder ≠ [] →
      (1 ≤ l.config.remainder.length ∧ l.config.remainder.length ≤ effectiveChunkSize n)
        ∧ 1 ≤ l.config.retained)
    ∧ (written l.writes).length ≤ (delivered l.served).length + 2 * effectiveChunkSize n
    ∧ ∀ m k data, l.move act (effectiveChunkSize n) m = some k →
      l.config.slot = some (.chunk data) → k.config.slot = none →
        l.config.retained = 0 ∧ k.config.remainder = data ∧ k.config.offset = 0 := by
  have h : Filled (effectiveChunkSize n) l.config :=
    (Filled.spawn s).play (effectiveChunkSize_pos n) hrun
  have hbooks : Balanced act (effectiveChunkSize n) l := (Balanced.spawn s).play hrun hopen
  refine ⟨⟨?_, fun m k x hm hx => (Ledger.move_slot hm hx).imp_right (·.2)⟩, h.queued, ?_, ?_, ?_⟩
  · cases l.config.slot with
    | none => exact Nat.zero_le 1
    | some m => exact Nat.le_refl 1
  · intro hsome
    obtain ⟨hchunk, hoffset⟩ := h.kept hsome
    exact ⟨hchunk, Nat.sub_pos_of_lt hoffset⟩
  · -- written bytes are delivered, in the channel, or kept, and the last two are one chunk each
    obtain ⟨hkept, hwaiting⟩ := h.held
    have hall := congrArg List.length (hbooks.books.trans hbooks.tally.symm)
    rw [List.length_append, List.length_append] at hall
    omega
  · -- the reader emptied the channel, since no one else takes from it
    intro m k data hm hchunk hgone
    rcases Ledger.move_slot hm hchunk with hstays | ⟨rfl, -⟩
    · exact absurd (hstays.symm.trans hgone) nofun
    · obtain ⟨c, hc, rfl⟩ := Option.map_eq_some_iff.mp hm
      exact hbooks.takes_when_used_up (readerStep_moves hc) hchunk hgone

/-- A worker with more to write than the stream holds. -/
def eightBytes : Script := .ofOps [.writeAll [1, 2, 3, 4, 5, 6, 7, 8]]

/-- The reader has taken a chunk and not yet delivered any of it. -/
def aheadOfReader : List Move :=
  [.ask (.read 1), .worker, .worker, .reader, .worker, .worker, .worker]

/-- The bound is reached: two chunks of two bytes are written and none is read, and the
    worker waits with a third one. -/
theorem backpressure_eightBytes :
    ∃ l, (Ledger.spawn eightBytes).play (Script.act 2) (effectiveChunkSize 2) aheadOfReader = some l
      ∧ l.config.closedByCaller = false
      ∧ (written l.writes).length = 2 * effectiveChunkSize 2 ∧ delivered l.served = []
      ∧ workerStep (Script.act 2) (effectiveChunkSize 2) l.config = none
      ∧ (written l.writes).length ≤ (delivered l.served).length + 2 * effectiveChunkSize 2 :=
  ⟨_, rfl, rfl, rfl, rfl, rfl,
    (backpressure (Script.act 2) 2 eightBytes aheadOfReader _ rfl rfl).2.2.2.1⟩

end Gitwork.Stream
