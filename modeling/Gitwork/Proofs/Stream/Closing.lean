import Gitwork.Proofs.Stream.Obliging

/-! # Closing always ends

    Of an obliging worker and a reader that closes the stream, every schedule
    brings the close to its end, also one that favours a side
    (`Coherent.inevitable`): each move of the worker brings it nearer to its own
    end, and each move of the reader brings the close nearer to its end.

    Whatever the worker is like, the close takes three messages at most out of
    the channel (`drained_le`), and one write at most, the one that is under way
    when the stream is cancelled, can still hand over a chunk
    (`Ledger.play_cancelled`).

    To find the channel empty and to let go of it are one step here.  A message
    that arrives in between would be dropped with the channel; here it is taken
    out first, which comes to the same. -/

namespace Gitwork.Stream

variable {σ : Type} {act : Producer σ} {chunkSize : Nat} {c c' : Config σ}

/-! ## Closing -/

/-- Whichever side moves when, this will hold, after finitely many moves. -/
inductive Inevitable (act : Producer σ) (chunkSize : Nat) (goal : Config σ → Prop) :
    Config σ → Prop
  | reached {c : Config σ} : goal c → Inevitable act chunkSize goal c
  | step {c : Config σ} : (∃ c', Moves act chunkSize c c') →
      (∀ c', Moves act chunkSize c c' → Inevitable act chunkSize goal c') →
      Inevitable act chunkSize goal c

/-- A worker with finitely many moves left, and a reader that with each move of its own comes
    nearer to a goal, reach it in every schedule. -/
theorem Inevitable.of_ranks (P : Config σ → Prop) (rank : Config σ → Nat)
    {R : Worker σ → Worker σ → Prop} {goal : Config σ → Prop}
    (hfree : ∀ c, P c → ¬ goal c → ∃ c', Moves act chunkSize c c')
    (hworker : ∀ c c', P c → ¬ goal c → WorkerMove act chunkSize c c' →
      P c' ∧ R c'.worker c.worker)
    (hreader : ∀ c c', P c → ¬ goal c → ReaderMove c c' →
      P c' ∧ c'.worker = c.worker ∧ rank c' < rank c)
    {w : Worker σ} (hacc : Acc R w) :
    ∀ c : Config σ, c.worker = w → P c → Inevitable act chunkSize goal c := by
  -- outside, on the moves that the worker has left; inside, on the way of the reader, which
  -- starts anew with each move of the worker
  induction hacc with
  | intro w _ ihworker =>
      intro c
      induction hd : rank c using Nat.strongRecOn generalizing c with
      | _ d ihreader =>
          intro hw h
          by_cases hgoal : goal c
          · exact .reached hgoal
          refine .step (hfree c h hgoal) ?_
          rintro c' (hc' | hc')
          · obtain ⟨h', hless⟩ := hworker c c' h hgoal (workerStep_moves hc')
            exact ihworker c'.worker (hw ▸ hless) c' rfl h'
          · obtain ⟨h', hsame, hlt⟩ := hreader c c' h hgoal (readerStep_moves hc')
            exact ihreader (rank c') (hd ▸ hlt) c' rfl (hsame.trans hw) h'

/-- The close has returned: the worker has ended, and nothing is retained. -/
structure Shut (c : Config σ) : Prop where
  idle : c.phase = .idle
  closed : c.state = .closed
  ended : c.worker.HasEnded
  letGo : c.receiver = false ∧ c.slot = none
  nothing : c.retained = 0

theorem Coherent.shut (h : Coherent c) (hclosed : c.closedByCaller = true) (hidle : c.phase = .idle) :
    Shut c := by
  have hstate := h.closed_of_idle hidle hclosed
  obtain ⟨hended, hreceiver, husedUp⟩ := h.closed hstate
  exact ⟨hidle, hstate, hended, ⟨hreceiver, h.empty hreceiver⟩, Nat.sub_eq_zero_of_le husedUp⟩

/-- How far a reader is from the end of its close. -/
def distance (c : Config σ) : Nat :=
  match c.phase with
  | .draining => if c.slot.isSome then 3 else 2
  | .joining _ => 1
  | .idle | .reading _ => 0

/-- A reader that closes the stream comes nearer to the end of that. -/
theorem Coherent.nearer (h : Coherent c) (hclosed : c.closedByCaller = true)
    (hm : ReaderMove c c') : c'.closedByCaller = true ∧ distance c' < distance c := by
  cases hm with
  | discard hp hs => exact ⟨hclosed, by simp [distance, hp, hs]⟩
  | letGo hp hs => exact ⟨hclosed, by simp [distance, Config.finish, hp, hs]⟩
  | join hp hw => exact ⟨hclosed, by simp [distance, Config.reply, hp]⟩
  | deliver hp | seeEnd hp | seeNothing hp | takeChunk hp | takeEnd hp | takeError hp
  | missWorker hp => exact absurd hclosed (h.opened hp)

/-- A close that has begun, with a worker that ends, comes to its end. -/
theorem Coherent.inevitable (hacc : Acc (Turn act chunkSize true) c.worker) (h : Coherent c)
    (hclosed : c.closedByCaller = true) : Inevitable act chunkSize Shut c := by
  have hbusy : ∀ c : Config σ, Coherent c ∧ c.closedByCaller = true → ¬ Shut c →
      c.phase ≠ .idle := fun c ⟨h, hclosed⟩ hshut hidle => hshut (h.shut hclosed hidle)
  refine Inevitable.of_ranks (fun c => Coherent c ∧ c.closedByCaller = true) distance
    ?_ ?_ ?_ hacc c rfl ⟨h, hclosed⟩
  · exact fun c h hshut => h.1.unstuck (hbusy c h hshut)
  · intro c c' h hshut hm
    -- a busy stream that was closed is cancelled, so the turns of the worker run out
    have hcancelled := h.1.cancelled_of_busy (hbusy c h hshut) h.2
    have hsame : c'.closedByCaller = true := by
      obtain ⟨_, _, rfl, -⟩ := hm.frame
      exact h.2
    exact ⟨⟨h.1.worker hm, hsame⟩, c, c', ⟨hcancelled, nofun⟩, hm, rfl, rfl⟩
  · -- between two turns of the worker, the reader comes nearer to the end of the channel
    intro c c' h _ hm
    obtain ⟨hsame, hlt⟩ := h.1.nearer h.2 hm
    exact ⟨⟨h.1.reader hm, hsame⟩, hm.frame.1, hlt⟩

/-! ## What a worker still hands over -/

/-- What becomes of the write that is under way when the stream is cancelled. -/
inductive Parting (l l' : Ledger σ) : List (Bytes × WriteResult) → Prop
  /-- There is none, or it has not come back yet. -/
  | nothing : l'.handed = l.handed → Parting l l' []
  | handedOver {chunk : Bytes} {next : WriteResult → σ} : l.config.worker = .sending chunk next →
      l'.handed = l.handed ++ chunk → Parting l l' [(l.offered, .accepted chunk.length)]
  | lost {chunk : Bytes} {next : WriteResult → σ} : l.config.worker = .sending chunk next →
      l'.handed = l.handed → Parting l l' [(l.offered, .brokenPipe)]

/-- A worker that holds no chunk has no write under way. -/
theorem Parting.free {l l' : Ledger σ} {last : List (Bytes × WriteResult)} (h : Parting l l' last)
    (hfree : ∀ chunk next, l.config.worker ≠ .sending chunk next) :
    last = [] ∧ l'.handed = l.handed := by
  cases h with
  | nothing h => exact ⟨rfl, h⟩
  | handedOver hw | lost hw => exact absurd hw (hfree _ _)

/-- A write of something that was refused. -/
def Denied (w : Bytes × WriteResult) : Prop := w.1 ≠ [] → w.2 = .brokenPipe

/-- Without a chunk to hand over, a worker of a cancelled stream is only denied writes. -/
theorem returning_denied (hc : c.cancelled = true)
    (hfree : ∀ chunk next, c.worker ≠ .sending chunk next) (offered : Bytes) :
    ∀ w ∈ returning act offered c, Denied w := by
  intro w hmem
  cases hw : c.worker with
  | running s =>
      -- a write without data returns at once, and one with data meets the cancel
      cases ha : act s with
      | write data next =>
          simp only [returning, hw, ha, hc, if_true] at hmem
          split at hmem
          · next hd =>
              obtain rfl := List.mem_singleton.mp hmem
              exact fun hsome => absurd hd hsome
          · obtain rfl := List.mem_singleton.mp hmem
            exact fun _ => rfl
      | askCancelled | work | finish | panic =>
          simp only [returning, hw, ha] at hmem
          exact absurd hmem List.not_mem_nil
  | sending chunk next => exact absurd hw (hfree chunk next)
  | ending | ended =>
      simp only [returning, hw] at hmem
      exact absurd hmem List.not_mem_nil

/-- And it gets no chunk to hand over any more. -/
theorem WorkerMove.refused (hm : WorkerMove act chunkSize c c') (hc : c.cancelled = true)
    (hfree : ∀ chunk next, c.worker ≠ .sending chunk next) :
    (∀ chunk next, c'.worker ≠ .sending chunk next) ∧ put c.slot c'.slot = [] := by
  cases hm with
  | beginWrite _ _ _ hgoes => exact absurd (hc.symm.trans hgoes) nofun
  | loseChunk hw | putChunk hw => exact absurd hw (hfree _ _)
  | emptyWrite | refusedWrite | askCancelled | work | finish | panic | loseEnd =>
      exact ⟨nofun, put_self _⟩
  | putEnd _ _ hs =>
      refine ⟨nofun, ?_⟩
      rw [hs]
      rfl

/-- No move takes a cancel back. -/
theorem Ledger.move_cancelled {l k : Ledger σ} {m : Move} (hm : l.move act chunkSize m = some k)
    (hc : l.config.cancelled = true) : k.config.cancelled = true := by
  cases m with
  | worker =>
      obtain ⟨c, hstep, rfl⟩ := Option.map_eq_some_iff.mp hm
      obtain ⟨_, _, rfl, -⟩ := (workerStep_moves hstep).frame
      exact hc
  | reader =>
      obtain ⟨c, hstep, rfl⟩ := Option.map_eq_some_iff.mp hm
      exact (readerStep_moves hstep).frame.2.trans hc
  | ask r =>
      obtain ⟨-, he⟩ := Option.ite_none_right_eq_some.mp hm
      rw [← Option.some.inj he]
      exact (begin_frame l.config r).2.2 hc

/-- A move of the reader's part does not touch the books of the worker. -/
theorem Ledger.move_reader {l k : Ledger σ} {m : Move} (hm : l.move act chunkSize m = some k)
    (hne : m ≠ .worker) :
    k.config.worker = l.config.worker ∧ k.handed = l.handed ∧ k.writes = l.writes
      ∧ k.offered = l.offered := by
  cases m with
  | worker => exact absurd rfl hne
  | reader =>
      obtain ⟨c, hstep, rfl⟩ := Option.map_eq_some_iff.mp hm
      exact ⟨(readerStep_moves hstep).frame.1, rfl, rfl, rfl⟩
  | ask r =>
      obtain ⟨-, he⟩ := Option.ite_none_right_eq_some.mp hm
      rw [← Option.some.inj he]
      exact ⟨(begin_frame l.config r).1, rfl, rfl, rfl⟩

/-- **After a cancel the worker hands over what it holds, and nothing else.** -/
theorem Ledger.play_cancelled {l l' : Ledger σ} {moves : List Move}
    (hp : l.play act chunkSize moves = some l') (hc : l.config.cancelled = true) :
    ∃ last later, l'.writes = l.writes ++ last ++ later ∧ Parting l l' last
      ∧ ∀ w ∈ later, Denied w := by
  induction moves generalizing l with
  | nil =>
      obtain rfl := Option.some.inj hp
      exact ⟨[], [], by simp, .nothing rfl, fun _ hmem => absurd hmem List.not_mem_nil⟩
  | cons m rest ih =>
      obtain ⟨k, hm, hrest⟩ := Option.bind_eq_some_iff.mp hp
      -- the parting write can only be in this move; the induction tells the rest
      obtain ⟨last, later, hwrites, hparting, hdenied⟩ := ih hrest (Ledger.move_cancelled hm hc)
      by_cases hworker : m = .worker
      · subst hworker
        obtain ⟨c, hstep, rfl⟩ := Option.map_eq_some_iff.mp hm
        have hmove := workerStep_moves hstep
        by_cases hsending : ∃ chunk next, l.config.worker = .sending chunk next
        · -- the write that was under way comes back, and there is none after it
          obtain ⟨chunk, next, hw⟩ := hsending
          rcases hmove.of_sending hw with ⟨hr, rfl⟩ | ⟨hr, hs, rfl⟩
          · obtain ⟨rfl, hhanded⟩ := hparting.free fun _ _ hs => by cases hs
            refine ⟨_, later, ?_, .lost hw ?_, hdenied⟩
            · rw [hwrites, List.append_nil]
              simp only [worked, returning, hw, hr, Bool.not_false, if_true]
            · rw [hhanded]
              simp only [worked, put_self, List.append_nil]
          · obtain ⟨rfl, hhanded⟩ := hparting.free fun _ _ hs => by cases hs
            refine ⟨_, later, ?_, .handedOver hw ?_, hdenied⟩
            · rw [hwrites, List.append_nil]
              simp only [worked, returning, hw, hr, Bool.not_true, Bool.false_eq_true, if_false]
            · rw [hhanded]
              simp only [worked, hs]
              rfl
        · have hfree : ∀ chunk next, l.config.worker ≠ .sending chunk next :=
            fun chunk next hw => hsending ⟨chunk, next, hw⟩
          obtain ⟨hfree', hput⟩ := hmove.refused hc hfree
          obtain ⟨rfl, hhanded⟩ := hparting.free hfree'
          refine ⟨[], returning act l.offered l.config ++ later, ?_, .nothing ?_, ?_⟩
          · rw [hwrites]
            simp only [worked, List.append_nil, List.append_assoc]
          · rw [hhanded]
            simp only [worked, hput, List.append_nil]
          · intro w hmem
            rcases List.mem_append.mp hmem with hnow | hlater
            · exact returning_denied hc hfree l.offered w hnow
            · exact hdenied w hlater
      · -- the worker is where it was, with the same books
        obtain ⟨hsame, hhanded, hbooks, hoffered⟩ := Ledger.move_reader hm hworker
        refine ⟨last, later, by rw [hwrites, hbooks], ?_, hdenied⟩
        cases hparting with
        | nothing h => exact .nothing (h.trans hhanded)
        | handedOver hw h =>
            rw [hoffered]
            exact .handedOver (hsame ▸ hw) (hhanded ▸ h)
        | lost hw h =>
            rw [hoffered]
            exact .lost (hsame ▸ hw) (h.trans hhanded)

/-! ## What a close takes out of the channel -/

/-- The messages that the reader has thrown away while it closed the stream. -/
def drained (act : Producer σ) (chunkSize : Nat) : Ledger σ → List Move → Nat
  | _, [] => 0
  | l, m :: rest =>
    match l.move act chunkSize m with
    | none => 0
    | some k =>
      (if m = .reader ∧ l.config.phase = .draining ∧ l.config.slot.isSome then 1 else 0)
        + drained act chunkSize k rest

/-- The messages that a worker of a cancelled stream can still send. -/
def Worker.left : Worker σ → Nat
  | .running _ => 1
  | .sending _ _ => 2
  | .ending _ _ => 1
  | .ended _ => 0

/-- The messages in the channel, and those that can still come. -/
def stock (c : Config σ) : Nat := c.slot.toList.length + c.worker.left

/-- A stream holds three messages at most: one in the channel and two to be sent. -/
theorem stock_le (c : Config σ) : stock c ≤ 3 := by
  have hslot : c.slot.toList.length ≤ 1 := by
    cases c.slot with
    | none => exact Nat.zero_le 1
    | some m => exact Nat.le_refl 1
  have hworker : c.worker.left ≤ 2 := by
    cases c.worker with
    | running | sending | ending | ended => simp [Worker.left]
  exact Nat.add_le_add hslot hworker

/-- A worker that puts a message into the channel has one less to send. -/
theorem WorkerMove.stock_le (hm : WorkerMove act chunkSize c c') (hc : c.cancelled = true) :
    stock c' ≤ stock c := by
  cases hm with
  | beginWrite _ _ _ hgoes => exact absurd (hc.symm.trans hgoes) nofun
  | emptyWrite hw | refusedWrite hw | askCancelled hw | work hw | finish hw | panic hw
  | loseChunk hw | loseEnd hw => simp [stock, hw, Worker.left]
  | putChunk hw _ hs | putEnd hw _ hs => simp [stock, hw, hs, Worker.left]

/-- Each message the reader discards was in stock. -/
theorem ReaderMove.stock_le (hm : ReaderMove c c') :
    stock c' + (if c.phase = .draining ∧ c.slot.isSome then 1 else 0) ≤ stock c := by
  cases hm with
  | deliver hp ho =>
      obtain ⟨_, _, _, heq, -⟩ := deliver_eq c _ (Nat.le_of_lt ho)
      rw [heq]
      simp [stock, Config.reply, hp]
  | discard hp hs => simp [stock, hp, hs, Nat.add_comm]
  | letGo hp hs => simp [stock, Config.finish, hp, hs]
  | seeEnd hp | seeNothing hp | takeChunk hp | takeEnd hp | takeError hp | missWorker hp
  | join hp => simp [stock, Config.finish, Config.reply, hp]

/-- What is drained from a cancelled stream was in its stock. -/
theorem drained_le_stock {moves : List Move} {l : Ledger σ} (hc : l.config.cancelled = true) :
    drained act chunkSize l moves ≤ stock l.config := by
  induction moves generalizing l with
  | nil => exact Nat.zero_le _
  | cons m rest ih =>
      rw [drained]
      cases hm : l.move act chunkSize m with
      | none => exact Nat.zero_le _
      | some k =>
          have hrest := ih (Ledger.move_cancelled hm hc)
          cases m with
          | worker =>
              obtain ⟨c, hstep, rfl⟩ := Option.map_eq_some_iff.mp hm
              -- after a cancel the worker starts no new message
              have hstock := (workerStep_moves hstep).stock_le hc
              simpa using Nat.le_trans hrest hstock
          | reader =>
              obtain ⟨c, hstep, rfl⟩ := Option.map_eq_some_iff.mp hm
              have hstock := (readerStep_moves hstep).stock_le
              have hrest : drained act chunkSize (l.heard c) rest ≤ stock c := hrest
              simp only [true_and]
              omega
          | ask r =>
              obtain ⟨-, he⟩ := Option.ite_none_right_eq_some.mp hm
              obtain rfl := Option.some.inj he
              obtain ⟨hworker, hslot, -⟩ := begin_frame l.config r
              have hstock : stock (begin l.config r) = stock l.config := by
                rw [stock, stock, hworker, hslot]
              simpa using Nat.le_trans hrest (Nat.le_of_eq hstock)

/-- A run has one close at most that empties the channel, and that takes three
    messages at most. -/
theorem drained_le {moves : List Move} {l : Ledger σ} (h : Coherent l.config) :
    drained act chunkSize l moves ≤ 3 := by
  induction moves generalizing l with
  | nil => exact Nat.zero_le _
  | cons m rest ih =>
      by_cases hc : l.config.cancelled = true
      · exact Nat.le_trans (drained_le_stock hc) (stock_le _)
      rw [drained]
      cases hm : l.move act chunkSize m with
      | none => exact Nat.zero_le _
      | some k =>
          -- the channel is emptied in a cancelled stream only
          have hdrain : ¬ l.config.phase = .draining := by
            intro hp
            have hbusy : l.config.phase ≠ .idle := fun hidle => nomatch hp.symm.trans hidle
            exact hc (h.cancelled_of_busy hbusy (h.draining hp))
          simpa [hdrain] using ih (h.move hm)

/-! ## Everything about closing -/

/-- **Nobody waits for ever, and closing always ends.**  In every run of any worker
    and any reader:

    * while a request goes on, one of the sides can move;
    * if the worker is obliging, a close that begins now returns, whatever the
      schedule;
    * when a close has returned, the worker has ended and nothing is retained;
    * once the stream is cancelled, the write that is under way can hand over its
      chunk, and every later write of something fails;
    * all in all, a close takes three messages at most out of the channel. -/
theorem close_always_ends (act : Producer σ) (n : Nat) (s : σ) (moves : List Move) (l : Ledger σ)
    (hrun : (Ledger.spawn s).play act (effectiveChunkSize n) moves = some l) :
    (l.config.phase ≠ .idle → ∃ c, Moves act (effectiveChunkSize n) l.config c)
      ∧ (Obliging act (effectiveChunkSize n) s → l.config.phase = .idle →
        ∃ k, l.move act (effectiveChunkSize n) (.ask .close) = some k
          ∧ Inevitable act (effectiveChunkSize n) Shut k.config)
      ∧ (l.config.closedByCaller = true → l.config.phase = .idle → Shut l.config)
      ∧ (l.config.cancelled = true → ∀ more l',
        l.play act (effectiveChunkSize n) more = some l' →
          ∃ last later, l'.writes = l.writes ++ last ++ later ∧ Parting l l' last
            ∧ ∀ w ∈ later, w.1 ≠ [] → w.2 = .brokenPipe)
      ∧ drained act (effectiveChunkSize n) (Ledger.spawn s) moves ≤ 3 := by
  have h : Coherent l.config := (Coherent.spawn s).play hrun
  refine ⟨h.unstuck, ?_, h.shut, fun hc more l' hp => Ledger.play_cancelled hp hc,
    drained_le (Coherent.spawn s)⟩
  intro hob hidle
  have hserved := (Served.spawn s).play (Coherent.spawn s) hrun
  have hacc : Acc (Turn act (effectiveChunkSize n) true) (begin l.config .close).worker := by
    rw [(begin_frame l.config .close).1]
    cases hc : l.config.cancelled with
    | false => exact hserved.acc hob hc
    | true =>
        -- the stream is closed already, so its worker has ended
        obtain ⟨t, ht⟩ := (h.shut (h.cancelled hc) hidle).ended
        rw [ht]
        exact Turn.acc_ended t
  exact ⟨_, if_pos hidle, Coherent.inevitable hacc (h.ask hidle .close)
    (begin_close_closedByCaller l.config)⟩

/-- A worker that writes for ever. -/
def endlessScript : Script := .ofOps [.forever [7] [7]]

/-- It waits with a chunk in front of a full channel when the reader closes the
    stream, and fills the channel again as soon as there is room. -/
def eagerWorker : List Move :=
  [.worker, .worker, .worker, .ask .close, .reader, .worker, .reader,
    .worker, .worker, .worker, .worker, .reader, .reader, .reader]

/-- After three moves the worker waits, and a close returns from there.
    In this run it takes three messages out of the channel. -/
theorem close_always_ends_endlessScript :
    (∃ l, (Ledger.spawn endlessScript).play (Script.act 1) (effectiveChunkSize 0)
        (eagerWorker.take 3) = some l
      ∧ workerStep (Script.act 1) (effectiveChunkSize 0) l.config = none
      ∧ ∃ k, l.move (Script.act 1) (effectiveChunkSize 0) (.ask .close) = some k
        ∧ Inevitable (Script.act 1) (effectiveChunkSize 0) Shut k.config)
    ∧ drained (Script.act 1) (effectiveChunkSize 0) (Ledger.spawn endlessScript) eagerWorker
      = 3 := by
  have hproductive : endlessScript.Productive := by
    intro data left hmem
    obtain ⟨rfl, -⟩ := SinkOp.forever.inj (List.mem_singleton.mp hmem)
    exact List.cons_ne_nil 7 []
  refine ⟨⟨_, rfl, rfl, ?_⟩, rfl⟩
  exact (close_always_ends (Script.act 1) 0 endlessScript (eagerWorker.take 3) _ rfl).2.1
    (Script.obliging hproductive) rfl

end Gitwork.Stream
