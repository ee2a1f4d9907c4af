import Gitwork.Proofs.Stream.Backpressure
import Gitwork.Proofs.Stream.Delivery

/-! # The schedule that a caller runs

    `settle` runs a request by one schedule, with so many steps and no more: the reader
    moves whenever it can, and the worker when the reader waits.  What holds of every run
    holds of it as well, for it is one of them, and it does not break off before the answer
    (`Brisk.settles`):

    * each step of it leaves fewer steps to the answer (`movesLeft`), as long as each
      operation of the worker that writes nothing leaves fewer such operations (`Brisk`);
    * a script that ends by itself does, and so gets along with its budget
      (`Script.brisk`).

    So the answer of `Scripted.read` is one that a run gives (`Scripted.At.read`). -/

namespace Gitwork.Stream

variable {σ : Type} {act : Producer σ} {chunkSize : Nat} {c c' : Config σ}

/-! ## Steps to the answer -/

/-- The steps that a worker takes before its next message is in the channel, at most. -/
def Worker.movesLeft (rank : σ → Nat) : Worker σ → Nat
  | .running s => rank s + 2
  | .sending .. | .ending .. => 1
  | .ended _ => 0

/-- The steps to the answer, if the worker moves only when the reader waits. -/
def movesLeft (rank : σ → Nat) (c : Config σ) : Nat :=
  match c.phase with
  | .idle | .draining => 0
  | .joining _ => 1
  | .reading _ =>
    if c.offset < c.remainder.length then 1
    else if c.writerDone = true ∨ c.state = .closed then 2
    else if c.slot.isSome = true then 3
    else 4 + c.worker.movesLeft rank

/-- An operation that writes nothing leaves fewer of them before the next chunk, and one that
    supplies a chunk does not leave more. -/
structure Brisk (act : Producer σ) (chunkSize : Nat) (rank : σ → Nat) (s : σ) : Prop where
  goesOn : ∀ t u, Visits act chunkSize s t → operate act chunkSize t = .inl u → rank u < rank t
  supplies : ∀ t u data, Visits act chunkSize s t →
    operate act chunkSize t = .inr (.chunk data, u) → rank u ≤ rank t

/-- A worker that is gone on from has written nothing or supplied a chunk. -/
theorem operate_of_onward {s t : σ} (h : onward act chunkSize false s = some t) :
    operate act chunkSize s = .inl t ∨ ∃ data, operate act chunkSize s = .inr (.chunk data, t) := by
  simp only [onward] at h
  simp only [operate]
  cases ha : act s with
  | write data next =>
      simp only [ha] at h ⊢
      obtain rfl := Option.some.inj h
      by_cases hd : data = []
      · exact Or.inl (by simp [reply, hd])
      · exact Or.inr ⟨data.take chunkSize, by simp [reply, hd]⟩
  | askCancelled next | work next =>
      simp only [ha] at h ⊢
      obtain rfl := Option.some.inj h
      exact Or.inl rfl
  | finish | panic =>
      simp only [ha] at h
      cases h

/-- The rank does not rise on the way of a worker. -/
theorem Brisk.rank_le {rank : σ → Nat} {s t : σ} (h : Brisk act chunkSize rank s)
    (ht : Visits act chunkSize s t) : rank t ≤ rank s := by
  induction ht with
  | refl => exact Nat.le_refl _
  | tail hvisits hstep ih =>
      rcases operate_of_onward hstep with hnothing | ⟨data, hchunk⟩
      · exact Nat.le_trans (Nat.le_of_lt (h.goesOn _ _ hvisits hnothing)) ih
      · exact Nat.le_trans (h.supplies _ _ data hvisits hchunk) ih

/-- A reader that moves gets nearer to its answer. -/
theorem ReaderMove.movesLeft_lt {rank : σ → Nat} (hm : ReaderMove c c')
    (hfilled : Filled chunkSize c) (hreads : c.phase ≠ .draining) :
    movesLeft rank c' < movesLeft rank c := by
  cases hm with
  | @deliver max hp ho =>
      obtain ⟨_, _, _, heq, -⟩ := deliver_rest c max ho
      rw [heq]
      simp [movesLeft, Config.reply, hp, ho]
  | seeEnd hp ho hend => simp [movesLeft, Config.finish, hp, Nat.not_lt_of_le ho, hend]
  | seeNothing hp ho _ _ =>
      simp only [movesLeft, Config.reply, hp, Nat.not_lt_of_le ho, if_false]
      split
      · omega
      · split <;> omega
  | @takeChunk _ data hp ho hd hs _ hslot =>
      -- the chunk is not empty, so the next step delivers some of it
      have hdata : 0 < data.length := (hfilled.queued _ hslot).1
      simp [movesLeft, hp, Nat.not_lt_of_le ho, hd, hs, hslot, hdata]
  | takeEnd hp ho hd hs _ hslot => simp [movesLeft, hp, Nat.not_lt_of_le ho, hd, hs, hslot]
  | takeError hp ho hd hs _ hslot =>
      simp [movesLeft, Config.finish, hp, Nat.not_lt_of_le ho, hd, hs, hslot]
  | missWorker hp ho hd hs _ hslot _ =>
      simp only [movesLeft, Config.finish, hp, Nat.not_lt_of_le ho, hd, hs, hslot, if_false,
        Bool.false_eq_true, or_self, Option.isSome_none]
      omega
  | discard hp | letGo hp => exact absurd hp hreads
  | join hp _ => simp [movesLeft, Config.reply, hp]

/-- A reader waits inside a read for a worker that goes on. -/
theorem Coherent.awaits_worker (h : Coherent c) (hopen : c.closedByCaller = false)
    (hbusy : c.phase ≠ .idle) (hwaits : readerStep c = none) :
    ∃ max, c.phase = .reading max ∧ c.remainder.length ≤ c.offset ∧ c.writerDone = false
      ∧ c.state ≠ .closed ∧ c.slot = none ∧ c.receiver = true := by
  cases hp : c.phase with
  | idle => exact absurd hp hbusy
  | draining => exact absurd (hopen.symm.trans (h.draining hp)) Bool.false_ne_true
  -- a reader that joins waits for a worker that has ended already
  | joining a =>
      rcases h.letGo (h.joining a hp).1 with ⟨s, hw⟩ | hcancelled
      · simp [readerStep, hp, hw] at hwaits
      · exact absurd ((h.uncancelled hopen).symm.trans hcancelled) Bool.false_ne_true
  | reading max =>
      rw [readerStep, hp] at hwaits
      obtain ⟨ho, hd, hstate, hr, hslot, -⟩ := readStep_waits hwaits
      exact ⟨max, rfl, ho, hd, hstate, hslot, hr⟩

/-- And when it waits, a worker that moves gets it nearer to its answer. -/
theorem Brisk.movesLeft_lt {rank : σ → Nat} {s : σ} (h : Brisk act chunkSize rank s)
    (hserved : Served act chunkSize s c) (hco : Coherent c) (hopen : c.closedByCaller = false)
    (hbusy : c.phase ≠ .idle) (hwaits : readerStep c = none)
    (hm : WorkerMove act chunkSize c c') : movesLeft rank c' < movesLeft rank c := by
  obtain ⟨max, hp, ho, hd, hstate, hslot, hr⟩ := hco.awaits_worker hopen hbusy hwaits
  have huncancelled := hco.uncancelled hopen
  -- what a move leaves, if it puts nothing into the channel and if it puts something
  have hleft : movesLeft rank c = 4 + c.worker.movesLeft rank := by
    simp [movesLeft, hp, Nat.not_lt_of_le ho, hd, hstate, hslot]
  have hstays : ∀ w, movesLeft rank { c with worker := w } = 4 + w.movesLeft rank := by
    intro w
    simp [movesLeft, hp, Nat.not_lt_of_le ho, hd, hstate, hslot]
  have hputs : ∀ m w, movesLeft rank { c with slot := some m, worker := w } = 3 := by
    intro m w
    simp [movesLeft, hp, Nat.not_lt_of_le ho, hd, hstate]
  have hless : ∀ {t u}, c.worker = .running t → operate act chunkSize t = .inl u →
      movesLeft rank { c with worker := .running u } < movesLeft rank c := by
    intro t u hw hstep
    have hlt := h.goesOn t u (hserved.running huncancelled t hw) hstep
    rw [hleft, hstays, hw]
    simp only [Worker.movesLeft]
    omega
  cases hm with
  | emptyWrite hw ha => exact hless hw (by simp [operate, ha])
  | refusedWrite _ _ _ hc => exact absurd (huncancelled.symm.trans hc) Bool.false_ne_true
  | @askCancelled t next hw ha =>
      have hstep : operate act chunkSize t = .inl (next c.cancelled) := by
        rw [huncancelled]
        simp only [operate, ha]
      exact hless hw hstep
  | work hw ha => exact hless hw (by simp [operate, ha])
  | beginWrite hw | finish hw | panic hw =>
      rw [hleft, hstays, hw]
      simp only [Worker.movesLeft]
      omega
  | loseChunk _ hr' | loseEnd _ hr' => exact absurd (hr.symm.trans hr') (Bool.false_ne_true ∘ Eq.symm)
  | putChunk hw | putEnd hw =>
      rw [hleft, hputs, hw]
      simp only [Worker.movesLeft]
      omega

/-- No more steps than this are left inside a request. -/
theorem Brisk.movesLeft_le {rank : σ → Nat} {s : σ} (h : Brisk act chunkSize rank s)
    (hserved : Served act chunkSize s c) (huncancelled : c.cancelled = false) :
    movesLeft rank c ≤ rank s + 6 := by
  -- the worker is at a place it visits, so its rank is no more than the first one
  have hworker : c.worker.movesLeft rank ≤ rank s + 2 := by
    cases hw : c.worker with
    | running t =>
        have hle := h.rank_le (hserved.running huncancelled t hw)
        simp only [Worker.movesLeft]
        omega
    | sending | ending | ended =>
        simp only [Worker.movesLeft]
        omega
  unfold movesLeft
  split
  · omega
  · omega
  · omega
  · split
    · omega
    · split
      · omega
      · split <;> omega

/-! ## One of the runs -/

/-- A run of two parts is a run of the first part, and of the second from there. -/
theorem Ledger.play_append {l : Ledger σ} (moves more : List Move) :
    l.play act chunkSize (moves ++ more)
      = (l.play act chunkSize moves).bind fun k => k.play act chunkSize more := by
  induction moves generalizing l with
  | nil => rfl
  | cons m rest ih =>
      show (l.move act chunkSize m).bind _ = ((l.move act chunkSize m).bind _).bind _
      rw [Option.bind_assoc]
      exact Option.bind_congr fun k _ => ih

/-- One more move of a run. -/
theorem Ledger.play_concat {l k k' : Ledger σ} {moves : List Move} {m : Move}
    (hp : l.play act chunkSize moves = some k) (hm : k.move act chunkSize m = some k') :
    l.play act chunkSize (moves ++ [m]) = some k' := by
  rw [Ledger.play_append, hp, Option.bind_some]
  exact Option.bind_eq_some_iff.mpr ⟨k', hm, rfl⟩

/-- **Settling a request is a run that gets to its answer**, if it may take the steps. -/
theorem Brisk.settles {rank : σ → Nat} {s : σ} (h : Brisk act chunkSize rank s)
    (hsize : 0 < chunkSize) {moves : List Move} {l : Ledger σ}
    (hp : (Ledger.spawn s).play act chunkSize moves = some l)
    (hreads : ∀ r ∈ asked moves, ∃ max, r = .read max) (fuel : Nat)
    (henough : movesLeft rank l.config ≤ fuel) :
    ∃ more k, (Ledger.spawn s).play act chunkSize (moves ++ more) = some k ∧ asked more = []
      ∧ k.config = settle act chunkSize fuel l.config ∧ k.config.phase = .idle := by
  induction fuel generalizing moves l with
  | zero =>
      refine ⟨[], l, by rwa [List.append_nil], rfl, rfl, ?_⟩
      have hzero := Nat.le_zero.mp henough
      cases hphase : l.config.phase with
      | idle => rfl
      | draining =>
          have hco : Coherent l.config := (Coherent.spawn s).play hp
          have hopen := Ledger.play_reads hp hreads
          exact absurd (hopen.symm.trans (hco.draining hphase)) Bool.false_ne_true
      | joining a => simp [movesLeft, hphase] at hzero
      | reading max =>
          simp only [movesLeft, hphase] at hzero
          split at hzero
          · omega
          · split at hzero
            · omega
            · split at hzero <;> omega
  | succ fuel ih =>
      by_cases hidle : l.config.phase = .idle
      · refine ⟨[], l, by rwa [List.append_nil], rfl, ?_, hidle⟩
        rw [settle, hidle]
      have hco : Coherent l.config := (Coherent.spawn s).play hp
      have hopen := Ledger.play_reads hp hreads
      -- the side whose turn it is moves, and the rest is a run with one step fewer
      have hturn : ∀ {m : Move} {k : Ledger σ}, l.move act chunkSize m = some k → asked [m] = [] →
          movesLeft rank k.config < movesLeft rank l.config →
          settle act chunkSize (fuel + 1) l.config = settle act chunkSize fuel k.config →
          ∃ more k', (Ledger.spawn s).play act chunkSize (moves ++ more) = some k' ∧ asked more = []
            ∧ k'.config = settle act chunkSize (fuel + 1) l.config ∧ k'.config.phase = .idle := by
        intro m k hm hnone hless hsettle
        have hsame : asked (moves ++ [m]) = asked moves := by
          rw [asked_append, hnone, List.append_nil]
        obtain ⟨more, k', hrun, hmore, hconfig, hends⟩ :=
          ih (Ledger.play_concat hp hm) (hsame ▸ hreads) (by omega)
        refine ⟨m :: more, k', ?_, ?_, hsettle ▸ hconfig, hends⟩
        · rwa [List.append_assoc] at hrun
        · exact (asked_append [m] more).trans (by rw [hnone, hmore]; rfl)
      cases hr : readerStep l.config with
      | some c =>
          have hfilled : Filled chunkSize l.config := (Filled.spawn s).play hsize hp
          refine hturn (m := .reader) (k := l.heard c) (by simp [Ledger.move, hr]) rfl ?_ ?_
          · exact (readerStep_moves hr).movesLeft_lt hfilled fun hp' =>
              absurd (hopen.symm.trans (hco.draining hp')) Bool.false_ne_true
          · rw [settle]
            simp only [hr]
            rfl
      | none =>
          have hmoves : ∃ c, Moves act chunkSize l.config c := hco.unstuck hidle
          obtain ⟨c, hworker | hreader⟩ := hmoves
          · have hserved := (Served.spawn s).play (Coherent.spawn s) hp
            refine hturn (m := .worker) (k := l.worked act c) (by simp [Ledger.move, hworker]) rfl ?_ ?_
            · exact h.movesLeft_lt hserved hco hopen hidle hr (workerStep_moves hworker)
            · rw [settle]
              simp only [hr, hworker]
              rfl
          · exact absurd (hr.symm.trans hreader) nofun

/-! ## Scripts -/

namespace Script

variable {n m : Nat} {s t : Script}

/-- A script that ends by itself is not about to write something for ever. -/
theorem not_forever (h : RunsOut (Script.act n) m s) (data left : Bytes) (rest : List SinkOp) :
    s.todo ≠ .forever data left :: rest := by
  induction h generalizing left with
  | intro s _ ih =>
      intro htodo
      have hagain : ∃ left', onward (Script.act n) m false s
          = some ⟨.forever data left' :: rest, s.log⟩ := by
        simp only [onward, Script.act, htodo, reply, Bool.false_eq_true, if_false]
        by_cases hleft : left = []
        · exact ⟨_, by rw [if_pos hleft]⟩
        · exact ⟨_, by rw [if_neg hleft]⟩
      obtain ⟨left', hon⟩ := hagain
      exact ih _ hon left' rfl

/-- The bytes that an operation hands over in one go. -/
def opSize : SinkOp → Nat
  | .writeAll data | .writeOnce data => data.length
  | _ => 0

theorem size_eq (s : Script) : s.size = s.todo.foldl (fun k op => k + opSize op) 0 := rfl

/-- The size of a script is that of its operations. -/
theorem size_cons (op : SinkOp) (rest : List SinkOp) (log : List LogEntry) :
    size ⟨op :: rest, log⟩ = opSize op + size ⟨rest, log⟩ := by
  have hfrom : ∀ (ops : List SinkOp) (k : Nat),
      ops.foldl (fun k op => k + opSize op) k = k + ops.foldl (fun k op => k + opSize op) 0 := by
    intro ops
    induction ops with
    | nil => exact fun k => rfl
    | cons op rest ih =>
        intro k
        rw [List.foldl_cons, List.foldl_cons, ih (k + opSize op), ih (0 + opSize op), Nat.zero_add,
          Nat.add_assoc]
  rw [size_eq, size_eq, List.foldl_cons, hfrom, Nat.zero_add]

/-- The steps that an operation takes without a chunk, at most: a script that gives up has
    another operation to do. -/
def opSteps : SinkOp → Nat
  | .giveUp => 2
  | _ => 1

/-- The steps that a script takes without a chunk, at most. -/
def steps (s : Script) : Nat := s.todo.foldr (fun op k => opSteps op + k) 0

theorem steps_cons (op : SinkOp) (rest : List SinkOp) (log : List LogEntry) :
    steps ⟨op :: rest, log⟩ = opSteps op + steps ⟨rest, log⟩ := rfl

/-- No operation but an endless one takes more than two steps. -/
theorem steps_le (s : Script) : s.steps ≤ 2 * s.todo.length := by
  obtain ⟨todo, log⟩ := s
  induction todo with
  | nil => exact Nat.le_refl 0
  | cons op rest ih =>
      have hop : opSteps op ≤ 2 := by cases op <;> simp [opSteps]
      rw [steps_cons, List.length_cons]
      have hrest : steps ⟨rest, log⟩ ≤ 2 * rest.length := ih
      omega

/-- **What an operation of a script leaves**, if it is not one to be done for ever: fewer steps
    without a chunk, or a chunk of what it had to write. -/
theorem operate_leaves (h : ∀ data left rest, s.todo ≠ .forever data left :: rest) :
    (operate (Script.act n) m s = .inl t → t.steps < s.steps ∧ t.size ≤ s.size)
    ∧ ∀ data, operate (Script.act n) m s = .inr (.chunk data, t) →
      t.steps ≤ s.steps ∧ data.length + t.size ≤ s.size := by
  obtain ⟨todo, log⟩ := s
  -- the log does not count
  have hsize : ∀ rest log', size ⟨rest, log'⟩ = size ⟨rest, log⟩ := fun _ _ => rfl
  have hsteps : ∀ rest log', steps ⟨rest, log'⟩ = steps ⟨rest, log⟩ := fun _ _ => rfl
  cases todo with
  | nil => exact ⟨fun hstep => absurd hstep Sum.inr_ne_inl, fun _ hstep => by cases hstep⟩
  | cons op rest =>
      rw [size_cons, steps_cons]
      cases op with
      | writeAll data =>
          by_cases hd : data = []
          · simp only [operate, Script.act, hd, if_true]
            refine ⟨?_, fun _ hstep => absurd hstep Sum.inl_ne_inr⟩
            rintro ⟨⟩
            simp only [opSteps, opSize]
            omega
          · simp only [operate, Script.act, hd, if_false]
            refine ⟨fun hstep => absurd hstep Sum.inr_ne_inl, ?_⟩
            rintro _ ⟨⟩
            simp only [afterWrite, size_cons, steps_cons, opSteps, opSize, List.length_take,
              List.length_drop]
            omega
      | writeOnce data =>
          by_cases hd : data = []
          · simp only [operate, Script.act, hd, if_true]
            refine ⟨?_, fun _ hstep => absurd hstep Sum.inl_ne_inr⟩
            rintro ⟨⟩
            simp only [afterWrite, hsize rest (_ :: log), hsteps rest (_ :: log), opSteps, opSize]
            omega
          · simp only [operate, Script.act, hd, if_false]
            refine ⟨fun hstep => absurd hstep Sum.inr_ne_inl, ?_⟩
            rintro _ ⟨⟩
            simp only [afterWrite, hsize rest (_ :: log), hsteps rest (_ :: log), opSteps, opSize,
              List.length_take]
            omega
      | forever data left => exact absurd rfl (h data left rest)
      | giveUp =>
          refine ⟨?_, fun _ hstep => absurd hstep Sum.inl_ne_inr⟩
          rintro ⟨⟩
          exact ⟨Nat.lt_of_lt_of_le Nat.one_lt_two (Nat.le_add_right _ _), Nat.zero_le _⟩
      | flush | logChunkSize =>
          refine ⟨?_, fun _ hstep => absurd hstep Sum.inl_ne_inr⟩
          rintro ⟨⟩
          simp only [hsize rest (_ :: log), hsteps rest (_ :: log), opSteps, opSize]
          omega
      | fail | panic => exact ⟨fun hstep => absurd hstep Sum.inr_ne_inl, fun _ hstep => by cases hstep⟩

/-- **A script that ends by itself gets to its chunks within its budget.** -/
theorem brisk (h : RunsOut (Script.act n) m s) : Brisk (Script.act n) m steps s where
  goesOn := fun _ _ ht hstep =>
    ((operate_leaves fun data left rest => not_forever (h.visits ht) data left rest).1 hstep).1
  supplies := fun _ _ data ht hstep =>
    ((operate_leaves fun data left rest => not_forever (h.visits ht) data left rest).2 data hstep).1

/-- And a chunk that it supplies is part of what it has to write. -/
theorem size_supplies {data : Bytes} (h : RunsOut (Script.act n) m s)
    (hx : Supplies (Script.act n) m s (.chunk data) t) : data.length + t.size ≤ s.size := by
  generalize hchunk : Supply.chunk data = x at hx
  induction hx with
  | now hnow =>
      subst hchunk
      exact ((operate_leaves (not_forever h)).2 data hnow).2
  | later hstep _ ih =>
      have hleft := ((operate_leaves (not_forever h)).1 hstep).2
      exact Nat.le_trans (ih (h.inv (onward_of_operate hstep)) hchunk) hleft

end Script

/-! ## The reads of a caller -/

/-- A reader that moves answers, or leaves the answers as they are. -/
theorem ReaderMove.answers (hm : ReaderMove c c') :
    (c'.phase = .idle ∧ ∃ a, c'.answers = a :: c.answers)
      ∨ (c'.phase ≠ .idle ∧ c'.answers = c.answers) := by
  cases hm with
  | @deliver max _ ho =>
      obtain ⟨_, _, piece, heq, -⟩ := deliver_rest c max ho
      rw [heq]
      exact Or.inl ⟨rfl, .bytes piece, rfl⟩
  | seeNothing | join => exact Or.inl ⟨rfl, _, rfl⟩
  | takeChunk hp | takeEnd hp | discard hp =>
      exact Or.inr ⟨fun hidle => (nomatch hp.symm.trans hidle), rfl⟩
  | seeEnd | takeError | missWorker | letGo => exact Or.inr ⟨nofun, rfl⟩

/-- And so does a request that begins. -/
theorem begin_answers (c : Config σ) (r : Request) :
    ((begin c r).phase = .idle ∧ ∃ a, (begin c r).answers = a :: c.answers)
      ∨ ((begin c r).phase ≠ .idle ∧ (begin c r).answers = c.answers) := by
  cases r with
  | read max =>
      simp only [begin]
      split
      · exact Or.inl ⟨rfl, _, rfl⟩
      · split
        · exact Or.inl ⟨rfl, _, rfl⟩
        · exact Or.inr ⟨(by simp), rfl⟩
  | close =>
      simp only [begin]
      split
      · exact Or.inl ⟨rfl, _, rfl⟩
      · exact Or.inr ⟨(by simp), rfl⟩

/-- The answers of a stream are those in its books, the newest first. -/
def Ledger.Told (l : Ledger σ) : Prop := l.config.answers = (l.served.map (·.2)).reverse

/-- What is served is what is answered. -/
theorem Ledger.Told.heard {l : Ledger σ} (h : l.Told)
    (hanswers : (c.phase = .idle ∧ ∃ a, c.answers = a :: l.config.answers)
      ∨ (c.phase ≠ .idle ∧ c.answers = l.config.answers)) : (l.heard c).Told := by
  unfold Ledger.Told at h ⊢
  rcases hanswers with ⟨hidle, a, ha⟩ | ⟨hbusy, hsame⟩
  · simp [Ledger.heard, hidle, ha, h]
  · simp [Ledger.heard, hbusy, hsame, h]

/-- What is served is what is answered, along any run. -/
theorem Ledger.Told.play {l l' : Ledger σ} (h : l.Told) {moves : List Move}
    (hp : l.play act chunkSize moves = some l') : l'.Told := by
  induction moves generalizing l with
  | nil => exact Option.some.inj hp ▸ h
  | cons m rest ih =>
      obtain ⟨k, hm, hrest⟩ := Option.bind_eq_some_iff.mp hp
      refine ih ?_ hrest
      cases m with
      | worker =>
          obtain ⟨c, hc, rfl⟩ := Option.map_eq_some_iff.mp hm
          obtain ⟨_, _, rfl, -⟩ := (workerStep_moves hc).frame
          exact h
      | reader =>
          obtain ⟨c, hc, rfl⟩ := Option.map_eq_some_iff.mp hm
          exact h.heard (readerStep_moves hc).answers
      | ask r =>
          obtain ⟨-, he⟩ := Option.ite_none_right_eq_some.mp hm
          rw [← Option.some.inj he]
          exact Ledger.Told.heard (l := { l with request := r }) h (begin_answers l.config r)

/-- A request that begins and is answered adds one answer to the books. -/
theorem Ledger.play_one {s : σ} {l k : Ledger σ} {moves more : List Move} {r : Request}
    (hrun : (Ledger.spawn s).play act chunkSize moves = some l)
    (hall : (Ledger.spawn s).play act chunkSize (moves ++ .ask r :: more) = some k)
    (hnone : asked more = []) (hbefore : l.config.phase = .idle) (hafter : k.config.phase = .idle) :
    ∃ a, k.served = l.served ++ [(r, a)] ∧ k.config.answers.headD .closed = a := by
  rw [Ledger.play_append, hrun, Option.bind_some] at hall
  obtain ⟨hserved, hasked⟩ := Ledger.play_served hall
  have hthis : asked (.ask r :: more) = [r] := congrArg (r :: ·) hnone
  rw [Ledger.pending, Ledger.pending, if_pos hbefore, if_pos hafter, hthis, List.append_nil,
    List.nil_append] at hasked
  obtain ⟨v, hviews, rfl⟩ := List.map_eq_singleton_iff.mp hasked.symm
  rw [hviews] at hserved
  refine ⟨v.answer, hserved, ?_⟩
  have htold : l.Told := Ledger.Told.play (l := .spawn s) rfl hrun
  have htold : k.Told := htold.play hall
  rw [Ledger.Told, hserved, List.map_append, List.reverse_append] at htold
  rw [htold]
  rfl

/-- What a caller makes of the answer to a read. -/
def Answer.result : Answer → Except Error Bytes
  | .bytes data => .ok data
  | .error e => .error e
  | .closed => .ok []

namespace Scripted

/-- A read serves its request until the answer comes. -/
theorem read_eq (st : Scripted) (max : Nat) :
    st.read max = ((st.serve (.read max)).answer.result, st.serve (.read max)) := by
  simp only [Scripted.read]
  cases (st.serve (.read max)).answer <;> rfl

/-- A stream of a script has come to where a run of reads has, between two requests. -/
structure At (s : Script) (st : Scripted) (l : Ledger Script) : Prop where
  config : st.config = l.config
  idle : l.config.phase = .idle
  sized : 0 < st.chunkSize
  fuelled : s.steps + 6 ≤ st.fuel
  ends : RunsOut (Script.act st.chunkSize) st.chunkSize s
  runs : ∃ moves, (Ledger.spawn s).play (Script.act st.chunkSize) st.chunkSize moves = some l
    ∧ ∀ r ∈ asked moves, ∃ max, r = .read max

/-- At the start nothing was asked. -/
theorem At.spawn {n : Nat} {ops : List SinkOp}
    (h : RunsOut (Script.act (effectiveChunkSize n)) (effectiveChunkSize n) (.ofOps ops)) :
    At (.ofOps ops) (.spawn n ops) (.spawn (.ofOps ops)) where
  config := rfl
  idle := rfl
  sized := effectiveChunkSize_pos n
  fuelled := by
    have hle := Script.steps_le (.ofOps ops)
    simp only [Scripted.spawn, Script.budget]
    omega
  ends := h
  runs := ⟨[], rfl, fun _ hr => absurd hr List.not_mem_nil⟩

/-- **A read gets the answer that a run gives**, and the stream stands at the end of that run. -/
theorem At.read {s : Script} {st : Scripted} {l : Ledger Script} (h : At s st l) (max : Nat) :
    ∃ a k, st.read max = (a.result, { st with config := k.config })
      ∧ At s { st with config := k.config } k ∧ k.served = l.served ++ [(.read max, a)] := by
  obtain ⟨moves, hrun, hreads⟩ := h.runs
  have hbegins : l.move (Script.act st.chunkSize) st.chunkSize (.ask (.read max))
      = some ({ l with request := .read max }.heard (begin l.config (.read max))) := if_pos h.idle
  have hbegun := Ledger.play_concat hrun hbegins
  have hmore : ∀ r ∈ asked (moves ++ [.ask (.read max)]), ∃ max, r = .read max := by
    intro r hr
    rw [asked_append] at hr
    rcases List.mem_append.mp hr with hbefore | hthis
    · exact hreads r hbefore
    · exact ⟨max, List.mem_singleton.mp hthis⟩
  -- the run goes on to the answer
  have hbrisk := Script.brisk h.ends
  have hco := (Coherent.spawn s).play hbegun
  have hserved := (Served.spawn s).play (Coherent.spawn s) hbegun
  have hleft := hbrisk.movesLeft_le hserved (hco.uncancelled (Ledger.play_reads hbegun hmore))
  obtain ⟨more, k, hall, hnone, hconfig, hidle⟩ :=
    hbrisk.settles h.sized hbegun hmore st.fuel (Nat.le_trans hleft h.fuelled)
  have hserve : st.serve (.read max) = { st with config := k.config } := by
    rw [hconfig, Scripted.serve, Stream.serve, h.config]
    rfl
  rw [List.append_assoc] at hall
  obtain ⟨a, hone, hanswer⟩ := Ledger.play_one hrun hall hnone h.idle hidle
  refine ⟨a, k, ?_, ⟨rfl, hidle, h.sized, h.fuelled, h.ends, _, hall, ?_⟩, hone⟩
  · rw [read_eq, hserve, ← hanswer]
    rfl
  · have hsame : asked (moves ++ (.ask (.read max) :: more)) = asked (moves ++ [.ask (.read max)]) := by
      rw [asked_append, asked_append]
      exact congrArg (asked moves ++ .read max :: ·) hnone
    exact fun r hr => hmore r (hsame ▸ hr)

/-- Some reads in a row, and what they get. -/
def reads (st : Scripted) : List Nat → List (Except Error Bytes) × Scripted
  | [] => ([], st)
  | max :: sizes =>
    let (got, st) := st.read max
    let (later, st) := st.reads sizes
    (got :: later, st)

/-- Reads in a row get the answers that a run gives. -/
theorem At.reads {s : Script} {st : Scripted} {l : Ledger Script} (h : At s st l)
    (sizes : List Nat) :
    ∃ later k, st.reads sizes = (later.map (·.2.result), { st with config := k.config })
      ∧ At s { st with config := k.config } k ∧ k.served = l.served ++ later := by
  induction sizes generalizing st l with
  | nil => exact ⟨[], l, by rw [← h.config]; rfl, h.config ▸ h, (List.append_nil _).symm⟩
  | cons max sizes ih =>
      obtain ⟨a, j, hread, hj, hone⟩ := h.read max
      obtain ⟨later, k, hrest, hk, hserved⟩ := ih hj
      refine ⟨(.read max, a) :: later, k, ?_, hk, ?_⟩
      · simp only [Scripted.reads, hread, hrest, List.map_cons]
      · rw [hserved, hone, List.append_assoc]
        rfl

end Scripted

end Gitwork.Stream
