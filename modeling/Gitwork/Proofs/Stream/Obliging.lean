import Mathlib.Logic.Relation
import Gitwork.Proofs.Stream.Coherence
import Gitwork.Stream.Script

/-! # Workers that end when they are refused

    `onward` is the next state of a worker, by the answers that it gets in a
    stream that is cancelled, or in one that is not.  A worker is obliging if it
    ends once its writes fail, wherever it has got to before (`Obliging`); a
    script is, unless it writes nothing for ever (`Script.obliging`).

    `Served` says where a worker stands while the stream is not cancelled.  So
    an obliging one has only finitely many moves left when that happens, also
    with a chunk in its hands (`Served.acc`).  The same holds without a cancel of
    a worker that ends by itself (`RunsOut`, `Served.acc_open`). -/

namespace Gitwork.Stream

variable {σ : Type} {act : Producer σ} {chunkSize : Nat} {c c' : Config σ}

/-! ## Workers -/

/-- How a write ends in a stream that is cancelled, and in one that is not. -/
def reply (chunkSize : Nat) (cancelled : Bool) (data : Bytes) : WriteResult :=
  if data = [] then .accepted 0
  else if cancelled then .brokenPipe
  else .accepted (data.take chunkSize).length

/-- Where a worker gets to by its next operation. -/
def onward (act : Producer σ) (chunkSize : Nat) (cancelled : Bool) (s : σ) : Option σ :=
  match act s with
  | .write data next => some (next (reply chunkSize cancelled data))
  | .askCancelled next => some (next cancelled)
  | .work t => some t
  | .finish _ | .panic => none

/-- A worker gets to a state while the stream is not cancelled. -/
def Visits (act : Producer σ) (chunkSize : Nat) : σ → σ → Prop :=
  Relation.ReflTransGen fun s t => onward act chunkSize false s = some t

/-- From this state a worker ends, if the stream is cancelled. -/
def GivesUp (act : Producer σ) (chunkSize : Nat) : σ → Prop :=
  Acc fun t s => onward act chunkSize true s = some t

/-- Wherever it has got to, the worker ends once its writes fail. -/
def Obliging (act : Producer σ) (chunkSize : Nat) (s : σ) : Prop :=
  ∀ t, Visits act chunkSize s t → GivesUp act chunkSize t

/-! ### Moves of a worker, by where it stands -/

/-- A worker that runs does its next operation, begins to send, or ends. -/
theorem WorkerMove.of_running (hm : WorkerMove act chunkSize c c') {s : σ}
    (hw : c.worker = .running s) :
    (∃ t, c'.worker = .running t ∧ onward act chunkSize c.cancelled s = some t)
    ∨ (∃ data next, c.cancelled = false ∧ act s = .write data next ∧ data ≠ []
      ∧ c'.worker = .sending (data.take chunkSize) next)
    ∨ (∃ r, c'.worker = .ending r s) ∨ c'.worker = .ended s := by
  cases hm with
  | emptyWrite hw' ha =>
      obtain rfl := Worker.running.inj (hw.symm.trans hw')
      exact Or.inl ⟨_, rfl, by simp [onward, ha, reply]⟩
  | refusedWrite hw' ha hd hc =>
      obtain rfl := Worker.running.inj (hw.symm.trans hw')
      exact Or.inl ⟨_, rfl, by simp [onward, ha, reply, hd, hc]⟩
  | beginWrite hw' ha hd hc =>
      obtain rfl := Worker.running.inj (hw.symm.trans hw')
      exact Or.inr (Or.inl ⟨_, _, hc, ha, hd, rfl⟩)
  | askCancelled hw' ha =>
      obtain rfl := Worker.running.inj (hw.symm.trans hw')
      exact Or.inl ⟨_, rfl, by simp [onward, ha]⟩
  | work hw' ha =>
      obtain rfl := Worker.running.inj (hw.symm.trans hw')
      exact Or.inl ⟨_, rfl, by simp [onward, ha]⟩
  | finish hw' ha =>
      obtain rfl := Worker.running.inj (hw.symm.trans hw')
      exact Or.inr (Or.inr (Or.inl ⟨_, rfl⟩))
  | panic hw' ha =>
      obtain rfl := Worker.running.inj (hw.symm.trans hw')
      exact Or.inr (Or.inr (Or.inr rfl))
  | loseChunk hw' | putChunk hw' | loseEnd hw' | putEnd hw' => exact nomatch hw.symm.trans hw'

/-- A worker that sends puts its chunk into the channel, or loses it with the reader. -/
theorem WorkerMove.of_sending (hm : WorkerMove act chunkSize c c') {chunk : Bytes}
    {next : WriteResult → σ} (hw : c.worker = .sending chunk next) :
    (c.receiver = false ∧ c' = { c with worker := .running (next .brokenPipe) })
    ∨ (c.receiver = true ∧ c.slot = none ∧ c' = { c with
        slot := some (.chunk chunk), worker := .running (next (.accepted chunk.length)) }) := by
  cases hm with
  | loseChunk hw' hr =>
      obtain ⟨rfl, rfl⟩ := Worker.sending.inj (hw.symm.trans hw')
      exact Or.inl ⟨hr, rfl⟩
  | putChunk hw' hr hs =>
      obtain ⟨rfl, rfl⟩ := Worker.sending.inj (hw.symm.trans hw')
      exact Or.inr ⟨hr, hs, rfl⟩
  | emptyWrite hw' | refusedWrite hw' | beginWrite hw' | askCancelled hw' | work hw' | finish hw'
  | panic hw' | loseEnd hw' | putEnd hw' => exact nomatch hw.symm.trans hw'

/-- A worker that ends has ended. -/
theorem WorkerMove.of_ending (hm : WorkerMove act chunkSize c c') {r : Except Error Unit} {s : σ}
    (hw : c.worker = .ending r s) : c'.worker = .ended s := by
  cases hm with
  | loseEnd hw' | putEnd hw' =>
      obtain ⟨-, rfl⟩ := Worker.ending.inj (hw.symm.trans hw')
      rfl
  | emptyWrite hw' | refusedWrite hw' | beginWrite hw' | askCancelled hw' | work hw' | finish hw'
  | panic hw' | loseChunk hw' | putChunk hw' => exact nomatch hw.symm.trans hw'

/-! ### How many moves a worker has left -/

/-- The worker makes a move in a stream that is cancelled, or in one that is not and whose
    reader holds the channel. -/
def Turn (act : Producer σ) (chunkSize : Nat) (cancelled : Bool) (w' w : Worker σ) : Prop :=
  ∃ c c' : Config σ, (c.cancelled = cancelled ∧ (cancelled = false → c.receiver = true))
    ∧ WorkerMove act chunkSize c c' ∧ c.worker = w ∧ c'.worker = w'

theorem Turn.acc_ended {cancelled : Bool} (s : σ) : Acc (Turn act chunkSize cancelled) (.ended s) := by
  refine Acc.intro _ ?_
  rintro w' ⟨c, c', -, hm, hw, -⟩
  exact absurd hw (hm.not_ended s)

/-- The turn that ends is the last. -/
theorem Turn.acc_ending {cancelled : Bool} (r : Except Error Unit) (s : σ) :
    Acc (Turn act chunkSize cancelled) (.ending r s) := by
  refine Acc.intro _ ?_
  rintro w' ⟨c, c', -, hm, hw, rfl⟩
  rw [hm.of_ending hw]
  exact acc_ended s

/-- Sending takes one turn, whatever becomes of the chunk. -/
theorem Turn.acc_sending {cancelled : Bool} {chunk : Bytes} {next : WriteResult → σ}
    (hlost : cancelled = true → Acc (Turn act chunkSize cancelled) (.running (next .brokenPipe)))
    (hput : Acc (Turn act chunkSize cancelled) (.running (next (.accepted chunk.length)))) :
    Acc (Turn act chunkSize cancelled) (.sending chunk next) := by
  refine Acc.intro _ ?_
  rintro w' ⟨c, c', ⟨-, hheld⟩, hm, hw, rfl⟩
  rcases hm.of_sending hw with ⟨hr, rfl⟩ | ⟨-, -, rfl⟩
  · refine hlost ?_
    -- the chunk is lost only where the reader need not hold the channel
    cases cancelled with
    | true => rfl
    | false => exact absurd ((hheld rfl).symm.trans hr) nofun
  · exact hput

/-- The state after a chunk was handed over. -/
theorem onward_accepted {t : σ} {data : Bytes} {next : WriteResult → σ}
    (ha : act t = .write data next) (hd : data ≠ []) :
    onward act chunkSize false t = some (next (.accepted (data.take chunkSize).length)) := by
  simp [onward, ha, reply, hd]

/-- A worker that runs out of operations runs out of turns. -/
theorem Turn.acc_running {cancelled : Bool} {s : σ}
    (h : Acc (fun t s => onward act chunkSize cancelled s = some t) s) :
    Acc (Turn act chunkSize cancelled) (.running s) := by
  induction h with
  | intro s _ ih =>
      refine Acc.intro _ ?_
      rintro w' ⟨c, c', ⟨hc, -⟩, hm, hw, rfl⟩
      rcases hm.of_running hw with ⟨t, ht, hon⟩ | ⟨data, next, hgoes, ha, hd, hsends⟩ | ⟨r, hr⟩ | hs
      · rw [ht]
        rw [hc] at hon
        exact ih t hon
      · -- a chunk that is sent while nothing is cancelled is accepted
        obtain rfl := hc.symm.trans hgoes
        rw [hsends]
        exact acc_sending nofun (ih _ (onward_accepted ha hd))
      · rw [hr]
        exact acc_ending r s
      · rw [hs]
        exact acc_ended s

/-! ### Where a worker can be -/

/-- Where the worker stands while the stream is not cancelled. -/
structure Served (act : Producer σ) (chunkSize : Nat) (s : σ) (c : Config σ) : Prop where
  running : c.cancelled = false → ∀ t, c.worker = .running t → Visits act chunkSize s t
  sending : c.cancelled = false → ∀ chunk next, c.worker = .sending chunk next →
    ∃ t data, Visits act chunkSize s t ∧ act t = .write data next ∧ data ≠ []
      ∧ chunk = data.take chunkSize

theorem Served.spawn (s : σ) : Served act chunkSize s (.spawn s) where
  running := by
    intro _ t ht
    obtain rfl := Worker.running.inj ht
    exact .refl
  sending := nofun

/-- A worker that is done with its program stands nowhere in it. -/
theorem Served.done {s : σ} (hrunning : ∀ t, c.worker ≠ .running t)
    (hsending : ∀ chunk next, c.worker ≠ .sending chunk next) : Served act chunkSize s c where
  running := fun _ t ht => absurd ht (hrunning t)
  sending := fun _ chunk next hs => absurd hs (hsending chunk next)

/-- A worker is always at a place it visits. -/
theorem Served.worker {s : σ} (h : Served act chunkSize s c) (hco : Coherent c)
    (hm : WorkerMove act chunkSize c c') : Served act chunkSize s c' := by
  have hsame : c'.cancelled = c.cancelled := by
    obtain ⟨_, _, rfl, -⟩ := hm.frame
    rfl
  have hgoes : ¬ c.worker.HasEnded := fun ⟨s, hs⟩ => hm.not_ended s hs
  cases hw : c.worker with
  | running t =>
      rcases hm.of_running hw with ⟨u, hu, hon⟩ | ⟨data, next, -, ha, hd, hu⟩ | ⟨r, hu⟩ | hu
      · refine ⟨?_, fun _ _ _ hs => absurd (hu.symm.trans hs) nofun⟩
        intro hc v hv
        rw [hsame] at hc
        rw [hc] at hon
        obtain rfl := Worker.running.inj (hu.symm.trans hv)
        exact (h.running hc t hw).tail hon
      · refine ⟨fun _ _ hv => absurd (hu.symm.trans hv) nofun, ?_⟩
        intro hc chunk next' hs
        obtain ⟨rfl, rfl⟩ := Worker.sending.inj (hu.symm.trans hs)
        exact ⟨t, data, h.running (hsame ▸ hc) t hw, ha, hd, rfl⟩
      · exact .done (fun _ hv => nomatch hu.symm.trans hv) (fun _ _ hs => nomatch hu.symm.trans hs)
      · exact .done (fun _ hv => nomatch hu.symm.trans hv) (fun _ _ hs => nomatch hu.symm.trans hs)
  | sending chunk next =>
      rcases hm.of_sending hw with ⟨hr, rfl⟩ | ⟨-, -, rfl⟩
      · -- without a cancel, the reader does not let go of a worker that goes on
        refine ⟨fun hc => ?_, fun _ => nofun⟩
        rcases hco.letGo hr with hended | hcancelled
        · exact absurd hended hgoes
        · exact absurd (hcancelled.symm.trans hc) nofun
      · refine ⟨?_, fun _ => nofun⟩
        intro hc u hu
        obtain ⟨t, data, ht, ha, hd, rfl⟩ := h.sending hc chunk next hw
        obtain rfl := Worker.running.inj hu
        exact ht.tail (onward_accepted ha hd)
  | ending r t =>
      have hu := hm.of_ending hw
      exact .done (fun _ hv => nomatch hu.symm.trans hv) (fun _ _ hs => nomatch hu.symm.trans hs)
  | ended t => exact absurd hw (hm.not_ended t)

/-- A reader does not move the worker, and cancels the stream only when it closes it. -/
theorem ReaderMove.frame (hm : ReaderMove c c') :
    c'.worker = c.worker ∧ c'.cancelled = c.cancelled := by
  cases hm with
  | deliver _ ho =>
      obtain ⟨_, _, _, heq, -⟩ := deliver_eq c _ (Nat.le_of_lt ho)
      rw [heq]
      exact ⟨rfl, rfl⟩
  | seeEnd | seeNothing | takeChunk | takeEnd | takeError | missWorker | discard | letGo | join =>
      exact ⟨rfl, rfl⟩

/-- A request does not touch worker and channel, and takes no cancel back. -/
theorem begin_frame (c : Config σ) (r : Request) :
    (begin c r).worker = c.worker ∧ (begin c r).slot = c.slot
      ∧ (c.cancelled = true → (begin c r).cancelled = true) := by
  cases r with
  | read max =>
      simp only [begin]
      split
      · exact ⟨rfl, rfl, id⟩
      · split
        · exact ⟨rfl, rfl, id⟩
        · exact ⟨rfl, rfl, id⟩
  | close =>
      simp only [begin]
      split
      · exact ⟨rfl, rfl, id⟩
      · exact ⟨rfl, rfl, fun _ => rfl⟩

/-- The reader's part does not matter. -/
theorem Served.reader {s : σ} (h : Served act chunkSize s c) (hw : c'.worker = c.worker)
    (hc : c.cancelled = true → c'.cancelled = true) : Served act chunkSize s c' := by
  have hback : c'.cancelled = false → c.cancelled = false := by
    intro hfalse
    cases hcancelled : c.cancelled with
    | false => rfl
    | true => exact absurd ((hc hcancelled).symm.trans hfalse) nofun
  exact ⟨fun hf t ht => h.running (hback hf) t (hw ▸ ht),
    fun hf chunk next hs => h.sending (hback hf) chunk next (hw ▸ hs)⟩

/-- A worker is at a place it visits, whatever is played. -/
theorem Served.play {s : σ} {l l' : Ledger σ} (h : Served act chunkSize s l.config)
    (hco : Coherent l.config) {moves : List Move} (hp : l.play act chunkSize moves = some l') :
    Served act chunkSize s l'.config := by
  refine (Ledger.play_keeps (P := fun c => Served act chunkSize s c ∧ Coherent c)
    ?_ ?_ ?_ ⟨h, hco⟩ hp).1
  · exact fun _ _ ⟨h, hco⟩ hm => ⟨h.worker hco hm, hco.worker hm⟩
  · intro c c' ⟨h, hco⟩ hm
    obtain ⟨hworker, hcancelled⟩ := hm.frame
    exact ⟨h.reader hworker hcancelled.trans, hco.reader hm⟩
  · intro c r ⟨h, hco⟩ hidle
    obtain ⟨hworker, -, hcancelled⟩ := begin_frame c r
    exact ⟨h.reader hworker hcancelled, hco.ask hidle r⟩

/-- An obliging worker ends once the stream is cancelled. -/
theorem Served.acc {s : σ} (h : Served act chunkSize s c) (hob : Obliging act chunkSize s)
    (hc : c.cancelled = false) : Acc (Turn act chunkSize true) c.worker := by
  cases hw : c.worker with
  | running t => exact Turn.acc_running (hob t (h.running hc t hw))
  | sending chunk next =>
      obtain ⟨t, data, ht, ha, hd, rfl⟩ := h.sending hc chunk next hw
      have hlost : GivesUp act chunkSize (next .brokenPipe) :=
        (hob t ht).inv (by simp [onward, ha, reply, hd])
      have hput := hob _ (ht.tail (onward_accepted ha hd))
      exact Turn.acc_sending (fun _ => Turn.acc_running hlost) (Turn.acc_running hput)
  | ending r t => exact Turn.acc_ending r t
  | ended t => exact Turn.acc_ended t

/-- From this state a worker ends by itself, if its writes are accepted. -/
def RunsOut (act : Producer σ) (chunkSize : Nat) : σ → Prop :=
  Acc fun t s => onward act chunkSize false s = some t

theorem RunsOut.visits {s t : σ} (h : RunsOut act chunkSize s) (ht : Visits act chunkSize s t) :
    RunsOut act chunkSize t := by
  induction ht with
  | refl => exact h
  | tail _ hstep ih => exact ih.inv hstep

/-- A worker that ends by itself has finitely many moves left while the stream is open. -/
theorem Served.acc_open {s : σ} (h : Served act chunkSize s c) (hruns : RunsOut act chunkSize s)
    (hc : c.cancelled = false) : Acc (Turn act chunkSize false) c.worker := by
  cases hw : c.worker with
  | running t => exact Turn.acc_running (hruns.visits (h.running hc t hw))
  | sending chunk next =>
      obtain ⟨t, data, ht, ha, hd, rfl⟩ := h.sending hc chunk next hw
      exact Turn.acc_sending nofun
        (Turn.acc_running (hruns.visits (ht.tail (onward_accepted ha hd))))
  | ending r t => exact Turn.acc_ending r t
  | ended t => exact Turn.acc_ended t

/-! ## Scripts -/

/-- A worker gives up if it does one operation later. -/
theorem GivesUp.of_onward {s t : σ} (h : onward act chunkSize true s = some t)
    (ht : GivesUp act chunkSize t) : GivesUp act chunkSize s := by
  refine Acc.intro s ?_
  intro u hu
  obtain rfl := Option.some.inj (h.symm.trans hu)
  exact ht

theorem GivesUp.of_end {s : σ} (h : onward act chunkSize true s = none) :
    GivesUp act chunkSize s :=
  Acc.intro s fun _ ht => nomatch h.symm.trans ht

namespace Script

/-- What it writes for ever is something. -/
def Productive (s : Script) : Prop := ∀ data left, .forever data left ∈ s.todo → data ≠ []

variable {n m : Nat}

theorem givesUp_fail (e : Error) (rest : List SinkOp) (log : List LogEntry) :
    GivesUp (Script.act m) n ⟨.fail e :: rest, log⟩ := .of_end rfl

theorem givesUp_giveUp (rest : List SinkOp) (log : List LogEntry) :
    GivesUp (Script.act m) n ⟨.giveUp :: rest, log⟩ := .of_onward rfl (givesUp_fail brokenPipe [] _)

/-- Scripts whose endless writes have data give up. -/
theorem givesUp (todo : List SinkOp) :
    ∀ log, Productive ⟨todo, log⟩ → GivesUp (Script.act m) n ⟨todo, log⟩ := by
  induction todo with
  | nil => exact fun log _ => .of_end rfl
  | cons op rest ih =>
      intro log h
      have hrest : ∀ log, Productive ⟨rest, log⟩ :=
        fun _ data left hmem => h data left (List.mem_cons_of_mem _ hmem)
      cases op with
      | writeAll data =>
          by_cases hd : data = []
          · exact .of_onward (by simp [onward, Script.act, hd]) (ih log (hrest log))
          · exact .of_onward (by simp [onward, Script.act, hd, reply, afterWrite])
              (givesUp_fail brokenPipe [] log)
      | writeOnce data =>
          by_cases hd : data = []
          · exact .of_onward (by simp [onward, Script.act, hd, reply, afterWrite]; rfl) (ih _ (hrest _))
          · exact .of_onward (by simp [onward, Script.act, hd, reply, afterWrite])
              (givesUp_fail brokenPipe [] log)
      | forever data left =>
          have hdata : data ≠ [] := h data left List.mem_cons_self
          -- a round in progress is refused; an empty one leads to the next round
          have hround : ∀ left, left ≠ [] → GivesUp (Script.act m) n ⟨.forever data left :: rest, log⟩ := by
            intro left hleft
            exact .of_onward (by simp [onward, Script.act, hleft, reply]) (givesUp_giveUp [] log)
          by_cases hleft : left = []
          · exact .of_onward (by simp [onward, Script.act, hleft, reply]) (hround data hdata)
          · exact hround left hleft
      | giveUp => exact givesUp_giveUp rest log
      | flush => exact .of_onward rfl (ih log (hrest log))
      | logChunkSize => exact .of_onward rfl (ih _ (hrest _))
      | fail e => exact givesUp_fail e rest log
      | panic => exact .of_end rfl

/-- What is left to do after a step was to do before, and what is written for ever stays. -/
theorem Productive.onward {s t : Script} (h : Productive s)
    (hstep : onward (Script.act m) n false s = some t) : Productive t := by
  obtain ⟨todo, log⟩ := s
  cases todo with
  | nil => exact nomatch hstep
  | cons op rest =>
      have hrest : ∀ log, Productive ⟨rest, log⟩ :=
        fun _ data left hmem => h data left (List.mem_cons_of_mem _ hmem)
      cases op with
      | writeAll data =>
          by_cases hd : data = []
          · simp only [Stream.onward, Script.act, hd, if_true] at hstep
            exact Option.some.inj hstep ▸ hrest log
          · simp only [Stream.onward, Script.act, hd, if_false, reply, afterWrite] at hstep
            obtain rfl := Option.some.inj hstep
            intro data' left hmem
            rcases List.mem_cons.mp hmem with hhead | htail
            · exact nomatch hhead
            · exact hrest log data' left htail
      | writeOnce data =>
          by_cases hd : data = []
          · simp only [Stream.onward, Script.act, hd, if_true, reply, afterWrite] at hstep
            exact Option.some.inj hstep ▸ hrest _
          · simp only [Stream.onward, Script.act, hd, if_false, reply, afterWrite] at hstep
            exact Option.some.inj hstep ▸ hrest _
      | forever data left =>
          have hround : ∀ left, Productive ⟨.forever data left :: rest, log⟩ := by
            intro _ data' left' hmem
            rcases List.mem_cons.mp hmem with hhead | htail
            · rw [(SinkOp.forever.inj hhead).1]
              exact h data left List.mem_cons_self
            · exact hrest log data' left' htail
          by_cases hleft : left = []
          · simp only [Stream.onward, Script.act, hleft, if_true, reply] at hstep
            exact Option.some.inj hstep ▸ hround _
          · simp only [Stream.onward, Script.act, hleft, if_false, Bool.false_eq_true, reply] at hstep
            exact Option.some.inj hstep ▸ hround _
      | giveUp =>
          obtain rfl := Option.some.inj hstep
          exact fun _ _ hmem => nomatch List.mem_singleton.mp hmem
      | flush => exact Option.some.inj hstep ▸ hrest log
      | logChunkSize => exact Option.some.inj hstep ▸ hrest _
      | fail e => exact nomatch hstep
      | panic => exact nomatch hstep

/-- **A script is obliging, unless it writes nothing for ever.** -/
theorem obliging {s : Script} (h : Productive s) : Obliging (Script.act m) n s := by
  intro t ht
  have hproductive : Productive t := by
    induction ht with
    | refl => exact h
    | tail _ hstep ih => exact ih.onward hstep
  exact givesUp t.todo t.log hproductive

end Script

end Gitwork.Stream
