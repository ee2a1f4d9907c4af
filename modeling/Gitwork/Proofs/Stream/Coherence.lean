import Gitwork.Proofs.Stream.Conservation

/-! # Nobody waits for ever

    `Coherent` holds in every configuration of every run, also while the reader
    closes the stream and after that: the reader gives the channel up only
    when the worker has ended or is told to, and waits for the worker only
    when it has given the channel up.

    So the two sides never wait for each other (`Coherent.unstuck`): a reader
    that waits for a message has left the channel empty, and one that waits for
    the end of the worker has let go of it, hence the worker can move. -/

namespace Gitwork.Stream

variable {σ : Type} {act : Producer σ} {chunkSize : Nat} {c c' : Config σ}

def Worker.HasEnded (w : Worker σ) : Prop := ∃ s, w = .ended s

/-- How the two sides stand at all times. -/
structure Coherent (c : Config σ) : Prop where
  empty : c.receiver = false → c.slot = none
  letGo : c.receiver = false → c.worker.HasEnded ∨ c.cancelled = true
  /-- A result is the last that a worker sends. -/
  told : ∀ r, c.slot = some (.finished r) → c.worker.HasEnded
  noted : c.writerDone = true → c.worker.HasEnded
  closed : c.state = .closed →
    c.worker.HasEnded ∧ c.receiver = false ∧ c.remainder.length ≤ c.offset
  joining : ∀ a, c.phase = .joining a → c.receiver = false ∧ c.remainder.length ≤ c.offset
  /-- The reader closes the stream, or has done so. -/
  closing : c.closedByCaller = true → (c.phase = .idle ∧ c.state = .closed)
    ∨ (c.cancelled = true ∧ (c.phase = .draining ∨ ∃ a, c.phase = .joining a))
  draining : c.phase = .draining → c.closedByCaller = true
  cancelled : c.cancelled = true → c.closedByCaller = true

/-- The two sides stand coherently at the start. -/
theorem Coherent.spawn (s : σ) : Coherent (.spawn s) where
  empty := nofun
  letGo := nofun
  told := nofun
  noted := nofun
  closed := nofun
  joining := nofun
  closing := nofun
  draining := nofun
  cancelled := nofun

/-! ## Moves -/

/-- A worker moves itself, and the channel if the reader holds it. -/
theorem WorkerMove.frame (h : WorkerMove act chunkSize c c') :
    ∃ worker slot, c' = { c with worker, slot } ∧ (c.receiver = false → slot = c.slot)
      ∧ ∀ r, slot = some (.finished r) → worker.HasEnded ∨ slot = c.slot := by
  cases h with
  | emptyWrite | refusedWrite | beginWrite | askCancelled | work | finish | panic | loseChunk
  | loseEnd => exact ⟨_, c.slot, rfl, fun _ => rfl, fun _ _ => Or.inr rfl⟩
  | putChunk _ hr _ => exact ⟨_, _, rfl, fun hf => absurd hf (by simp [hr]), nofun⟩
  | putEnd _ hr _ =>
      exact ⟨_, _, rfl, fun hf => absurd hf (by simp [hr]), fun _ _ => Or.inl ⟨_, rfl⟩⟩

/-- A worker keeps the sides coherent. -/
theorem Coherent.worker (h : Coherent c) (hm : WorkerMove act chunkSize c c') : Coherent c' := by
  obtain ⟨worker, slot, rfl, hkept, hlast⟩ := hm.frame
  -- a worker that moves has not ended
  have hgoes : ¬ c.worker.HasEnded := fun ⟨s, hs⟩ => hm.not_ended s hs
  exact {
    empty := fun hr => (hkept hr).trans (h.empty hr)
    letGo := fun hr => Or.inr ((h.letGo hr).resolve_left hgoes)
    told := fun r hr => (hlast r hr).resolve_right fun hs => hgoes (h.told r (hs.symm.trans hr))
    noted := fun hd => absurd (h.noted hd) hgoes
    closed := fun hc => absurd (h.closed hc).1 hgoes
    joining := h.joining
    closing := h.closing
    draining := h.draining
    cancelled := h.cancelled }

/-- A stream that is read from is not closed by its reader. -/
theorem Coherent.opened (h : Coherent c) {max : Nat} (hp : c.phase = .reading max) :
    ¬ c.closedByCaller = true := by
  intro hclosed
  rcases h.closing hclosed with ⟨hidle, -⟩ | ⟨-, hdrain | ⟨a, hjoin⟩⟩
  · exact nomatch hp.symm.trans hidle
  · exact nomatch hp.symm.trans hdrain
  · exact nomatch hp.symm.trans hjoin

/-- A reader that is idle, and has closed the stream, has done so to the end. -/
theorem Coherent.closed_of_idle (h : Coherent c) (hidle : c.phase = .idle)
    (hclosed : c.closedByCaller = true) : c.state = .closed := by
  rcases h.closing hclosed with ⟨-, hs⟩ | ⟨-, hdrain | ⟨a, hjoin⟩⟩
  · exact hs
  · exact nomatch hidle.symm.trans hdrain
  · exact nomatch hidle.symm.trans hjoin

/-- A reader that is not idle, and has closed the stream, is about to do so. -/
theorem Coherent.cancelled_of_busy (h : Coherent c) (hbusy : c.phase ≠ .idle)
    (hclosed : c.closedByCaller = true) : c.cancelled = true := by
  rcases h.closing hclosed with ⟨hidle, -⟩ | ⟨hcancelled, -⟩
  · exact absurd hidle hbusy
  · exact hcancelled

/-- An answer ends a request, and a close only when the stream is closed. -/
theorem Coherent.reply (h : Coherent c) (hclosed : c.closedByCaller = true → c.state = .closed)
    (a : Answer) : Coherent (c.reply a) :=
  { h with
    joining := fun _ hp => by cases hp
    closing := fun hc => Or.inl ⟨rfl, hclosed hc⟩
    draining := fun hp => by cases hp }

/-- A read that meets the end gives the channel up. -/
theorem Coherent.finished (h : Coherent c) {max : Nat} (hp : c.phase = .reading max)
    (hw : c.worker.HasEnded) (ho : c.remainder.length ≤ c.offset) (a : Answer) :
    Coherent (c.finish a) where
  empty := fun _ => rfl
  letGo := fun _ => Or.inl hw
  told := nofun
  noted := fun _ => hw
  closed := fun _ => ⟨hw, rfl, ho⟩
  joining := fun _ _ => ⟨rfl, ho⟩
  closing := fun hc => absurd hc (h.opened hp)
  draining := nofun
  cancelled := h.cancelled

/-- A reader keeps the sides coherent. -/
theorem Coherent.reader (h : Coherent c) (hm : ReaderMove c c') : Coherent c' := by
  cases hm with
  | @deliver max hp ho =>
      obtain ⟨kept, offset, piece, heq, -, -, -⟩ := deliver_eq c max (Nat.le_of_lt ho)
      have hcut : Coherent { c with remainder := kept, offset } :=
        { h with
          closed := fun hc => absurd (h.closed hc).2.2 (Nat.not_le_of_lt ho)
          joining := fun a ha => nomatch hp.symm.trans ha }
      rw [heq]
      exact hcut.reply (fun hc => absurd hc (h.opened hp)) _
  | seeEnd hp ho hend =>
      rcases hend with hd | hc
      · exact h.finished hp (h.noted hd) ho _
      · exact h.finished hp (h.closed hc).1 ho _
  | seeNothing hp => exact h.reply (fun hc => absurd hc (h.opened hp)) _
  | takeChunk hp _ _ hs hr _ =>
      have hstate : ¬ (if c.state = .starting then State.streaming else c.state) = .closed := by
        split
        · exact nofun
        · exact hs
      exact { h with
        empty := fun hf => absurd hf (by simp [hr])
        told := nofun
        closed := fun hc => absurd hc hstate
        joining := fun a ha => nomatch hp.symm.trans ha
        closing := fun hc => absurd hc (h.opened hp) }
  | takeEnd hp _ _ _ hr hslot =>
      exact { h with
        empty := fun _ => rfl
        told := nofun
        noted := fun _ => h.told _ hslot
        closed := nofun
        closing := fun hc => absurd hc (h.opened hp) }
  | takeError hp ho _ _ _ hslot => exact h.finished hp (h.told _ hslot) ho _
  | missWorker hp ho _ _ _ _ hw => exact h.finished hp ⟨_, hw⟩ ho _
  | discard hp _ =>
      exact { h with empty := fun _ => rfl, told := nofun }
  | letGo hp hslot =>
      have hbusy : c.phase ≠ .idle := fun hidle => nomatch hp.symm.trans hidle
      have hcancelled := h.cancelled_of_busy hbusy (h.draining hp)
      exact {
        empty := fun _ => rfl
        letGo := fun _ => Or.inr hcancelled
        told := nofun
        noted := h.noted
        closed := fun hc => ⟨(h.closed hc).1, rfl, Nat.le_refl 0⟩
        joining := fun _ _ => ⟨rfl, Nat.le_refl 0⟩
        closing := fun _ => Or.inr ⟨hcancelled, Or.inr ⟨_, rfl⟩⟩
        draining := nofun
        cancelled := h.cancelled }
  | join hp hw =>
      obtain ⟨hr, ho⟩ := h.joining _ hp
      have hended : Coherent { c with state := .closed } :=
        { h with
          closed := fun _ => ⟨⟨_, hw⟩, hr, ho⟩
          closing := fun hc => (h.closing hc).imp_left fun hi => ⟨hi.1, rfl⟩ }
      exact hended.reply (fun _ => rfl) _

/-- A request keeps the sides coherent. -/
theorem Coherent.ask (h : Coherent c) (hidle : c.phase = .idle) (r : Request) :
    Coherent (begin c r) := by
  cases r with
  | read max =>
      simp only [begin]
      split
      · exact h.reply (h.closed_of_idle hidle) _
      · next hopen =>
          split
          · exact h.reply (fun hc => absurd hc hopen) _
          · exact { h with
              joining := fun _ hp => by cases hp
              closing := fun hc => absurd hc hopen
              draining := fun hp => by cases hp }
  | close =>
      simp only [begin]
      split
      · next hs =>
          have hclosed : Coherent { c with closedByCaller := true } :=
            { h with
              closing := fun _ => Or.inl ⟨hidle, hs⟩
              draining := fun _ => rfl
              cancelled := fun _ => rfl }
          exact hclosed.reply (fun _ => hs) .closed
      · exact { h with
          letGo := fun _ => Or.inr rfl
          joining := fun _ hp => by cases hp
          closing := fun _ => Or.inr ⟨rfl, Or.inl rfl⟩
          draining := fun _ => rfl
          cancelled := fun _ => rfl }

/-! ## Runs -/

theorem Coherent.move {l l' : Ledger σ} (h : Coherent l.config) {m : Move}
    (hm : l.move act chunkSize m = some l') : Coherent l'.config :=
  Ledger.move_keeps (fun _ _ h hm => h.worker hm) (fun _ _ h hm => h.reader hm)
    (fun _ r h hidle => h.ask hidle r) h hm

theorem Coherent.play {l l' : Ledger σ} (h : Coherent l.config) {moves : List Move}
    (hp : l.play act chunkSize moves = some l') : Coherent l'.config :=
  Ledger.play_keeps (fun _ _ h hm => h.worker hm) (fun _ _ h hm => h.reader hm)
    (fun _ r h hidle => h.ask hidle r) h hp

/-! ## Waiting -/

/-- One of the two sides moves. -/
def Moves (act : Producer σ) (chunkSize : Nat) (c c' : Config σ) : Prop :=
  workerStep act chunkSize c = some c' ∨ readerStep c = some c'

/-- A worker waits only while the reader holds the channel and it is full. -/
theorem workerStep_isSome (hgoes : ¬ c.worker.HasEnded)
    (hroom : c.receiver = true → c.slot = none) : (workerStep act chunkSize c).isSome = true := by
  simp only [workerStep]
  cases hw : c.worker with
  | running s =>
      cases ha : act s with
      | write data next =>
          simp only [ha]
          split
          · rfl
          · split <;> rfl
      | askCancelled | work | finish | panic => simp only [ha, Option.isSome_some]
  | sending chunk next =>
      cases hr : c.receiver with
      | false => simp
      | true => simp [hroom hr]
  | ending r s =>
      cases hr : c.receiver with
      | false => simp
      | true => simp [hroom hr]
  | ended s => exact absurd ⟨s, hw⟩ hgoes

/-- A read waits only with nothing left and an empty channel, for a worker that goes on. -/
theorem readStep_waits {max : Nat} (h : readStep c max = none) :
    c.remainder.length ≤ c.offset ∧ c.writerDone = false ∧ c.state ≠ .closed
      ∧ c.receiver = true ∧ c.slot = none ∧ ¬ c.worker.HasEnded := by
  simp only [readStep] at h
  split at h
  · cases h
  next ho =>
    split at h
    · cases h
    next hend =>
      split at h
      · cases h
      next hr =>
        have hgoes : c.writerDone = false ∧ c.state ≠ .closed := by simpa using hend
        refine ⟨Nat.le_of_not_lt ho, hgoes.1, hgoes.2, by simpa using hr, ?_⟩
        rcases hs : c.slot with _ | (data | ⟨e | u⟩)
        · refine ⟨rfl, ?_⟩
          rintro ⟨s, hw⟩
          simp only [hs, hw] at h
          cases h
        all_goals
          simp only [hs] at h
          cases h

/-- **No two sides wait for each other.**  While a request goes on, one of them
    can move. -/
theorem Coherent.unstuck (h : Coherent c) (hbusy : c.phase ≠ .idle) :
    ∃ c', Moves act chunkSize c c' := by
  by_cases hmoves : (readerStep c).isSome = true
  · obtain ⟨c', hc'⟩ := Option.isSome_iff_exists.mp hmoves
    exact ⟨c', Or.inr hc'⟩
  have hworker : (workerStep act chunkSize c).isSome = true := by
    cases hp : c.phase with
    | idle => exact absurd hp hbusy
    | draining =>
        -- emptying the channel never waits
        refine absurd ?_ hmoves
        simp only [readerStep, hp]
        split <;> rfl
    | joining a =>
        have hgoes : ¬ c.worker.HasEnded := by
          rintro ⟨s, hw⟩
          exact hmoves (by simp [readerStep, hp, hw])
        obtain ⟨hr, -⟩ := h.joining a hp
        exact workerStep_isSome hgoes fun htrue => absurd (hr.symm.trans htrue) Bool.false_ne_true
    | reading max =>
        rw [readerStep, hp] at hmoves
        obtain ⟨-, -, -, -, hempty, hgoes⟩ := readStep_waits (Option.not_isSome_iff_eq_none.mp hmoves)
        exact workerStep_isSome hgoes fun _ => hempty
  obtain ⟨c', hc'⟩ := Option.isSome_iff_exists.mp hworker
  exact ⟨c', Or.inl hc'⟩

end Gitwork.Stream
