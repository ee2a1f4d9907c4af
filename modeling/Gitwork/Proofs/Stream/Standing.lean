import Gitwork.Proofs.Stream.Ledger

/-! # Where the two sides of a stream stand

    `Steered` says where the worker and the reader can stand while the reader
    has not closed the stream.  While the worker goes on, the reader holds the
    channel and has seen no end (`Going`); once the worker has ended, `Over`
    lists the five ways in which the reader learns of it.  It speaks of no
    bytes, only of who waits for whom and of what may be answered next.

    A move of either side keeps it (`Steered.worker`, `Steered.reader`), and so
    does the begin of a read (`Steered.ask`). -/

namespace Gitwork.Stream

variable {σ : Type} {act : Producer σ} {chunkSize : Nat}

/-! ## Where the two sides stand -/

/-- The worker has ended with a result. -/
def Finished (act : Producer σ) (c : Config σ) (r : Except Error Unit) : Prop :=
  ∃ s, c.worker = .ended s ∧ act s = .finish r

/-- The worker has died. -/
def Died (act : Producer σ) (c : Config σ) : Prop := ∃ s, c.worker = .ended s ∧ act s = .panic

/-- The error for a worker that died. -/
def lostWorker : Error := .io .unexpectedEof lostWorkerText

/-- The end of the worker that an error of a read tells. -/
def Tells (act : Producer σ) (c : Config σ) (e : Error) : Prop :=
  Finished act c (.error e) ∨ (Died act c ∧ e = lostWorker)

/-- What a reader that waits for the end of the worker may be about to answer. -/
def Due (act : Producer σ) (l : Ledger σ) (a : Answer) : Prop :=
  (a = .bytes [] ∧ (Finished act l.config (.ok ()) ∨ Failed l.served))
    ∨ ∃ e, a = .error e ∧ Tells act l.config e

/-- The reader holds the channel and is not about to let go of it. -/
structure Attached (c : Config σ) : Prop where
  receiver : c.receiver = true
  unclosed : c.state ≠ .closed
  unjoined : ∀ a, c.phase ≠ .joining a

/-- The reader has let go of the channel, and nothing is left. -/
structure Detached (c : Config σ) : Prop where
  receiver : c.receiver = false
  empty : c.slot = none
  usedUp : c.remainder.length ≤ c.offset

/-- The stream while the worker goes on. -/
structure Going (c : Config σ) : Prop extends Attached c where
  unfinished : c.writerDone = false
  midway : ∀ r, c.slot ≠ some (.finished r)

/-- The stream after the worker has ended in the state `s`. -/
inductive Over (act : Producer σ) (l : Ledger σ) (s : σ) : Prop
  /-- Its result waits behind what is left. -/
  | told {r : Except Error Unit} : Attached l.config → l.config.writerDone = false →
      act s = .finish r → l.config.slot = some (.finished r) → Over act l s
  /-- It died, and nothing will come behind what is left. -/
  | died : Attached l.config → l.config.writerDone = false →
      act s = .panic → (∀ r, l.config.slot ≠ some (.finished r)) → Over act l s
  /-- The reader has taken the last message. -/
  | seen : Attached l.config → l.config.writerDone = true →
      act s = .finish (.ok ()) → l.config.slot = none →
      l.config.remainder.length ≤ l.config.offset → Over act l s
  /-- The reader is about to answer. -/
  | joining {a : Answer} {max : Nat} : Detached l.config → l.config.phase = .joining a →
      Due act l a → l.request = .read max → 0 < max → Over act l s
  /-- The reader has answered. -/
  | closed : Detached l.config → l.config.state = .closed → (∀ a, l.config.phase ≠ .joining a) →
      Finished act l.config (.ok ()) ∨ Failed l.served → Over act l s

/-- How the two sides stand while the reader has not closed the stream. -/
structure Steered (act : Producer σ) (l : Ledger σ) : Prop where
  opened : l.config.closedByCaller = false
  uncancelled : l.config.cancelled = false
  inside : l.config.offset ≤ l.config.remainder.length
  unclosing : l.config.phase ≠ .draining
  reading : ∀ max, l.config.phase = .reading max → l.request = .read max ∧ 0 < max
  ending : ∀ r s, l.config.worker = .ending r s → act s = .finish r
  going : (∀ s, l.config.worker ≠ .ended s) → Going l.config
  ended : ∀ s, l.config.worker = .ended s → Over act l s

/-- A stream starts out open, with its worker before its first operation. -/
theorem Steered.spawn (s : σ) : Steered act (.spawn s) where
  opened := rfl
  uncancelled := rfl
  inside := Nat.le_refl 0
  unclosing := nofun
  reading := nofun
  ending := nofun
  going := fun _ => { receiver := rfl, unclosed := nofun, unjoined := nofun, unfinished := rfl,
                      midway := nofun }
  ended := nofun

/-! ### Moves of the worker -/

/-- A worker that goes on as before changes nothing for the reader. -/
theorem Steered.stepped {l : Ledger σ} (h : Steered act l) {w : Worker σ}
    (hbefore : ∀ s, l.config.worker ≠ .ended s) (hafter : ∀ s, w ≠ .ended s)
    (hending : ∀ r s, w = .ending r s → act s = .finish r) :
    Steered act (l.worked act { l.config with worker := w }) where
  opened := h.opened
  uncancelled := h.uncancelled
  inside := h.inside
  unclosing := h.unclosing
  reading := h.reading
  ending := hending
  going := fun _ => { h.going hbefore with }
  ended := fun s hs => absurd hs (hafter s)

/-- A worker keeps the sides as they should stand. -/
theorem Steered.worker {l : Ledger σ} (h : Steered act l) {c : Config σ}
    (hm : WorkerMove act chunkSize l.config c) : Steered act (l.worked act c) := by
  cases hm with
  | emptyWrite hw _ => exact h.stepped (by simp [hw]) nofun nofun
  | refusedWrite hw _ _ _ => exact h.stepped (by simp [hw]) nofun nofun
  | beginWrite hw _ _ _ => exact h.stepped (by simp [hw]) nofun nofun
  | askCancelled hw _ => exact h.stepped (by simp [hw]) nofun nofun
  | work hw _ => exact h.stepped (by simp [hw]) nofun nofun
  | loseChunk hw _ => exact h.stepped (by simp [hw]) nofun nofun
  -- the result it is about to send is what it has returned
  | finish hw ha =>
      refine h.stepped (by simp [hw]) nofun ?_
      intro r s he
      injection he with hr hs
      exact hr ▸ hs ▸ ha
  -- without a result in the channel the worker can only have died
  | panic hw ha =>
      have hg := h.going (by simp [hw])
      refine { h with ending := nofun, going := fun hn => absurd rfl (hn _), ended := ?_ }
      intro s hs
      injection hs with hs
      exact .died { hg with } hg.unfinished (hs ▸ ha) hg.midway
  | loseEnd hw hr =>
      have hg := h.going (by simp [hw])
      exact absurd hg.receiver (by simp [hr])
  | putChunk hw _ _ =>
      have hg := h.going (by simp [hw])
      exact { h with ending := nofun, going := fun _ => { hg with midway := nofun }, ended := nofun }
  | @putEnd r t hw _ _ =>
      have hg := h.going (by simp [hw])
      refine { h with ending := nofun, going := fun hn => absurd rfl (hn _), ended := ?_ }
      intro s hs
      injection hs with hs
      exact .told { hg with } hg.unfinished (hs ▸ h.ending r t hw) rfl

/-! ### Moves of the reader -/

/-- Something that is cut off at the front of data is not empty. -/
theorem take_ne_nil {data : Bytes} {max : Nat} (hmax : 0 < max) (hdata : data ≠ []) :
    data.take max ≠ [] := by
  intro hnil
  rcases List.take_eq_nil_iff.mp hnil with hzero | hempty
  · omega
  · exact hdata hempty

/-- And what is behind it is the rest. -/
theorem eq_drop_of_append {data piece rest : Bytes} {max : Nat} (hpiece : piece = data.take max)
    (hcut : piece ++ rest = data) : rest = data.drop max := by
  rw [hpiece] at hcut
  exact (List.append_right_inj _).mp (hcut.trans (List.take_append_drop max data).symm)

/-- A delivery cuts a piece off what is kept. -/
theorem deliver_eq (c : Config σ) (max : Nat) (h : c.offset ≤ c.remainder.length) :
    ∃ kept offset piece,
      deliver c max = { c with remainder := kept, offset }.reply (.bytes piece)
      ∧ offset ≤ kept.length
      ∧ piece = (c.remainder.drop c.offset).take max
      ∧ piece ++ kept.drop offset = c.remainder.drop c.offset := by
  let piece := (c.remainder.drop c.offset).take max
  have hpiece : piece.length ≤ c.remainder.length - c.offset := by
    rw [List.length_take, List.length_drop]
    exact Nat.min_le_right _ _
  have hrest : piece ++ c.remainder.drop (c.offset + piece.length) = c.remainder.drop c.offset := by
    rw [← List.drop_drop, List.length_take, List.length_drop]
    by_cases hm : max ≤ c.remainder.length - c.offset
    · rw [Nat.min_eq_left hm]
      exact List.take_append_drop max _
    · have hge : c.remainder.length - c.offset ≤ max := by omega
      have hlen : (c.remainder.drop c.offset).length ≤ max := by rwa [List.length_drop]
      rw [Nat.min_eq_right hge, List.drop_drop, List.drop_eq_nil_of_le (by omega), List.append_nil]
      exact List.take_of_length_le hlen
  -- a chunk that is used up is forgotten at once
  by_cases hall : c.offset + piece.length = c.remainder.length
  · refine ⟨[], 0, piece, ?_, Nat.le_refl 0, rfl, ?_⟩
    · exact congrArg (Config.reply · (.bytes piece)) (if_pos hall)
    · rw [hall, List.drop_length] at hrest
      rw [← hrest, List.drop_nil]
  · refine ⟨c.remainder, c.offset + piece.length, piece, ?_, by omega, rfl, hrest⟩
    exact congrArg (Config.reply · (.bytes piece)) (if_neg hall)

/-- A reader that meets the end has a worker that has ended. -/
theorem Steered.has_ended {l : Ledger σ} (h : Steered act l)
    (hend : l.config.writerDone = true ∨ l.config.state = .closed ∨ l.config.receiver = false) :
    ∃ s, l.config.worker = .ended s := by
  by_cases hn : ∃ s, l.config.worker = .ended s
  · exact hn
  · have hg := h.going fun s hs => hn ⟨s, hs⟩
    rcases hend with hd | hc | hr
    · exact absurd hd (by simp [hg.unfinished])
    · exact absurd hc hg.unclosed
    · exact absurd hr (by simp [hg.receiver])

/-- What a reader that looks for a message can know of a worker that has ended. -/
theorem Steered.last_message {l : Ledger σ} (h : Steered act l) {s : σ}
    (hw : l.config.worker = .ended s) (hd : l.config.writerDone = false)
    (hr : l.config.receiver = true) :
    (∃ r, act s = .finish r ∧ l.config.slot = some (.finished r))
      ∨ (act s = .panic ∧ ∀ r, l.config.slot ≠ some (.finished r)) := by
  cases h.ended s hw with
  | told _ _ ha hm => exact .inl ⟨_, ha, hm⟩
  | died _ _ ha hm => exact .inr ⟨ha, hm⟩
  | seen _ hd' _ _ _ => exact absurd hd' (by simp [hd])
  | joining hdt _ _ _ _ => exact absurd hr (by simp [hdt.receiver])
  | closed hdt _ _ _ => exact absurd hr (by simp [hdt.receiver])

/-- A reader that has taken the last message knows the result. -/
theorem Steered.result_told {l : Ledger σ} (h : Steered act l) {r : Except Error Unit}
    (hslot : l.config.slot = some (.finished r)) : Finished act l.config r := by
  by_cases hn : ∃ s, l.config.worker = .ended s
  · obtain ⟨s, hw⟩ := hn
    cases h.ended s hw with
    | told _ _ ha hm =>
        injection hslot.symm.trans hm with hm
        injection hm with hm
        exact ⟨s, hw, hm ▸ ha⟩
    | died _ _ _ hm => exact absurd hslot (hm r)
    | seen _ _ _ he _ => exact absurd (hslot.symm.trans he) nofun
    | joining hdt _ _ _ _ => exact absurd (hslot.symm.trans hdt.empty) nofun
    | closed hdt _ _ _ => exact absurd (hslot.symm.trans hdt.empty) nofun
  · -- as long as the worker goes on there is no result in the channel
    exact absurd hslot ((h.going fun s hs => hn ⟨s, hs⟩).midway r)

/-- A reader that meets the end knows why, and nothing waits. -/
theorem Steered.end_known {l : Ledger σ} (h : Steered act l) {max : Nat}
    (hp : l.config.phase = .reading max)
    (hend : l.config.writerDone = true ∨ l.config.state = .closed) :
    ∃ s, l.config.worker = .ended s ∧ l.config.slot = none
      ∧ (Finished act l.config (.ok ()) ∨ Failed l.served) := by
  obtain ⟨s, hw⟩ := h.has_ended (hend.imp_right .inl)
  cases h.ended s hw with
  | told hat hd _ _ => exact absurd hend (by simp [hd, hat.unclosed])
  | died hat hd _ _ => exact absurd hend (by simp [hd, hat.unclosed])
  | seen _ _ ha he _ => exact ⟨s, hw, he, .inl ⟨s, hw, ha⟩⟩
  | joining _ hp' _ _ _ => exact absurd (hp.symm.trans hp') nofun
  | closed hdt _ _ hend => exact ⟨s, hw, hdt.empty, hend⟩

/-- A reader that has let go of the channel has closed the stream or waits. -/
theorem Steered.never_nothing {l : Ledger σ} (h : Steered act l) {max : Nat}
    (hp : l.config.phase = .reading max) (hs : l.config.state ≠ .closed)
    (hr : l.config.receiver = false) : False := by
  obtain ⟨s, hw⟩ := h.has_ended (.inr (.inr hr))
  cases h.ended s hw with
  | told hat _ _ _ => exact absurd hat.receiver (by simp [hr])
  | died hat _ _ _ => exact absurd hat.receiver (by simp [hr])
  | seen hat _ _ _ _ => exact absurd hat.receiver (by simp [hr])
  | joining _ hp' _ _ _ => exact absurd (hp.symm.trans hp') nofun
  | closed _ hc _ _ => exact hs hc

/-- A reader that waits for the end of the worker has a due answer to a real request. -/
theorem Steered.join_due {l : Ledger σ} (h : Steered act l) {a : Answer} {s : σ}
    (hp : l.config.phase = .joining a) (hw : l.config.worker = .ended s) :
    Detached l.config ∧ Due act l a ∧ ∃ max, l.request = .read max ∧ 0 < max := by
  cases h.ended s hw with
  | told hat _ _ _ => exact absurd hp (hat.unjoined a)
  | died hat _ _ _ => exact absurd hp (hat.unjoined a)
  | seen hat _ _ _ _ => exact absurd hp (hat.unjoined a)
  | closed _ _ hj _ => exact absurd hp (hj a)
  | joining hdt hp' hdue hreq hmax =>
      injection hp.symm.trans hp' with hab
      exact ⟨hdt, hab ▸ hdue, _, hreq, hmax⟩

/-- Letting go of the channel, with an answer that is due. -/
theorem Steered.finished {l : Ledger σ} (h : Steered act l) {max : Nat} {a : Answer} {s : σ}
    (hp : l.config.phase = .reading max) (ho : l.config.remainder.length ≤ l.config.offset)
    (hw : l.config.worker = .ended s) (hdue : Due act l a) :
    Steered act (l.heard (l.config.finish a)) := by
  have hserved : (l.heard (l.config.finish a)).served = l.served := List.append_nil _
  refine { h with
    unclosing := nofun, reading := nofun, going := fun hn => absurd hw (hn s), ended := ?_ }
  intro t ht
  refine .joining (a := a) ⟨rfl, rfl, ho⟩ rfl ?_ (h.reading max hp).1 (h.reading max hp).2
  unfold Due
  rw [hserved]
  exact hdue

/-- A delivery keeps the sides as they should stand. -/
theorem Steered.delivery {l : Ledger σ} (h : Steered act l)
    {max : Nat} (ho : l.config.offset < l.config.remainder.length) :
    Steered act (l.heard (deliver l.config max)) := by
  obtain ⟨kept, offset, piece, heq, hinside, -, -⟩ := deliver_eq l.config max h.inside
  have hsome : ¬ l.config.remainder.length ≤ l.config.offset := Nat.not_le_of_lt ho
  rw [heq]
  refine { h with inside := hinside, unclosing := nofun, reading := nofun, going := ?_, ended := ?_ }
  · intro hn
    exact { h.going hn with unjoined := nofun }
  · intro s hs
    cases h.ended s hs with
    | told hat hd ha hm => exact .told { hat with unjoined := nofun } hd ha hm
    | died hat hd ha hm => exact .died { hat with unjoined := nofun } hd ha hm
    | seen _ _ _ _ hu => exact absurd hu hsome
    | joining hdt _ _ _ _ => exact absurd hdt.usedUp hsome
    | closed hdt _ _ _ => exact absurd hdt.usedUp hsome

/-- A reader keeps the sides as they should stand. -/
theorem Steered.reader {l : Ledger σ} (h : Steered act l) {c : Config σ}
    (hm : ReaderMove l.config c) : Steered act (l.heard c) := by
  cases hm with
  | deliver _ ho => exact h.delivery ho
  | seeEnd hp ho hend =>
      obtain ⟨s, hw, _, hdue⟩ := h.end_known hp hend
      exact h.finished hp ho hw (.inl ⟨rfl, hdue⟩)
  | seeNothing hp _ hs hr =>
      exact (h.never_nothing hp hs hr).elim
  | takeChunk hp _ hd hs hr hslot =>
      have hstate : (if l.config.state = .starting then State.streaming else l.config.state)
          ≠ .closed := by
        split
        · exact nofun
        · exact hs
      have hunjoined : ∀ a, l.config.phase ≠ .joining a :=
        fun a ha => absurd (hp.symm.trans ha) nofun
      refine { h with inside := Nat.zero_le _, going := ?_, ended := ?_ }
      · intro hn
        exact { receiver := hr, unclosed := hstate, unjoined := hunjoined, unfinished := hd,
                midway := nofun }
      · intro s hw
        rcases h.last_message hw hd hr with ⟨r, _, hm⟩ | ⟨ha, _⟩
        · exact absurd (hslot.symm.trans hm) nofun
        · exact .died { receiver := hr, unclosed := hstate, unjoined := hunjoined } hd ha nofun
  | takeEnd hp ho hd _ hr hslot =>
      obtain ⟨s, hw, ha⟩ := h.result_told hslot
      refine { h with going := fun hn => absurd hw (hn s), ended := ?_ }
      intro t ht
      injection hw.symm.trans ht with hst
      exact .seen
        { receiver := hr, unclosed := nofun, unjoined := fun a ha => absurd (hp.symm.trans ha) nofun }
        rfl (hst ▸ ha) rfl ho
  | takeError hp ho _ _ _ hslot =>
      obtain ⟨s, hw, ha⟩ := h.result_told hslot
      exact h.finished hp ho hw (.inr ⟨_, rfl, .inl ⟨s, hw, ha⟩⟩)
  | @missWorker max s hp ho hd _ hr hslot hw =>
      -- nothing waits, so the worker has left no result: it has died
      rcases h.last_message hw hd hr with ⟨r, _, hm⟩ | ⟨ha, _⟩
      · exact absurd (hslot.symm.trans hm) nofun
      · exact h.finished hp ho hw (.inr ⟨_, rfl, .inr ⟨⟨s, hw, ha⟩, rfl⟩⟩)
  | discard hp _ => exact absurd hp h.unclosing
  | letGo hp _ => exact absurd hp h.unclosing
  | join hp hw =>
      obtain ⟨hdt, hdue, -⟩ := h.join_due hp hw
      refine { h with
        unclosing := nofun, reading := nofun, going := fun hn => absurd hw (hn _), ended := ?_ }
      intro t _
      refine .closed { hdt with } rfl nofun ?_
      -- an error that is answered now is one that later requests have behind them
      rcases hdue with ⟨_, hend | ⟨r, e, he⟩⟩ | ⟨e, rfl, _⟩
      · exact .inl hend
      · exact .inr ⟨r, e, List.mem_append_left _ he⟩
      · exact .inr ⟨_, e, List.mem_append_right _ (List.mem_singleton_self _)⟩

/-- Beginning a request, or ending one at once, leaves the end of the worker as it was. -/
theorem Over.asked {l : Ledger σ} {s : σ} (h : Over act l s) (hp : l.config.phase = .idle)
    (r : Request) (phase : Phase) (answers : List Answer) (more : List (Request × Answer))
    (hphase : ∀ a, phase ≠ .joining a) :
    Over act
      { l with
        config := { l.config with phase, answers }, request := r, served := l.served ++ more } s := by
  cases h with
  | told hat hd ha hm => exact .told { hat with unjoined := hphase } hd ha hm
  | died hat hd ha hm => exact .died { hat with unjoined := hphase } hd ha hm
  | seen hat hd ha he hu => exact .seen { hat with unjoined := hphase } hd ha he hu
  | joining _ hp' _ _ _ => exact absurd (hp.symm.trans hp') nofun
  | closed hdt hc _ hend =>
      refine .closed { hdt with } hc hphase ?_
      exact hend.imp_right fun ⟨r, e, he⟩ => ⟨r, e, List.mem_append_left _ he⟩

/-- A read of an open stream begins to read, unless it asks for no bytes. -/
theorem Steered.begin_read {l : Ledger σ} (h : Steered act l) (max : Nat) :
    begin l.config (.read max)
      = if max = 0 then l.config.reply (.bytes []) else { l.config with phase := .reading max } :=
  if_neg (by simp [h.opened])

/-- A read keeps the sides as they should stand. -/
theorem Steered.ask {l : Ledger σ} (h : Steered act l) (max : Nat) (hp : l.config.phase = .idle) :
    Steered act ({ l with request := .read max }.heard (begin l.config (.read max))) := by
  rw [h.begin_read max]
  by_cases hmax : max = 0
  · rw [if_pos hmax]
    exact { h with
      unclosing := nofun
      reading := nofun
      going := fun hn => { h.going hn with unjoined := nofun }
      ended := fun s hs => (h.ended s hs).asked hp _ .idle _ _ nofun }
  · rw [if_neg hmax]
    refine { h with
      unclosing := nofun
      reading := ?_
      going := fun hn => { h.going hn with unjoined := nofun }
      ended := fun s hs => (h.ended s hs).asked hp _ (.reading max) _ _ nofun }
    intro m hm
    injection hm with hm
    exact ⟨hm ▸ rfl, hm ▸ Nat.pos_of_ne_zero hmax⟩

end Gitwork.Stream
