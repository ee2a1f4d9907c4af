import Gitwork.Proofs.Stream.Standing
import Gitwork.Stream.Script

/-! # No byte is lost, and none is read twice

    The bytes that left the sink are in three places: delivered, kept by the
    reader as the rest of a chunk, or waiting in the channel.  In this order
    they are the bytes put into the channel, at every point of every run in
    which the reader has not closed the stream.

    `Balanced` adds these books to `Steered`; the end of the stream and the
    error of the worker are told when nothing is left in any place.  Each move
    keeps the balance, hence each run does (`Balanced.play`). -/

namespace Gitwork.Stream

variable {σ : Type} {act : Producer σ} {chunkSize : Nat}

/-! ## The books -/

/-- The books of a stream that the reader has not closed. -/
structure Balanced (act : Producer σ) (chunkSize : Nat) (l : Ledger σ) : Prop
    extends Steered act l where
  /-- Delivered, kept, waiting: together, all that was put into the channel. -/
  books : delivered l.served ++ l.config.remainder.drop l.config.offset ++ waiting l.config.slot
    = l.handed
  sending : ∀ chunk next, l.config.worker = .sending chunk next →
    chunk = l.offered.take chunkSize
  writes : ∀ w ∈ l.writes, w.2 = .accepted (min w.1.length chunkSize)
  tally : written l.writes = l.handed
  /-- An empty answer to a real request, without an error before it, comes when
      all is delivered. -/
  sawEnd : ∀ earlier max, l.served = earlier ++ [(.read max, .bytes [])] → 0 < max →
    ¬ Failed earlier → Finished act l.config (.ok ()) ∧ delivered l.served = l.handed
  /-- And so does an error. -/
  sawError : ∀ earlier max e, l.served = earlier ++ [(.read max, .error e)] →
    Tells act l.config e ∧ delivered l.served = l.handed

/-- The books balance at the start. -/
theorem Balanced.spawn (s : σ) : Balanced act chunkSize (.spawn s) :=
  { Steered.spawn s with
    books := rfl
    sending := nofun
    writes := nofun
    tally := rfl
    sawEnd := fun earlier _ he => absurd he.symm (List.append_ne_nil_of_right_ne_nil earlier nofun)
    sawError := fun earlier _ _ he =>
      absurd he.symm (List.append_ne_nil_of_right_ne_nil earlier nofun) }

theorem written_append (ws vs : List (Bytes × WriteResult)) :
    written (ws ++ vs) = written ws ++ written vs := List.flatMap_append

theorem delivered_append (xs ys : List (Request × Answer)) :
    delivered (xs ++ ys) = delivered xs ++ delivered ys := List.flatMap_append

/-- A channel that stays as it is takes nothing in. -/
theorem put_self (slot : Option Message) : put slot slot = [] := by
  cases slot with
  | none => rfl
  | some m => rfl

/-- A worker that moves has not ended. -/
theorem WorkerMove.not_ended {c c' : Config σ} (h : WorkerMove act chunkSize c c') (s : σ) :
    c.worker ≠ .ended s := by
  cases h <;> simp_all

/-- While the worker goes on, nobody has been told of an end. -/
theorem Balanced.untold {l : Ledger σ} (h : Balanced act chunkSize l)
    (hgo : ∀ s, l.config.worker ≠ .ended s) :
    (∀ earlier max, l.served = earlier ++ [(.read max, .bytes [])] → 0 < max → Failed earlier)
      ∧ ∀ earlier max e, l.served ≠ earlier ++ [(.read max, .error e)] := by
  constructor
  · -- an end is told only after the worker has ended
    intro earlier max he hmax
    by_cases hf : Failed earlier
    · exact hf
    · obtain ⟨⟨s, hw, _⟩, _⟩ := h.sawEnd earlier max he hmax hf
      exact absurd hw (hgo s)
  · intro earlier max e he
    obtain ⟨⟨s, hw, _⟩ | ⟨⟨s, hw, _⟩, _⟩, _⟩ := h.sawError earlier max e he
    · exact absurd hw (hgo s)
    · exact absurd hw (hgo s)

/-- A move of the worker that puts no chunk into the channel. -/
theorem Balanced.stepped {l : Ledger σ} (h : Balanced act chunkSize l) {w : Worker σ}
    (hs : Steered act (l.worked act { l.config with worker := w }))
    (hgo : ∀ s, l.config.worker ≠ .ended s)
    (hret : returning act l.offered l.config = []
      ∨ returning act l.offered l.config = [([], .accepted 0)])
    (hsend : ∀ chunk next, w = .sending chunk next →
      chunk = ((offers act l.config.worker).getD l.offered).take chunkSize) :
    Balanced act chunkSize (l.worked act { l.config with worker := w }) where
  toSteered := hs
  books := by
    show _ = l.handed ++ put l.config.slot l.config.slot
    rw [put_self, List.append_nil]
    exact h.books
  sending := hsend
  writes := by
    intro x hx
    rcases List.mem_append.mp hx with hold | hnew
    · exact h.writes x hold
    · rcases hret with hret | hret
      · exact nomatch hret ▸ hnew
      · have hx : x = ([], .accepted 0) := List.mem_singleton.mp (hret ▸ hnew)
        rw [hx]
        exact congrArg _ (Nat.zero_min chunkSize).symm
  tally := by
    show written (l.writes ++ returning act l.offered l.config)
      = l.handed ++ put l.config.slot l.config.slot
    rw [written_append, h.tally, put_self]
    rcases hret with hret | hret
    · rw [hret]; rfl
    · rw [hret]; rfl
  sawEnd := fun earlier max he hmax hf => absurd ((h.untold hgo).1 earlier max he hmax) hf
  sawError := fun earlier max e he => absurd he ((h.untold hgo).2 earlier max e)

/-- A chunk goes into the channel, and its write comes back. -/
theorem Balanced.putChunk {l : Ledger σ} (h : Balanced act chunkSize l)
    {chunk : Bytes} {next : WriteResult → σ} (hw : l.config.worker = .sending chunk next)
    (hr : l.config.receiver = true) (hslot : l.config.slot = none) {c : Config σ}
    (hc : c = { l.config with slot := some (.chunk chunk),
                              worker := .running (next (.accepted chunk.length)) })
    (hs : Steered act (l.worked act c)) :
    Balanced act chunkSize (l.worked act c) := by
  have hgo : ∀ s, l.config.worker ≠ .ended s := by simp [hw]
  have hput : put l.config.slot (some (.chunk chunk)) = chunk := by rw [hslot]; rfl
  have hret : returning act l.offered l.config = [(l.offered, .accepted chunk.length)] := by
    simp [returning, hw, hr]
  have hchunk := h.sending chunk next hw
  subst hc
  exact { hs with
    books := by
      show delivered l.served ++ l.config.remainder.drop l.config.offset ++ chunk
        = l.handed ++ put l.config.slot (some (.chunk chunk))
      have hbooks := h.books
      rw [hslot] at hbooks
      rw [hput, ← hbooks]
      exact congrArg (· ++ chunk) (List.append_nil _).symm
    sending := nofun
    writes := by
      intro x hx
      rcases List.mem_append.mp hx with hold | hnew
      · exact h.writes x hold
      · have hx : x = (l.offered, .accepted chunk.length) := List.mem_singleton.mp (hret ▸ hnew)
        rw [hx, hchunk, List.length_take, Nat.min_comm]
    tally := by
      show written (l.writes ++ returning act l.offered l.config)
        = l.handed ++ put l.config.slot (some (.chunk chunk))
      have hpart : written [(l.offered, .accepted chunk.length)] = chunk := by
        show l.offered.take chunk.length ++ [] = chunk
        rw [List.append_nil, hchunk, List.length_take]
        exact List.take_eq_take_min.symm
      rw [written_append, h.tally, hput, hret, hpart]
    sawEnd := fun earlier max he hmax hf => absurd ((h.untold hgo).1 earlier max he hmax) hf
    sawError := fun earlier max e he => absurd he ((h.untold hgo).2 earlier max e) }

/-- A worker keeps the books balanced. -/
theorem Balanced.worker {l : Ledger σ} (h : Balanced act chunkSize l) {c : Config σ}
    (hm : WorkerMove act chunkSize l.config c) : Balanced act chunkSize (l.worked act c) := by
  have hs := h.toSteered.worker hm
  have hgo := hm.not_ended
  have hg := h.going hgo
  cases hm with
  | emptyWrite hw ha =>
      exact h.stepped hs hgo (.inr (by simp [returning, hw, ha])) nofun
  -- nothing is cancelled before the close, and the channel has its reader
  | refusedWrite _ _ _ hc => exact absurd hc (by simp [h.uncancelled])
  | beginWrite hw ha hd _ =>
      refine h.stepped hs hgo (.inl (by simp [returning, hw, ha, hd, h.uncancelled])) ?_
      intro chunk next he
      injection he with he
      simp [offers, hw, ha, he]
  | askCancelled hw ha => exact h.stepped hs hgo (.inl (by simp [returning, hw, ha])) nofun
  | work hw ha => exact h.stepped hs hgo (.inl (by simp [returning, hw, ha])) nofun
  | finish hw ha => exact h.stepped hs hgo (.inl (by simp [returning, hw, ha])) nofun
  | panic hw ha => exact h.stepped hs hgo (.inl (by simp [returning, hw, ha])) nofun
  | loseChunk _ hr => exact absurd hg.receiver (by simp [hr])
  | loseEnd _ hr => exact absurd hg.receiver (by simp [hr])
  | putChunk hw hr hslot => exact h.putChunk hw hr hslot rfl hs
  | @putEnd r s hw _ hslot =>
      have hput : put l.config.slot (some (.finished r)) = [] := by rw [hslot]; rfl
      -- the result carries no bytes, so the books do not change
      have hret : returning act l.offered l.config = [] := by simp [returning, hw]
      have hbooks := h.books
      rw [hslot] at hbooks
      exact { hs with
        books := by
          show _ = l.handed ++ put l.config.slot (some (.finished r))
          rw [hput, List.append_nil]
          exact hbooks
        sending := nofun
        writes := by
          show ∀ x ∈ l.writes ++ returning act l.offered l.config, _
          rw [hret, List.append_nil]
          exact h.writes
        tally := by
          show written (l.writes ++ returning act l.offered l.config)
            = l.handed ++ put l.config.slot (some (.finished r))
          rw [hret, hput, List.append_nil, List.append_nil]
          exact h.tally
        sawEnd := fun earlier max he hmax hf => absurd ((h.untold hgo).1 earlier max he hmax) hf
        sawError := fun earlier max e he => absurd he ((h.untold hgo).2 earlier max e) }

/-- A move of the reader that answers nothing leaves the books as they were. -/
theorem Balanced.unanswered {l : Ledger σ} (h : Balanced act chunkSize l) {c : Config σ}
    (hs : Steered act (l.heard c)) (hphase : c.phase ≠ .idle)
    (hw : c.worker = l.config.worker)
    (hkept : c.remainder.drop c.offset ++ waiting c.slot
      = l.config.remainder.drop l.config.offset ++ waiting l.config.slot) :
    Balanced act chunkSize (l.heard c) := by
  have heq : l.heard c = { l with config := c } := by simp [Ledger.heard, hphase]
  rw [heq] at hs ⊢
  exact { hs with
    books := by
      show delivered l.served ++ c.remainder.drop c.offset ++ waiting c.slot = l.handed
      rw [List.append_assoc, hkept, ← List.append_assoc]
      exact h.books
    sending := fun chunk next he => h.sending chunk next (hw ▸ he)
    writes := h.writes
    tally := h.tally
    sawEnd := by
      simp only [Finished, hw]
      exact h.sawEnd
    sawError := by
      simp only [Tells, Finished, Died, hw]
      exact h.sawError }

/-- A reply is entered behind what was served before. -/
theorem Ledger.heard_reply (l : Ledger σ) (c : Config σ) (a : Answer) :
    l.heard (c.reply a)
      = { l with config := c.reply a, served := l.served ++ [(l.request, a)] } := rfl

/-- A delivery moves a piece that is not empty from what is kept to what is delivered. -/
theorem Balanced.delivery {l : Ledger σ} (h : Balanced act chunkSize l) {max : Nat}
    (hp : l.config.phase = .reading max) (ho : l.config.offset < l.config.remainder.length)
    (hs : Steered act (l.heard (deliver l.config max))) :
    Balanced act chunkSize (l.heard (deliver l.config max)) := by
  obtain ⟨kept, offset, piece, heq, -, hpiece, hcut⟩ := deliver_eq l.config max h.inside
  -- a piece is never empty, so a delivery is never taken for the end
  have hsome : piece ≠ [] := by
    rw [hpiece]
    exact take_ne_nil (h.reading max hp).2 (List.ne_nil_of_length_pos (by
      rw [List.length_drop]
      omega))
  rw [heq, Ledger.heard_reply] at hs ⊢
  exact { hs with
    books := by
      show delivered (l.served ++ [(l.request, .bytes piece)]) ++ kept.drop offset
        ++ waiting l.config.slot = l.handed
      have hone : delivered [(l.request, .bytes piece)] = piece := List.append_nil piece
      rw [delivered_append, hone, List.append_assoc (delivered l.served), hcut]
      exact h.books
    sending := h.sending
    writes := h.writes
    tally := h.tally
    sawEnd := by
      intro earlier m he
      injection (List.append_singleton_inj.mp he).2 with _ hanswer
      injection hanswer with hempty
      exact absurd hempty hsome
    sawError := by
      intro earlier m e he
      injection (List.append_singleton_inj.mp he).2 with _ hanswer
      exact nomatch hanswer }

/-- The last answer of a request that met the end delivers nothing more. -/
theorem Balanced.joined {l : Ledger σ} (h : Balanced act chunkSize l) {a : Answer} {s : σ}
    (hp : l.config.phase = .joining a) (hw : l.config.worker = .ended s)
    (hs : Steered act (l.heard ({ l.config with state := .closed }.reply a))) :
    Balanced act chunkSize (l.heard ({ l.config with state := .closed }.reply a)) := by
  obtain ⟨hdt, hdue, -⟩ := h.join_due hp hw
  have hpayload : a.payload = [] := by
    rcases hdue with ⟨rfl, _⟩ | ⟨e, rfl, _⟩
    · rfl
    · rfl
  -- nothing is kept and nothing waits
  have hall : delivered l.served = l.handed := by
    have hbooks := h.books
    rw [List.drop_eq_nil_of_le hdt.usedUp, hdt.empty, List.append_nil] at hbooks
    exact (List.append_nil _).symm.trans hbooks
  have hserved : delivered (l.served ++ [(l.request, a)]) = l.handed := by
    have hone : delivered [(l.request, a)] = [] := by
      show a.payload ++ [] = []
      rw [hpayload, List.append_nil]
    rw [delivered_append, hone, List.append_nil, hall]
  rw [Ledger.heard_reply] at hs ⊢
  exact { hs with
    books := by
      show delivered (l.served ++ [(l.request, a)])
        ++ l.config.remainder.drop l.config.offset ++ waiting l.config.slot = l.handed
      rw [hserved, List.drop_eq_nil_of_le hdt.usedUp, hdt.empty, List.append_nil]
      exact List.append_nil _
    sending := h.sending
    writes := h.writes
    tally := h.tally
    sawEnd := by
      intro earlier m he _ hf
      obtain ⟨hinit, hlast⟩ := List.append_singleton_inj.mp he
      injection hlast with _ hanswer
      rcases hdue with ⟨_, hend | hfailed⟩ | ⟨e, hea, _⟩
      · exact ⟨hend, hserved⟩
      · exact absurd (hinit ▸ hfailed) hf
      · exact absurd (hanswer.symm.trans hea) nofun
    sawError := by
      intro earlier m e he
      injection (List.append_singleton_inj.mp he).2 with _ hanswer
      rcases hdue with ⟨hempty, _⟩ | ⟨e', hea, htells⟩
      · exact absurd (hanswer.symm.trans hempty) nofun
      · injection hanswer.symm.trans hea with hee
        exact ⟨hee ▸ htells, hserved⟩ }

/-- A reader keeps the books balanced. -/
theorem Balanced.reader {l : Ledger σ} (h : Balanced act chunkSize l) {c : Config σ}
    (hm : ReaderMove l.config c) : Balanced act chunkSize (l.heard c) := by
  have hs := h.toSteered.reader hm
  cases hm with
  | deliver hp ho => exact h.delivery hp ho hs
  | seeEnd hp _ hend =>
      obtain ⟨s, _, hempty, _⟩ := h.end_known hp hend
      exact h.unanswered hs nofun rfl (by rw [hempty]; rfl)
  | seeNothing hp _ hc hr => exact (h.never_nothing hp hc hr).elim
  | takeChunk hp ho _ _ _ hslot =>
      -- the chunk in the channel becomes what is kept
      refine h.unanswered hs (by simp [hp]) rfl ?_
      rw [List.drop_eq_nil_of_le ho, hslot]
      exact List.append_nil _
  | takeEnd hp _ _ _ _ hslot => exact h.unanswered hs (by simp [hp]) rfl (by rw [hslot]; rfl)
  | takeError _ _ _ _ _ hslot => exact h.unanswered hs nofun rfl (by rw [hslot]; rfl)
  | missWorker _ _ _ _ _ hslot _ => exact h.unanswered hs nofun rfl (by rw [hslot]; rfl)
  | discard hp _ => exact absurd hp h.unclosing
  | letGo hp _ => exact absurd hp h.unclosing
  | join hp hw => exact h.joined hp hw hs

/-- A request of nothing is answered at once; any other one is only begun. -/
theorem Balanced.ask {l : Ledger σ} (h : Balanced act chunkSize l) (max : Nat)
    (hp : l.config.phase = .idle) :
    Balanced act chunkSize
      ({ l with request := .read max }.heard (begin l.config (.read max))) := by
  have hs := h.toSteered.ask max hp
  rw [h.begin_read max] at hs ⊢
  by_cases hmax : max = 0
  · rw [if_pos hmax, Ledger.heard_reply] at hs ⊢
    exact { hs with
      books := by
        show delivered (l.served ++ [(.read max, .bytes [])])
          ++ l.config.remainder.drop l.config.offset ++ waiting l.config.slot = l.handed
        rw [delivered_append]
        exact (congrArg (· ++ _ ++ _) (List.append_nil _)).trans h.books
      sending := h.sending
      writes := h.writes
      tally := h.tally
      sawEnd := by
        -- a read of no bytes says nothing about the end
        intro earlier m he hpos
        injection (List.append_singleton_inj.mp he).2 with hreq _
        injection hreq with hm
        omega
      sawError := by
        intro earlier m e he
        injection (List.append_singleton_inj.mp he).2 with _ hanswer
        exact nomatch hanswer }
  · rw [if_neg hmax] at hs ⊢
    have heq : { l with request := .read max }.heard { l.config with phase := .reading max }
        = { l with request := .read max, config := { l.config with phase := .reading max } } := by
      simp [Ledger.heard]
    rw [heq] at hs ⊢
    exact { hs with
      books := h.books
      sending := h.sending
      writes := h.writes
      tally := h.tally
      sawEnd := h.sawEnd
      sawError := h.sawError }

/-! ## Runs -/

theorem deliver_closedByCaller (c : Config σ) (max : Nat) :
    (deliver c max).closedByCaller = c.closedByCaller := by
  simp only [deliver]
  split <;> rfl

theorem begin_close_closedByCaller (c : Config σ) : (begin c .close).closedByCaller = true := by
  simp only [begin]
  split <;> rfl

/-- A close closes the stream, and nothing else does; nothing opens it again. -/
theorem Ledger.move_closedByCaller {l l' : Ledger σ} {m : Move}
    (hm : l.move act chunkSize m = some l') :
    l'.config.closedByCaller = (l.config.closedByCaller || decide (m = .ask .close)) := by
  cases m with
  | worker =>
      obtain ⟨c, hc, rfl⟩ := Option.map_eq_some_iff.mp hm
      rw [decide_eq_false nofun, Bool.or_false]
      cases workerStep_moves hc <;> rfl
  | reader =>
      obtain ⟨c, hc, rfl⟩ := Option.map_eq_some_iff.mp hm
      -- only a close closes, so a reader's move leaves the mark as it is
      rw [decide_eq_false nofun, Bool.or_false]
      cases readerStep_moves hc with
      | deliver _ _ => exact deliver_closedByCaller _ _
      | _ => rfl
  | ask r =>
      obtain ⟨_, he⟩ := Option.ite_none_right_eq_some.mp hm
      rw [← Option.some.inj he]
      cases r with
      | read max =>
          rw [decide_eq_false nofun, Bool.or_false]
          simp only [Ledger.heard, begin]
          split
          · rfl
          · split <;> rfl
      | close =>
          rw [decide_eq_true rfl, Bool.or_true]
          exact begin_close_closedByCaller l.config

/-- A stream is closed by its caller exactly if the caller asked for it. -/
theorem Ledger.play_closedByCaller {l l' : Ledger σ} {moves : List Move}
    (hp : l.play act chunkSize moves = some l') :
    l'.config.closedByCaller = (l.config.closedByCaller || decide (.ask .close ∈ moves)) := by
  induction moves generalizing l with
  | nil =>
      obtain rfl := Option.some.inj hp
      exact (Bool.or_false _).symm
  | cons m rest ih =>
      obtain ⟨k, hm, hrest⟩ := Option.bind_eq_some_iff.mp hp
      rw [ih hrest, move_closedByCaller hm, Bool.or_assoc, ← Bool.decide_or]
      simp only [List.mem_cons, eq_comm]

/-- What each move of an open stream keeps, every run keeps in which the reader does not
    close the stream. -/
theorem Ledger.play_open {P : Ledger σ → Prop}
    (hworker : ∀ l c, P l → WorkerMove act chunkSize l.config c → P (l.worked act c))
    (hreader : ∀ l c, P l → ReaderMove l.config c → P (l.heard c))
    (hask : ∀ l max, P l → l.config.phase = .idle →
      P ({ l with request := .read max }.heard (begin l.config (.read max))))
    {l l' : Ledger σ} (h : P l) {moves : List Move} (hp : l.play act chunkSize moves = some l')
    (hopen : l'.config.closedByCaller = false) : P l' := by
  induction moves generalizing l with
  | nil => exact Option.some.inj hp ▸ h
  | cons m rest ih =>
      obtain ⟨k, hm, hrest⟩ := Option.bind_eq_some_iff.mp hp
      refine ih ?_ hrest
      cases m with
      | worker =>
          obtain ⟨c, hc, rfl⟩ := Option.map_eq_some_iff.mp hm
          exact hworker l c h (workerStep_moves hc)
      | reader =>
          obtain ⟨c, hc, rfl⟩ := Option.map_eq_some_iff.mp hm
          exact hreader l c h (readerStep_moves hc)
      | ask r =>
          obtain ⟨hidle, he⟩ := Option.ite_none_right_eq_some.mp hm
          obtain rfl := Option.some.inj he
          cases r with
          | read max => exact hask l max h hidle
          | close =>
              -- a stream that is open at the end was open all the time
              have hclosed := Ledger.play_closedByCaller hp
              rw [hopen, decide_eq_true List.mem_cons_self, Bool.or_true] at hclosed
              exact nomatch hclosed

/-- The books balance as long as the caller has not closed the stream. -/
theorem Balanced.play {l l' : Ledger σ} (h : Balanced act chunkSize l) {moves : List Move}
    (hp : l.play act chunkSize moves = some l') (hopen : l'.config.closedByCaller = false) :
    Balanced act chunkSize l' :=
  Ledger.play_open (fun _ _ h hm => h.worker hm) (fun _ _ h hm => h.reader hm)
    (fun _ max h hidle => h.ask max hidle) h hp hopen

/-- **Every byte is delivered once, in order.**  At every point of a run in
    which the reader has not closed the stream, what is delivered, kept and
    waiting is what was put into the channel, and that is what the writes have
    written, each as much as one chunk holds.  An empty answer to a real
    request, without an error before it, tells that the worker has succeeded
    and that all it wrote is delivered; an error tells how the worker ended,
    and comes after all bytes before it. -/
theorem bytes_conserved (act : Producer σ) (n : Nat) (s : σ) (moves : List Move) (l : Ledger σ)
    (hrun : (Ledger.spawn s).play act (effectiveChunkSize n) moves = some l)
    (hopen : l.config.closedByCaller = false) :
    delivered l.served ++ l.config.remainder.drop l.config.offset ++ waiting l.config.slot
        = l.handed
      ∧ (written l.writes = l.handed
        ∧ ∀ w ∈ l.writes, w.2 = .accepted (min w.1.length (effectiveChunkSize n)))
      ∧ (∀ earlier max, l.served = earlier ++ [(.read max, .bytes [])] → 0 < max →
          ¬ Failed earlier →
          Finished act l.config (.ok ()) ∧ delivered l.served = written l.writes)
      ∧ ∀ earlier max e, l.served = earlier ++ [(.read max, .error e)] →
          (Finished act l.config (.error e) ∨ (Died act l.config ∧ e = lostWorker))
            ∧ delivered l.served = l.handed := by
  have h : Balanced act (effectiveChunkSize n) l := (Balanced.spawn s).play hrun hopen
  refine ⟨h.books, ⟨h.tally, h.writes⟩, ?_, h.sawError⟩
  intro earlier max he hmax hf
  obtain ⟨hfin, hall⟩ := h.sawEnd earlier max he hmax hf
  exact ⟨hfin, hall.trans h.tally.symm⟩

/-- A worker that writes three bytes and fails. -/
def failingScript : Script := .ofOps [.writeAll [1, 2, 3], .fail .streamClosed]

/-- A reader that asks for nothing, for one byte, and for more than there is. -/
def unevenReads : List Move :=
  [.ask (.read 0), .worker, .worker, .worker, .ask (.read 1), .reader, .worker, .reader,
    .ask (.read 9), .reader, .worker, .ask (.read 9), .reader, .reader,
    .worker, .worker, .ask (.read 9), .reader, .reader]

theorem bytes_conserved_unevenReads :
    ∃ l, (Ledger.spawn failingScript).play (Script.act 2) (effectiveChunkSize 2) unevenReads
        = some l
      ∧ l.config.closedByCaller = false
      ∧ l.served.map (·.2) = [.bytes [], .bytes [1], .bytes [2], .bytes [3], .error .streamClosed]
      ∧ delivered l.served = l.handed :=
  ⟨_, rfl, rfl, rfl,
    ((bytes_conserved (Script.act 2) 2 failingScript unevenReads _ rfl rfl).2.2.2 _ _ _ rfl).2⟩

end Gitwork.Stream
