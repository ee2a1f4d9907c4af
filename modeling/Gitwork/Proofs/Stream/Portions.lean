import Gitwork.Proofs.Stream.Conservation
import Gitwork.Proofs.Stream.Obliging

/-! # What reads get, and what a worker sees, while the stream is open

    Each write of something hands over one chunk, and a read takes from one chunk
    only: as much as it asks for, or all that is left.  `portions` is that rule by
    itself, on a list of chunks and a list of sizes; the pieces that a reader has got
    are the portions of the chunks that were written (`Portioned.play`).

    Nor does the worker learn how fast the reader is.  What it has written, and with
    which outcome, lies on one path through its program (`Recorded.play`), and of two
    runs one has gone further on it than the other (`Path.comparable`). -/

namespace Gitwork.Stream

variable {σ : Type} {act : Producer σ} {chunkSize : Nat} {c c' : Config σ}

/-! ## Portions of chunks -/

/-- What is left of a chunk, if anything is. -/
def remnant : Bytes → List Bytes
  | [] => []
  | b :: rest => [b :: rest]

theorem remnant_of_ne {data : Bytes} (h : data ≠ []) : remnant data = [data] := by
  cases data with
  | nil => exact absurd rfl h
  | cons b rest => rfl

/-- What reads of some sizes get of chunks, and what they leave. -/
def portions : List Bytes → List Nat → List Bytes × List Bytes
  | chunks, [] => ([], chunks)
  | [], _ :: _ => ([], [])
  | chunk :: later, max :: sizes =>
    let (pieces, left) := portions (remnant (chunk.drop max) ++ later) sizes
    (chunk.take max :: pieces, left)

theorem portions_nil (chunks : List Bytes) : portions chunks [] = ([], chunks) := by
  simp only [portions]

/-- Reads that all have got something get the same of more chunks. -/
theorem portions_append {chunks more : List Bytes} {sizes : List Nat}
    (h : (portions chunks sizes).1.length = sizes.length) :
    portions (chunks ++ more) sizes
      = ((portions chunks sizes).1, (portions chunks sizes).2 ++ more) := by
  induction sizes generalizing chunks with
  | nil => simp only [portions_nil]
  | cons max sizes ih =>
      cases chunks with
      | nil => exact nomatch h
      | cons chunk later =>
          have hrest := ih (Nat.succ.inj h)
          rw [List.append_assoc] at hrest
          simp only [List.cons_append, portions, hrest]

/-- One more read takes of the chunk that is left. -/
theorem portions_concat {chunks pieces left : List Bytes} {sizes : List Nat} {chunk : Bytes}
    (h : portions chunks sizes = (pieces, chunk :: left)) (max : Nat) :
    portions chunks (sizes ++ [max])
      = (pieces ++ [chunk.take max], remnant (chunk.drop max) ++ left) := by
  induction sizes generalizing chunks pieces with
  | nil =>
      rw [portions_nil] at h
      obtain ⟨rfl, rfl⟩ := Prod.mk.inj h
      simp only [List.nil_append, portions]
  | cons size sizes ih =>
      cases chunks with
      | nil => exact nomatch (Prod.mk.inj h).2
      -- the first chunk serves this size; the last one is taken from what the others leave
      | cons first later =>
          simp only [portions] at h
          obtain ⟨rfl, hleft⟩ := Prod.mk.inj h
          have hrest := ih (Prod.ext rfl hleft)
          simp only [List.cons_append, portions, hrest]

/-! ## The pieces of a run -/

/-- The chunks that writes have handed over. -/
def chunks (writes : List (Bytes × WriteResult)) : List Bytes :=
  (writes.map writtenPart).filter (· ≠ [])

/-- A read that has returned bytes, with its size. -/
def piece? : Request × Answer → Option (Nat × Bytes)
  | (.read max, .bytes data) => if data = [] then none else some (max, data)
  | _ => none

/-- The reads that have returned bytes. -/
def pieces (served : List (Request × Answer)) : List (Nat × Bytes) := served.filterMap piece?

/-- The books of an open stream, chunk by chunk. -/
structure Portioned (act : Producer σ) (chunkSize : Nat) (l : Ledger σ) : Prop
    extends Balanced act chunkSize l where
  portioned : portions (chunks l.writes) ((pieces l.served).map (·.1))
    = ((pieces l.served).map (·.2),
        remnant (l.config.remainder.drop l.config.offset) ++ remnant (waiting l.config.slot))

theorem Portioned.spawn (s : σ) : Portioned act chunkSize (.spawn s) :=
  { Balanced.spawn s with portioned := rfl }

theorem chunks_append (ws vs : List (Bytes × WriteResult)) :
    chunks (ws ++ vs) = chunks ws ++ chunks vs := by
  simp only [chunks, List.map_append, List.filter_append]

/-- A write gives one chunk, unless it is empty. -/
theorem chunks_singleton (w : Bytes × WriteResult) : chunks [w] = remnant (writtenPart w) := by
  by_cases h : writtenPart w = []
  · simp [chunks, remnant, h]
  · simp [chunks, remnant_of_ne, h]

/-- A move that hands over no chunk and answers nothing of substance leaves the rest as it is. -/
theorem Portioned.same {l l' : Ledger σ} (h : Portioned act chunkSize l)
    (hb : Balanced act chunkSize l') (hchunks : chunks l'.writes = chunks l.writes)
    (hpieces : pieces l'.served = pieces l.served)
    (hkept : remnant (l'.config.remainder.drop l'.config.offset) ++ remnant (waiting l'.config.slot)
      = remnant (l.config.remainder.drop l.config.offset) ++ remnant (waiting l.config.slot)) :
    Portioned act chunkSize l' := by
  refine { hb with portioned := ?_ }
  rw [hchunks, hpieces, hkept]
  exact h.portioned

/-- A worker keeps the portions. -/
theorem Portioned.worker {l : Ledger σ} (h : Portioned act chunkSize l) {c : Config σ}
    (hm : WorkerMove act chunkSize l.config c) : Portioned act chunkSize (l.worked act c) := by
  have hb := h.toBalanced.worker hm
  have hg := h.going hm.not_ended
  have hnone : returning act l.offered l.config = [] →
      chunks (l.writes ++ returning act l.offered l.config) = chunks l.writes := by
    intro hret
    rw [hret, List.append_nil]
  cases hm with
  | emptyWrite hw ha =>
      refine h.same hb ?_ rfl rfl
      have hret : returning act l.offered l.config = [([], .accepted 0)] := by
        simp [returning, hw, ha]
      show chunks (l.writes ++ returning act l.offered l.config) = chunks l.writes
      rw [hret, chunks_append]
      exact List.append_nil _
  | refusedWrite _ _ _ hc => exact absurd (h.uncancelled.symm.trans hc) Bool.false_ne_true
  | beginWrite hw ha hd hc => exact h.same hb (hnone (by simp [returning, hw, ha, hd, hc])) rfl rfl
  | askCancelled hw ha => exact h.same hb (hnone (by simp [returning, hw, ha])) rfl rfl
  | work hw ha => exact h.same hb (hnone (by simp [returning, hw, ha])) rfl rfl
  | finish hw ha => exact h.same hb (hnone (by simp [returning, hw, ha])) rfl rfl
  | panic hw ha => exact h.same hb (hnone (by simp [returning, hw, ha])) rfl rfl
  | loseChunk _ hr => exact absurd (hr.symm.trans hg.receiver) Bool.false_ne_true
  | loseEnd _ hr => exact absurd (hr.symm.trans hg.receiver) Bool.false_ne_true
  | putEnd hw _ hslot =>
      refine h.same hb (hnone (by simp [returning, hw])) rfl ?_
      rw [hslot]
      rfl
  | @putChunk chunk next hw hr hslot =>
      have hret : returning act l.offered l.config = [(l.offered, .accepted chunk.length)] := by
        simp [returning, hw, hr]
      have hpart : writtenPart (l.offered, .accepted chunk.length) = chunk := by
        show l.offered.take chunk.length = chunk
        rw [h.sending chunk next hw, List.length_take]
        exact List.take_eq_take_min.symm
      have hbefore := h.portioned
      rw [hslot, show remnant (waiting none) = [] from rfl, List.append_nil] at hbefore
      refine { hb with portioned := ?_ }
      show portions (chunks (l.writes ++ returning act l.offered l.config))
          ((pieces l.served).map (·.1))
        = ((pieces l.served).map (·.2),
            remnant (l.config.remainder.drop l.config.offset) ++ remnant chunk)
      rw [hret, chunks_append, chunks_singleton, hpart, portions_append, hbefore]
      -- every piece so far came out of the chunks so far
      rw [hbefore, List.length_map, List.length_map]

/-- An answer adds its piece, if it is one. -/
theorem pieces_concat (served : List (Request × Answer)) (x : Request × Answer) :
    pieces (served ++ [x]) = pieces served ++ (piece? x).toList := by
  rw [pieces, List.filterMap_append]
  cases h : piece? x with
  | none => simp [pieces, h]
  | some p => simp [pieces, h]

/-- An answer without bytes is no piece. -/
theorem piece?_none {r : Request} {a : Answer} (h : a.payload = []) : piece? (r, a) = none := by
  cases r with
  | close => rfl
  | read max =>
      cases a with
      | bytes data => exact if_pos h
      | error | closed => rfl

/-- A move of the reader that answers nothing. -/
theorem Portioned.unanswered {l : Ledger σ} (h : Portioned act chunkSize l) {c : Config σ}
    (hb : Balanced act chunkSize (l.heard c)) (hphase : c.phase ≠ .idle)
    (hkept : remnant (c.remainder.drop c.offset) ++ remnant (waiting c.slot)
      = remnant (l.config.remainder.drop l.config.offset) ++ remnant (waiting l.config.slot)) :
    Portioned act chunkSize (l.heard c) := by
  refine h.same hb rfl ?_ hkept
  simp [Ledger.heard, hphase]

/-- An answer without bytes. -/
theorem Portioned.nothing {l : Ledger σ} (h : Portioned act chunkSize l) {c : Config σ} {a : Answer}
    (hb : Balanced act chunkSize (l.heard (c.reply a))) (ha : a.payload = [])
    (hkept : remnant (c.remainder.drop c.offset) ++ remnant (waiting c.slot)
      = remnant (l.config.remainder.drop l.config.offset) ++ remnant (waiting l.config.slot)) :
    Portioned act chunkSize (l.heard (c.reply a)) := by
  refine h.same hb rfl ?_ hkept
  rw [Ledger.heard_reply, pieces_concat, piece?_none ha]
  exact List.append_nil _

/-- A delivery takes the next portion. -/
theorem Portioned.delivery {l : Ledger σ} (h : Portioned act chunkSize l) {max : Nat}
    (hp : l.config.phase = .reading max) (ho : l.config.offset < l.config.remainder.length)
    (hb : Balanced act chunkSize (l.heard (deliver l.config max))) :
    Portioned act chunkSize (l.heard (deliver l.config max)) := by
  obtain ⟨kept, offset, piece, heq, -, hpiece, hcut⟩ := deliver_eq l.config max h.inside
  obtain ⟨hrequest, hmax⟩ := h.reading max hp
  -- something is kept, so the piece is not empty
  have hkept : l.config.remainder.drop l.config.offset ≠ [] :=
    List.ne_nil_of_length_pos (by rw [List.length_drop]; omega)
  have hdrop := eq_drop_of_append hpiece hcut
  have hsome : piece ≠ [] := by
    rw [hpiece]
    exact take_ne_nil hmax hkept
  rw [heq, Ledger.heard_reply] at hb ⊢
  refine { hb with portioned := ?_ }
  have hbefore := h.portioned
  rw [remnant_of_ne hkept] at hbefore
  have hone : (piece? (l.request, .bytes piece)).toList = [(max, piece)] := by
    rw [hrequest, piece?, if_neg hsome]
    rfl
  show portions (chunks l.writes) ((pieces (l.served ++ [(l.request, .bytes piece)])).map (·.1)) = _
  rw [pieces_concat, hone, List.map_append, List.map_append]
  refine (portions_concat hbefore max).trans ?_
  rw [← hpiece, ← hdrop]
  rfl

/-- A reader keeps the portions. -/
theorem Portioned.reader {l : Ledger σ} (h : Portioned act chunkSize l) {c : Config σ}
    (hm : ReaderMove l.config c) : Portioned act chunkSize (l.heard c) := by
  have hb := h.toBalanced.reader hm
  cases hm with
  | deliver hp ho => exact h.delivery hp ho hb
  | seeEnd hp _ hend =>
      -- the end leaves the channel empty, so no bytes are lost with it
      obtain ⟨_, _, hempty, _⟩ := h.end_known hp hend
      exact h.unanswered hb nofun (by rw [hempty]; rfl)
  | seeNothing hp _ hc hr => exact (h.never_nothing hp hc hr).elim
  | takeChunk hp ho _ _ _ hslot =>
      refine h.unanswered hb (by simp [hp]) ?_
      rw [List.drop_eq_nil_of_le ho, hslot]
      exact List.append_nil _
  | takeEnd hp _ _ _ _ hslot => exact h.unanswered hb (by simp [hp]) (by rw [hslot]; rfl)
  | takeError _ _ _ _ _ hslot => exact h.unanswered hb nofun (by rw [hslot]; rfl)
  | missWorker _ _ _ _ _ hslot _ => exact h.unanswered hb nofun (by rw [hslot]; rfl)
  | discard hp _ => exact absurd hp h.unclosing
  | letGo hp _ => exact absurd hp h.unclosing
  | join hp hw =>
      obtain ⟨-, hdue, -⟩ := h.join_due hp hw
      refine h.nothing hb ?_ rfl
      rcases hdue with ⟨rfl, _⟩ | ⟨e, rfl, _⟩
      · rfl
      · rfl

/-- A read keeps the portions. -/
theorem Portioned.ask {l : Ledger σ} (h : Portioned act chunkSize l) (max : Nat)
    (hp : l.config.phase = .idle) :
    Portioned act chunkSize
      ({ l with request := .read max }.heard (begin l.config (.read max))) := by
  have hb := h.toBalanced.ask max hp
  refine h.same hb rfl ?_ ?_
  · rw [h.begin_read max]
    by_cases hmax : max = 0
    · rw [if_pos hmax, Ledger.heard_reply, pieces_concat]
      exact List.append_nil _
    · rw [if_neg hmax]
      simp [Ledger.heard]
  · rw [h.begin_read max]
    by_cases hmax : max = 0
    · rw [if_pos hmax]
      rfl
    · rw [if_neg hmax]
      rfl

/-- The portions fit as long as the caller has not closed the stream. -/
theorem Portioned.play {l l' : Ledger σ} (h : Portioned act chunkSize l) {moves : List Move}
    (hp : l.play act chunkSize moves = some l') (hopen : l'.config.closedByCaller = false) :
    Portioned act chunkSize l' :=
  Ledger.play_open (fun _ _ h hm => h.worker hm) (fun _ _ h hm => h.reader hm)
    (fun _ max h hidle => h.ask max hidle) h hp hopen

/-! ## Chunks of a buffer -/

/-- Data cut into chunks of a size, and a last one that may be shorter. -/
structure Cut (size : Nat) (data : Bytes) (chunks : List Bytes) : Prop where
  joined : chunks.flatten = data
  nonempty : ∀ chunk ∈ chunks, chunk ≠ []
  short : ∀ chunk ∈ chunks, chunk.length ≤ size
  full : ∀ chunk ∈ chunks.dropLast, chunk.length = size

/-- Writes of all of a buffer: each goes on where the last has stopped, until nothing is left. -/
inductive Series : Bytes → List (Bytes × WriteResult) → Prop
  | done : Series [] []
  | more {data : Bytes} {count : Nat} {later : List (Bytes × WriteResult)} : data ≠ [] →
      Series (data.drop count) later → Series data ((data, .accepted count) :: later)

/-- **The writes of a buffer hand it over cut into chunks.** -/
theorem Series.cut {data : Bytes} {writes : List (Bytes × WriteResult)} (h : Series data writes)
    (hsize : 0 < chunkSize)
    (hwrites : ∀ w ∈ writes, w.2 = .accepted (min w.1.length chunkSize)) :
    Cut chunkSize data (chunks writes) := by
  induction h with
  | done => exact ⟨rfl, nofun, nofun, nofun⟩
  | @more data count later hd hlater ih =>
      have hcount : count = min data.length chunkSize :=
        WriteResult.accepted.inj (hwrites _ List.mem_cons_self)
      have hpart : writtenPart (data, .accepted count) = data.take chunkSize := by
        show data.take count = _
        rw [hcount, Nat.min_comm]
        exact List.take_eq_take_min.symm
      have hdrop : data.drop count = data.drop chunkSize := by
        rw [hcount, Nat.min_comm]
        exact List.drop_eq_drop_min.symm
      have hfirst := take_ne_nil hsize hd
      have hchunks : chunks ((data, .accepted count) :: later)
          = data.take chunkSize :: chunks later := by
        rw [← List.singleton_append, chunks_append, chunks_singleton, hpart,
          remnant_of_ne hfirst]
        rfl
      obtain ⟨hjoined, hnonempty, hshort, hfull⟩ :=
        ih fun w hw => hwrites w (List.mem_cons_of_mem _ hw)
      rw [hdrop] at hjoined
      rw [hchunks]
      refine ⟨?_, ?_, ?_, ?_⟩
      · rw [List.flatten_cons, hjoined]
        exact List.take_append_drop chunkSize data
      · exact List.forall_mem_cons.mpr ⟨hfirst, hnonempty⟩
      · exact List.forall_mem_cons.mpr ⟨List.length_take_le _ _, hshort⟩
      · cases hcs : chunks later with
        | nil => exact nofun
        | cons second rest =>
            -- something comes after the first chunk, so that is a full one
            rw [hcs] at hjoined hnonempty hfull
            have hrest : data.drop chunkSize ≠ [] := by
              rw [← hjoined, List.flatten_cons]
              exact List.append_ne_nil_of_left_ne_nil (hnonempty _ List.mem_cons_self) _
            have hlong : chunkSize < data.length :=
              Nat.lt_of_not_le fun hle => hrest (List.drop_eq_nil_of_le hle)
            rw [List.dropLast_cons_cons]
            refine List.forall_mem_cons.mpr ⟨?_, hfull⟩
            rw [List.length_take]
            omega

/-! ## What the worker sees -/

/-- The write of a worker's next operation, and how it ends in an open stream. -/
def note (act : Producer σ) (chunkSize : Nat) (s : σ) : List (Bytes × WriteResult) :=
  match act s with
  | .write data _ => [(data, reply chunkSize false data)]
  | _ => []

/-- A worker gets from one state to another in an open stream, with these writes. -/
inductive Path (act : Producer σ) (chunkSize : Nat) : σ → List (Bytes × WriteResult) → σ → Prop
  | refl (s : σ) : Path act chunkSize s [] s
  | step {s t u : σ} {writes : List (Bytes × WriteResult)} :
      onward act chunkSize false s = some t → Path act chunkSize t writes u →
      Path act chunkSize s (note act chunkSize s ++ writes) u

/-- A path goes one operation further. -/
theorem Path.concat {s t u : σ} {writes : List (Bytes × WriteResult)}
    (h : Path act chunkSize s writes t) (hstep : onward act chunkSize false t = some u) :
    Path act chunkSize s (writes ++ note act chunkSize t) u := by
  induction h with
  | refl t =>
      rw [List.nil_append, ← List.append_nil (note act chunkSize t)]
      exact .step hstep (.refl u)
  | step hfirst _ ih =>
      rw [List.append_assoc]
      exact .step hfirst (ih hstep)

/-- Of two paths from a state, one goes on where the other ends. -/
theorem Path.comparable {s t t' : σ} {writes writes' : List (Bytes × WriteResult)}
    (h : Path act chunkSize s writes t) (h' : Path act chunkSize s writes' t') :
    writes <+: writes' ∨ writes' <+: writes := by
  induction h generalizing writes' with
  | refl s => exact Or.inl List.nil_prefix
  | step hstep _ ih =>
      cases h' with
      | refl => exact Or.inr List.nil_prefix
      | step hstep' hrest' =>
          obtain rfl := Option.some.inj (hstep.symm.trans hstep')
          simpa only [List.prefix_append_right_inj] using ih hrest'

/-- Where a worker stands that was in the state `t` when its last write came back. -/
inductive Halt (act : Producer σ) (chunkSize : Nat) (t : σ) (offered : Bytes) : Worker σ → Prop
  | running : Halt act chunkSize t offered (.running t)
  | sending {next : WriteResult → σ} : act t = .write offered next → offered ≠ [] →
      Halt act chunkSize t offered (.sending (offered.take chunkSize) next)
  | ending (r : Except Error Unit) : Halt act chunkSize t offered (.ending r t)
  | ended : Halt act chunkSize t offered (.ended t)

/-- The writes of an open stream are those on a path of its worker. -/
structure Recorded (act : Producer σ) (chunkSize : Nat) (s : σ) (l : Ledger σ) : Prop
    extends Balanced act chunkSize l where
  path : ∃ t, Path act chunkSize s l.writes t
    ∧ Halt act chunkSize t l.offered l.config.worker

theorem Recorded.spawn (s : σ) : Recorded act chunkSize s (.spawn s) :=
  { Balanced.spawn s with path := ⟨s, .refl s, .running⟩ }

/-- A worker that runs has halted nowhere else. -/
theorem Halt.of_running {t u : σ} {offered : Bytes}
    (h : Halt act chunkSize t offered (.running u)) : t = u := by
  cases h
  rfl

/-- A worker does an operation without the channel. -/
theorem Recorded.steps {s t u : σ} {l : Ledger σ} (h : Recorded act chunkSize s l)
    (hw : l.config.worker = .running t) (hstep : onward act chunkSize false t = some u)
    (hnote : returning act l.offered l.config = note act chunkSize t)
    (hb : Balanced act chunkSize (l.worked act { l.config with worker := .running u })) :
    Recorded act chunkSize s (l.worked act { l.config with worker := .running u }) := by
  obtain ⟨t', hpath, hhalt⟩ := h.path
  rw [hw] at hhalt
  obtain rfl := hhalt.of_running
  refine { hb with path := ⟨u, ?_, .running⟩ }
  show Path act chunkSize s (l.writes ++ returning act l.offered l.config) u
  rw [hnote]
  exact hpath.concat hstep

/-- No write of the worker comes back. -/
theorem Recorded.halts {s : σ} {l l' : Ledger σ} (h : Recorded act chunkSize s l)
    (hb : Balanced act chunkSize l') (hwrites : l'.writes = l.writes)
    (hhalt : ∀ t, Halt act chunkSize t l.offered l.config.worker →
      Halt act chunkSize t l'.offered l'.config.worker) : Recorded act chunkSize s l' := by
  obtain ⟨t, hpath, hthere⟩ := h.path
  exact { hb with path := ⟨t, hwrites ▸ hpath, hhalt t hthere⟩ }

/-- A worker keeps its record. -/
theorem Recorded.worker {s : σ} {l : Ledger σ} (h : Recorded act chunkSize s l) {c : Config σ}
    (hm : WorkerMove act chunkSize l.config c) : Recorded act chunkSize s (l.worked act c) := by
  have hb := h.toBalanced.worker hm
  have hg := h.going hm.not_ended
  have hnone : returning act l.offered l.config = [] →
      l.writes ++ returning act l.offered l.config = l.writes := by
    intro hret
    rw [hret, List.append_nil]
  cases hm with
  | emptyWrite hw ha =>
      exact h.steps hw (by simp [onward, ha, reply]) (by simp [returning, hw, note, ha, reply]) hb
  | refusedWrite _ _ _ hc => exact absurd (h.uncancelled.symm.trans hc) Bool.false_ne_true
  | @beginWrite _ data _ hw ha hd hc =>
      refine h.halts hb (hnone (by simp [returning, hw, ha, hd, hc])) ?_
      intro t hhalt
      rw [hw] at hhalt
      obtain rfl := hhalt.of_running
      have hoffers : (offers act l.config.worker).getD l.offered = data := by
        rw [hw, offers, ha]
        rfl
      show Halt act chunkSize t ((offers act l.config.worker).getD l.offered) _
      rw [hoffers]
      exact .sending ha hd
  | @askCancelled t next hw ha =>
      refine h.steps hw ?_ (by simp [returning, hw, note, ha]) hb
      rw [h.uncancelled]
      simp only [onward, ha]
  | work hw ha => exact h.steps hw (by simp [onward, ha]) (by simp [returning, hw, note, ha]) hb
  | finish hw ha =>
      refine h.halts hb (hnone (by simp [returning, hw, ha])) ?_
      intro t hhalt
      rw [hw] at hhalt
      obtain rfl := hhalt.of_running
      exact .ending _
  | panic hw ha =>
      refine h.halts hb (hnone (by simp [returning, hw, ha])) ?_
      intro t hhalt
      rw [hw] at hhalt
      obtain rfl := hhalt.of_running
      exact .ended
  | loseChunk _ hr => exact absurd (hr.symm.trans hg.receiver) Bool.false_ne_true
  | loseEnd _ hr => exact absurd (hr.symm.trans hg.receiver) Bool.false_ne_true
  | putEnd hw _ _ =>
      refine h.halts hb (hnone (by simp [returning, hw])) ?_
      intro t hhalt
      rw [hw] at hhalt
      cases hhalt with
      | ending => exact .ended
  | @putChunk chunk next hw hr hslot =>
      -- the write comes back with the length of its chunk
      obtain ⟨t, hpath, hhalt⟩ := h.path
      have hret : returning act l.offered l.config = [(l.offered, .accepted chunk.length)] := by
        simp [returning, hw, hr]
      rw [hw] at hhalt
      generalize hoffered : l.offered = offered at hhalt
      cases hhalt with
      | sending ha hd =>
          refine { hb with path := ⟨_, ?_, .running⟩ }
          show Path act chunkSize s (l.writes ++ returning act l.offered l.config) _
          have hnote : returning act l.offered l.config = note act chunkSize t := by
            rw [hret, hoffered]
            simp [note, ha, reply, hd]
          rw [hnote]
          exact hpath.concat (onward_accepted ha hd)

/-- The reader's part is not seen by the worker. -/
theorem Recorded.heard {s : σ} {l : Ledger σ} (h : Recorded act chunkSize s l) {c : Config σ}
    (hb : Balanced act chunkSize (l.heard c)) (hw : c.worker = l.config.worker) :
    Recorded act chunkSize s (l.heard c) :=
  h.halts hb rfl fun _ hhalt => hw ▸ hhalt

/-- **While the stream is open, the worker goes along its path.** -/
theorem Recorded.play {s : σ} {l l' : Ledger σ} (h : Recorded act chunkSize s l)
    {moves : List Move} (hp : l.play act chunkSize moves = some l')
    (hopen : l'.config.closedByCaller = false) : Recorded act chunkSize s l' :=
  Ledger.play_open (fun _ _ h hm => h.worker hm)
    (fun _ _ h hm => h.heard (h.toBalanced.reader hm) hm.frame.1)
    (fun l max h hidle => h.halts (h.toBalanced.ask max hidle) rfl
      fun _ hhalt => (begin_frame l.config (.read max)).1 ▸ hhalt) h hp hopen

end Gitwork.Stream
