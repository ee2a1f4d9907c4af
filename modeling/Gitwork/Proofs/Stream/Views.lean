import Gitwork.Proofs.Stream.Supply

/-! # Every schedule shows the reader the same

    The two sides of a stream run ahead of each other and wait for each other.
    `Shows` says what a configuration between two requests has to do with a shelf:
    the reader has what lies on the shelf, and the worker, if the stream goes on, is
    ahead of the shelf by nothing, by a chunk, or by its result (`Ahead`).  `Under`
    says the same of a configuration inside a request, up to the answer that the
    request will have.

    * A worker moves and neither changes (`Shows.worker`, `Under.worker`).
    * A reader moves and gets nearer to the answer that the shelf gives
      (`Under.reader`).
    * So the views of a run are those of the shelf (`Stands.play`), whoever moved
      when. -/

namespace Gitwork.Stream

variable {σ : Type} {act : Producer σ} {chunkSize : Nat} {c c' : Config σ}

/-! ## How far the worker is ahead -/

/-- Where a worker stands that has gone on from the state `q` and has not supplied
    anything since. -/
inductive At (act : Producer σ) (chunkSize : Nat) (q : σ) : Worker σ → Prop
  | running {t : σ} : GoesOn act chunkSize q t → At act chunkSize q (.running t)
  | sending {t : σ} {data : Bytes} {next : WriteResult → σ} : GoesOn act chunkSize q t →
      act t = .write data next → data ≠ [] →
      At act chunkSize q (.sending (data.take chunkSize) next)
  | ending {t : σ} {r : Except Error Unit} : GoesOn act chunkSize q t → act t = .finish r →
      At act chunkSize q (.ending r t)
  | died {t : σ} : GoesOn act chunkSize q t → act t = .panic → At act chunkSize q (.ended t)

/-- What the worker has supplied since the state `p`: nothing, or what is in the
    channel. -/
inductive Ahead (act : Producer σ) (chunkSize : Nat) (p : σ) :
    Option Message → Worker σ → Prop
  | level {w : Worker σ} : At act chunkSize p w → Ahead act chunkSize p none w
  | chunk {data : Bytes} {q : σ} {w : Worker σ} : Supplies act chunkSize p (.chunk data) q →
      At act chunkSize q w → Ahead act chunkSize p (some (.chunk data)) w
  | result {r : Except Error Unit} {t : σ} : Supplies act chunkSize p (.finished r) t →
      Ahead act chunkSize p (some (.finished r)) (.ended t)

/-- A result in the channel is what the worker supplies next. -/
theorem Ahead.told {p : σ} {r : Except Error Unit} {w : Worker σ}
    (h : Ahead act chunkSize p (some (.finished r)) w) :
    ∃ t, Supplies act chunkSize p (.finished r) t := by
  cases h with
  | result hx => exact ⟨_, hx⟩

/-- A worker that ended without a result has died. -/
theorem Ahead.lost {p s : σ} (h : Ahead act chunkSize p none (.ended s)) :
    ∃ t, Supplies act chunkSize p .died t := by
  cases h with
  | level hat =>
      cases hat with
      | died hgoes ha =>
          have hstep : operate act chunkSize s = .inr (.died, s) := by simp only [operate, ha]
          exact ⟨s, hgoes.supplies (.now hstep)⟩

/-- The stream goes on, and the reader has taken all that was supplied up to the
    state `p`. -/
structure Ongoing (act : Producer σ) (chunkSize : Nat) (p : σ) (c : Config σ) : Prop where
  uncancelled : c.cancelled = false
  receiver : c.receiver = true
  unfinished : c.writerDone = false
  ahead : Ahead act chunkSize p c.slot c.worker

/-- A worker that only changes where it stands is as far ahead as before. -/
theorem Ahead.stands {p t : σ} {slot : Option Message} {w : Worker σ}
    (h : Ahead act chunkSize p slot (.running t))
    (hat : ∀ q, GoesOn act chunkSize q t → At act chunkSize q w) : Ahead act chunkSize p slot w := by
  cases h with
  | level hrun =>
      cases hrun with
      | running hgoes => exact .level (hat _ hgoes)
  | chunk hx hrun =>
      cases hrun with
      | running hgoes => exact .chunk hx (hat _ hgoes)

/-- A worker that only changes where it stands leaves the stream as it goes on. -/
theorem Ongoing.stands {p t : σ} {w : Worker σ} (h : Ongoing act chunkSize p c)
    (hw : c.worker = .running t) (hat : ∀ q, GoesOn act chunkSize q t → At act chunkSize q w) :
    Ongoing act chunkSize p { c with worker := w } :=
  { h with ahead := (hw ▸ h.ahead).stands hat }

/-- So does one whose operation supplies nothing. -/
theorem Ongoing.goesOn {p t u : σ} (h : Ongoing act chunkSize p c)
    (hw : c.worker = .running t) (hstep : operate act chunkSize t = .inl u) :
    Ongoing act chunkSize p { c with worker := .running u } :=
  h.stands hw fun _ hgoes => .running (hgoes.tail hstep)

/-- **A worker moves, and nothing changes for the reader.** -/
theorem Ongoing.worker {p : σ} (h : Ongoing act chunkSize p c)
    (hm : WorkerMove act chunkSize c c') : Ongoing act chunkSize p c' := by
  cases hm with
  | emptyWrite hw ha => exact h.goesOn hw (by simp [operate, ha])
  | refusedWrite _ _ _ hc => exact absurd (h.uncancelled.symm.trans hc) Bool.false_ne_true
  | beginWrite hw ha hd _ => exact h.stands hw fun _ hgoes => .sending hgoes ha hd
  | @askCancelled s next hw ha =>
      have hstep : operate act chunkSize s = .inl (next c.cancelled) := by
        rw [h.uncancelled]
        simp only [operate, ha]
      exact h.goesOn hw hstep
  | work hw ha => exact h.goesOn hw (by simp [operate, ha])
  | finish hw ha => exact h.stands hw fun _ hgoes => .ending hgoes ha
  | panic hw ha => exact h.stands hw fun _ hgoes => .died hgoes ha
  | loseChunk _ hr => exact absurd (hr.symm.trans h.receiver) Bool.false_ne_true
  | loseEnd _ hr => exact absurd (hr.symm.trans h.receiver) Bool.false_ne_true
  | putChunk hw _ hs =>
      -- the channel was empty, so the chunk is what the worker supplies next
      have hahead := h.ahead
      rw [hw, hs] at hahead
      cases hahead with
      | level hat =>
          cases hat with
          | sending hgoes ha hd =>
              refine { h with ahead := .chunk (hgoes.supplies (.now ?_)) (.running .refl) }
              simp [operate, ha, hd]
  | putEnd hw _ hs =>
      have hahead := h.ahead
      rw [hw, hs] at hahead
      cases hahead with
      | level hat =>
          cases hat with
          | ending hgoes ha =>
              refine { h with ahead := .result (hgoes.supplies (.now ?_)) }
              simp [operate, ha]

/-! ## Between two requests -/

/-- What a configuration has to do with a shelf. -/
structure Shows (act : Producer σ) (chunkSize : Nat) (b : Shelf σ) (c : Config σ) : Prop where
  coherent : b.Coherent
  inside : c.offset ≤ c.remainder.length
  kept : c.remainder.drop c.offset = b.kept
  state : c.state = b.state
  undrained : b.state ≠ .draining
  closed : c.closedByCaller = b.closed
  ongoing : b.state ≠ .closed → Ongoing act chunkSize b.place c

/-- A new stream shows itself. -/
theorem Shows.spawn (s : σ) : Shows act chunkSize (.new s) (.spawn s) where
  coherent := .new s
  inside := Nat.le_refl 0
  kept := rfl
  state := rfl
  undrained := nofun
  closed := rfl
  ongoing := fun _ => ⟨rfl, rfl, rfl, .level (.running .refl)⟩

theorem Shows.retained {b : Shelf σ} (h : Shows act chunkSize b c) :
    c.retained = b.kept.length := by
  rw [← h.kept, List.length_drop]
  rfl

/-- A worker changes nothing that shows. -/
theorem Shows.worker {b : Shelf σ} (h : Shows act chunkSize b c)
    (hm : WorkerMove act chunkSize c c') : Shows act chunkSize b c' := by
  have hongoing := fun hb => (h.ongoing hb).worker hm
  obtain ⟨_, _, rfl, -⟩ := hm.frame
  exact { h with ongoing := hongoing }

/-- The phase and the answers do not matter. -/
theorem Shows.phase {b : Shelf σ} (h : Shows act chunkSize b c) (phase : Phase)
    (answers : List Answer) : Shows act chunkSize b { c with phase, answers } :=
  { h with ongoing := fun hb => { h.ongoing hb with } }

/-- A stream that has ended, and has nothing left, shows any shelf like that. -/
theorem Shows.of_closed {b : Shelf σ} (hcoherent : b.Coherent) (hstate : b.state = .closed)
    (hinside : c.offset ≤ c.remainder.length) (husedUp : c.remainder.length ≤ c.offset)
    (hclosed : c.closedByCaller = b.closed) (hc : c.state = .closed) :
    Shows act chunkSize b c where
  coherent := hcoherent
  inside := hinside
  kept := (List.drop_eq_nil_of_le husedUp).trans (hcoherent.empty hstate).symm
  state := hc.trans hstate.symm
  undrained := by simp [hstate]
  closed := hclosed
  ongoing := fun hb => absurd hstate hb

/-! ## Inside a request -/

/-- How a configuration stands inside a request that a shelf has to answer. -/
inductive Under (act : Producer σ) (chunkSize : Nat) (b : Shelf σ) (r : Request)
    (c : Config σ) : Prop
  /-- It reads; what the shelf was has been changed for what it is. -/
  | reading {max : Nat} {b₁ : Shelf σ} : r = .read max → 0 < max → c.phase = .reading max →
      Shows act chunkSize b₁ c → b₁.closed = false →
      (∀ a b', Serves act chunkSize b₁ (.read max) a b' →
        Serves act chunkSize b (.read max) a b') →
      Under act chunkSize b r c
  /-- It has taken the result of a worker that succeeded. -/
  | ended {max : Nat} {t : σ} : r = .read max → c.phase = .reading max →
      c.writerDone = true → c.receiver = true → c.offset = c.remainder.length →
      c.closedByCaller = false →
      Serves act chunkSize b (.read max) (.bytes []) (.done t) → Under act chunkSize b r c
  /-- It has an answer, and waits for the end of the worker. -/
  | joining {a : Answer} {b' : Shelf σ} : c.phase = .joining a →
      c.offset = c.remainder.length → b'.Coherent → b'.state = .closed →
      c.closedByCaller = b'.closed → Serves act chunkSize b r a b' → Under act chunkSize b r c
  /-- It empties the channel. -/
  | draining : r = .close → c.phase = .draining → c.closedByCaller = true →
      Under act chunkSize b r c

/-- A worker does not interfere with a request. -/
theorem Under.worker {b : Shelf σ} {r : Request} (h : Under act chunkSize b r c)
    (hm : WorkerMove act chunkSize c c') : Under act chunkSize b r c' := by
  cases h with
  | reading hr hmax hp hshows hopen hback =>
      have hshows' := hshows.worker hm
      obtain ⟨_, _, rfl, -⟩ := hm.frame
      exact .reading hr hmax hp hshows' hopen hback
  | ended hr hp hd hheld husedUp hopen hserves =>
      obtain ⟨_, _, rfl, -⟩ := hm.frame
      exact .ended hr hp hd hheld husedUp hopen hserves
  | joining hp husedUp hco hstate hclosed hserves =>
      obtain ⟨_, _, rfl, -⟩ := hm.frame
      exact .joining hp husedUp hco hstate hclosed hserves
  | draining hr hp hclosed =>
      obtain ⟨_, _, rfl, -⟩ := hm.frame
      exact .draining hr hp hclosed

/-- A request has been answered. -/
inductive Answered (act : Producer σ) (chunkSize : Nat) (b : Shelf σ) (r : Request)
    (c : Config σ) : Prop
  | mk {a : Answer} {earlier : List Answer} {b' : Shelf σ} : c.phase = .idle →
      c.answers = a :: earlier → Serves act chunkSize b r a b' → Shows act chunkSize b' c →
      Answered act chunkSize b r c

/-- An answer to a request that a shelf has ready, or will have. -/
theorem Answered.reply {b b' : Shelf σ} {r : Request} {a : Answer}
    (hserves : Serves act chunkSize b r a b') (hshows : Shows act chunkSize b' c) :
    Answered act chunkSize b r (c.reply a) := .mk rfl rfl hserves (hshows.phase .idle _)

/-- A read that meets the end has the answer of a shelf that is done. -/
theorem Under.finish {b b' : Shelf σ} {r : Request} {a : Answer}
    (hinside : c.offset ≤ c.remainder.length) (husedUp : c.remainder.length ≤ c.offset)
    (hco : b'.Coherent) (hstate : b'.state = .closed) (hclosed : c.closedByCaller = b'.closed)
    (hserves : Serves act chunkSize b r a b') : Under act chunkSize b r (c.finish a) :=
  .joining rfl (Nat.le_antisymm hinside husedUp) hco hstate hclosed hserves

/-- A shelf that gives what another one gives can stand for it. -/
theorem Under.instead {b b₁ : Shelf σ} {r : Request} (h : Under act chunkSize b₁ r c)
    (hback : ∀ a b', Serves act chunkSize b₁ r a b' → Serves act chunkSize b r a b') :
    Under act chunkSize b r c := by
  cases h with
  | reading hr hmax hp hshows hopen hback' =>
      subst hr
      exact .reading rfl hmax hp hshows hopen fun a b' hserves => hback a b' (hback' a b' hserves)
  | ended hr hp hd hheld husedUp hopen hserves =>
      subst hr
      exact .ended rfl hp hd hheld husedUp hopen (hback _ _ hserves)
  | joining hp husedUp hco hstate hclosed hserves =>
      exact .joining hp husedUp hco hstate hclosed (hback _ _ hserves)
  | draining hr hp hclosed => exact .draining hr hp hclosed

/-- A request that goes on is answered as the one it stands for. -/
theorem Answered.instead {b b₁ : Shelf σ} {r : Request} (h : Answered act chunkSize b₁ r c)
    (hback : ∀ a b', Serves act chunkSize b₁ r a b' → Serves act chunkSize b r a b') :
    Answered act chunkSize b r c := by
  obtain ⟨hidle, hanswers, hserves, hshows⟩ := h
  exact .mk hidle hanswers (hback _ _ hserves) hshows

/-! ### What a read does -/

section Reading

variable {b : Shelf σ} {max : Nat}

/-- A delivery answers with what is kept. -/
theorem Shows.delivers (h : Shows act chunkSize b c) (hopen : b.closed = false) (hmax : 0 < max)
    (ho : c.offset < c.remainder.length) : Answered act chunkSize b (.read max) (deliver c max) := by
  obtain ⟨kept, offset, piece, heq, hinside, hpiece, hrest⟩ := deliver_eq c max (Nat.le_of_lt ho)
  rw [h.kept] at hpiece hrest
  have hkept : b.kept ≠ [] := by
    rw [← h.kept]
    exact List.ne_nil_of_length_pos (by rw [List.length_drop]; omega)
  rw [heq, hpiece]
  refine .reply (.ready (Shelf.ready_kept hopen hmax hkept)) ?_
  exact { h with
    coherent := ⟨h.coherent.closed, fun hs => absurd (h.coherent.empty hs) hkept⟩
    inside := hinside
    kept := eq_drop_of_append hpiece hrest
    ongoing := fun hb => { h.ongoing hb with } }

/-- A read that has used up the chunk is not served from the shelf, while the stream goes on. -/
theorem Shows.ready_none (h : Shows act chunkSize b c) (hopen : b.closed = false) (hmax : 0 < max)
    (husedUp : c.remainder.length ≤ c.offset) (hs : c.state ≠ .closed) :
    b.ready (.read max) = none :=
  Shelf.ready_none hopen hmax (h.kept.symm.trans (List.drop_eq_nil_of_le husedUp)) (h.state ▸ hs)

theorem Shows.goes (h : Shows act chunkSize b c) (hs : c.state ≠ .closed) :
    Ongoing act chunkSize b.place c := h.ongoing (h.state ▸ hs)

/-- A chunk that is taken is put on the shelf. -/
theorem Shows.takes (h : Shows act chunkSize b c) (hopen : b.closed = false) (hmax : 0 < max)
    (hsize : 0 < chunkSize) {data : Bytes} (hp : c.phase = .reading max)
    (husedUp : c.remainder.length ≤ c.offset) (hs : c.state ≠ .closed)
    (hslot : c.slot = some (.chunk data)) :
    Under act chunkSize b (.read max)
      { c with slot := none, remainder := data, offset := 0,
               state := if c.state = .starting then .streaming else c.state } := by
  have hnone := h.ready_none hopen hmax husedUp hs
  have hongoing := h.goes hs
  have hahead := hongoing.ahead
  rw [hslot] at hahead
  cases hahead with
  | chunk hx hat =>
      -- the chunk is what the request waits for, and from now on it is kept
      have hdata : data ≠ [] := fun hnil => hx.chunk_ne_nil hsize (congrArg Supply.chunk hnil)
      have hstate : (if c.state = .starting then State.streaming else c.state) = .streaming := by
        have hundrained : c.state ≠ .draining := h.state ▸ h.undrained
        cases hc : c.state with
        | starting | streaming => rfl
        | draining => exact absurd hc hundrained
        | closed => exact absurd hc hs
      refine .reading rfl hmax hp ?_ rfl
        fun a b' hserves => .after_chunk hmax hnone hdata hx hserves
      exact {
        coherent := ⟨nofun, nofun⟩
        inside := Nat.zero_le _
        kept := rfl
        state := hstate
        undrained := nofun
        closed := h.closed.trans hopen
        ongoing := fun _ => { hongoing with ahead := .level hat } }

/-- A read meets the end of a stream that has ended before. -/
theorem Shows.seesEnd (h : Shows act chunkSize b c) (hopen : b.closed = false) (hmax : 0 < max)
    (husedUp : c.remainder.length ≤ c.offset) (hend : c.writerDone = true ∨ c.state = .closed) :
    Under act chunkSize b (.read max) (c.finish (.bytes [])) := by
  have hstate : b.state = .closed := by
    by_cases hb : b.state = .closed
    · exact hb
    · rcases hend with hd | hs
      · exact absurd ((h.ongoing hb).unfinished.symm.trans hd) Bool.false_ne_true
      · exact h.state.symm.trans hs
  have hready := Shelf.ready_ended hopen hmax (h.coherent.empty hstate) hstate
  exact .finish h.inside husedUp h.coherent hstate h.closed (.ready hready)

/-- A read meets the end of the worker, with an error or without a result. -/
theorem Shows.meetsEnd (h : Shows act chunkSize b c) (hopen : b.closed = false) (hmax : 0 < max)
    (husedUp : c.remainder.length ≤ c.offset) (hs : c.state ≠ .closed) {x : Supply} {t : σ}
    {e : Error} (hreceive : Shelf.receive max t x = (.error e, .done t))
    (hx : Supplies act chunkSize b.place x t) :
    Under act chunkSize b (.read max) (c.finish (.error e)) := by
  have hserves := Serves.received (h.ready_none hopen hmax husedUp hs) hx
  rw [hreceive] at hserves
  exact .finish h.inside husedUp (.done t) rfl (h.closed.trans hopen) hserves

/-- A move of a reading reader answers the request or leaves it under way. -/
theorem Shows.reads (h : Shows act chunkSize b c) (hopen : b.closed = false) (hmax : 0 < max)
    (hsize : 0 < chunkSize) (hp : c.phase = .reading max) (hm : ReaderMove c c') :
    Under act chunkSize b (.read max) c' ∨ Answered act chunkSize b (.read max) c' := by
  cases hm with
  | deliver hp' ho =>
      obtain rfl := Phase.reading.inj (hp.symm.trans hp')
      exact Or.inr (h.delivers hopen hmax ho)
  | seeEnd _ husedUp hend => exact Or.inl (h.seesEnd hopen hmax husedUp hend)
  | seeNothing _ _ hs hr =>
      exact absurd (hr.symm.trans (h.goes hs).receiver) Bool.false_ne_true
  | takeChunk _ husedUp _ hs _ hslot =>
      exact Or.inl (h.takes hopen hmax hsize hp husedUp hs hslot)
  | takeEnd _ husedUp _ hs hr hslot =>
      obtain ⟨t, hx⟩ := (hslot ▸ (h.goes hs).ahead).told
      have hserves := Serves.received (h.ready_none hopen hmax husedUp hs) hx
      exact Or.inl (.ended rfl hp rfl hr (Nat.le_antisymm h.inside husedUp)
        (h.closed.trans hopen) hserves)
  | takeError _ husedUp _ hs _ hslot =>
      obtain ⟨t, hx⟩ := (hslot ▸ (h.goes hs).ahead).told
      exact Or.inl (h.meetsEnd hopen hmax husedUp hs rfl hx)
  | missWorker _ husedUp _ hs _ hslot hw =>
      obtain ⟨t, hx⟩ := (hw ▸ hslot ▸ (h.goes hs).ahead).lost
      exact Or.inl (h.meetsEnd hopen hmax husedUp hs rfl hx)
  | discard hp' | letGo hp' | join hp' => exact nomatch hp.symm.trans hp'

end Reading

/-- **A reader moves towards the answer that the shelf gives.** -/
theorem Under.reader {b : Shelf σ} {r : Request} (h : Under act chunkSize b r c)
    (hsize : 0 < chunkSize) (hm : ReaderMove c c') :
    Under act chunkSize b r c' ∨ Answered act chunkSize b r c' := by
  cases h with
  | reading hr hmax hp hshows hopen hback =>
      subst hr
      exact (hshows.reads hopen hmax hsize hp hm).imp (·.instead hback) (·.instead hback)
  | ended hr hp hd hheld husedUp hopen hserves =>
      subst hr
      cases hm with
      | deliver _ ho => exact absurd ho (by omega)
      | seeEnd hp' hle _ =>
          obtain rfl := Phase.reading.inj (hp.symm.trans hp')
          exact Or.inl (.finish (Nat.le_of_eq husedUp) hle (.done _) rfl hopen hserves)
      | seeNothing _ _ _ hr => exact absurd (hr.symm.trans hheld) Bool.false_ne_true
      | takeChunk _ _ hd' | takeEnd _ _ hd' | takeError _ _ hd' | missWorker _ _ hd' =>
          exact absurd (hd'.symm.trans hd) Bool.false_ne_true
      | discard hp' | letGo hp' | join hp' => exact nomatch hp.symm.trans hp'
  | joining hp husedUp hco hstate hclosed hserves =>
      cases hm with
      | join hp' hw =>
          obtain rfl := Phase.joining.inj (hp.symm.trans hp')
          exact Or.inr (.reply hserves (.of_closed hco hstate (Nat.le_of_eq husedUp)
            (Nat.le_of_eq husedUp.symm) hclosed rfl))
      | deliver hp' | seeEnd hp' | seeNothing hp' | takeChunk hp' | takeEnd hp' | takeError hp'
      | missWorker hp' | discard hp' | letGo hp' => exact nomatch hp.symm.trans hp'
  | draining hr hp hclosed =>
      subst hr
      cases hm with
      | discard _ _ => exact Or.inl (.draining rfl hp hclosed)
      | letGo _ _ => exact Or.inl (.joining rfl rfl (.shut b) rfl hclosed (.ready rfl))
      | deliver hp' | seeEnd hp' | seeNothing hp' | takeChunk hp' | takeEnd hp' | takeError hp'
      | missWorker hp' | join hp' => exact nomatch hp.symm.trans hp'

/-! ## Runs -/

/-- What the caller sees when its request has been answered. -/
def Ledger.view (l : Ledger σ) : View :=
  ⟨l.request, l.config.answers.headD .closed, l.config.state, l.config.retained⟩

/-- What a move has shown to the caller. -/
def Ledger.shown (k : Ledger σ) (m : Move) : List View :=
  if m ≠ .worker ∧ k.config.phase = .idle then [k.view] else []

/-- What the caller sees in a run, a view for each request that is answered. -/
def Ledger.views (act : Producer σ) (chunkSize : Nat) : Ledger σ → List Move → List View
  | _, [] => []
  | l, m :: rest =>
    match l.move act chunkSize m with
    | none => []
    | some k => k.shown m ++ Ledger.views act chunkSize k rest

/-- The requests that begin in a run. -/
def asked : List Move → List Request :=
  List.filterMap fun
    | .ask r => some r
    | .worker | .reader => none

/-- The request that waits for its answer. -/
def Ledger.pending (l : Ledger σ) : List Request :=
  if l.config.phase = .idle then [] else [l.request]

/-- What a caller knows of a view that its request returns. -/
def View.served (v : View) : Request × Answer := (v.request, v.answer)

/-! ### Views and requests -/

/-- A move serves what it shows, and takes it off what is pending. -/
theorem Ledger.move_served {l k : Ledger σ} {m : Move} (hm : l.move act chunkSize m = some k) :
    k.served = l.served ++ (k.shown m).map (·.served)
      ∧ l.pending ++ asked [m] = (k.shown m).map (·.request) ++ k.pending := by
  cases m with
  | worker =>
      obtain ⟨c, hc, rfl⟩ := Option.map_eq_some_iff.mp hm
      obtain ⟨_, _, rfl, -⟩ := (workerStep_moves hc).frame
      exact ⟨(List.append_nil _).symm, List.append_nil _⟩
  | reader =>
      obtain ⟨c, hc, rfl⟩ := Option.map_eq_some_iff.mp hm
      -- a reader only moves while a request is under way
      have hbusy : l.config.phase ≠ .idle := by
        intro hidle
        simp [readerStep, hidle] at hc
      by_cases hidle : c.phase = .idle
      · simp [Ledger.heard, Ledger.shown, Ledger.pending, Ledger.view, View.served, asked, hidle,
          hbusy]
      · simp [Ledger.heard, Ledger.shown, Ledger.pending, asked, hidle, hbusy]
  | ask r =>
      obtain ⟨hidle, he⟩ := Option.ite_none_right_eq_some.mp hm
      obtain rfl := Option.some.inj he
      by_cases hthen : (begin l.config r).phase = .idle
      · simp [Ledger.heard, Ledger.shown, Ledger.pending, Ledger.view, View.served, asked, hidle,
          hthen]
      · simp [Ledger.heard, Ledger.shown, Ledger.pending, asked, hidle, hthen]

theorem asked_append (xs ys : List Move) : asked (xs ++ ys) = asked xs ++ asked ys :=
  List.filterMap_append

/-- Each request that is answered has its view, and each that is asked is answered, but for
    the one that waits. -/
theorem Ledger.play_served {l l' : Ledger σ} {moves : List Move}
    (hp : l.play act chunkSize moves = some l') :
    l'.served = l.served ++ (l.views act chunkSize moves).map (·.served)
      ∧ l.pending ++ asked moves = (l.views act chunkSize moves).map (·.request) ++ l'.pending := by
  induction moves generalizing l with
  | nil =>
      obtain rfl := Option.some.inj hp
      exact ⟨(List.append_nil _).symm, List.append_nil _⟩
  | cons m rest ih =>
      obtain ⟨k, hm, hrest⟩ := Option.bind_eq_some_iff.mp hp
      obtain ⟨hserved, hasked⟩ := Ledger.move_served hm
      obtain ⟨hserved', hasked'⟩ := ih hrest
      have hviews : l.views act chunkSize (m :: rest)
          = k.shown m ++ k.views act chunkSize rest := by rw [Ledger.views, hm]
      constructor
      · rw [hserved', hserved, hviews, List.map_append, List.append_assoc]
      · calc l.pending ++ asked (m :: rest)
            = (l.pending ++ asked [m]) ++ asked rest := by
              rw [List.append_assoc, ← asked_append]
              rfl
          _ = (k.shown m).map (·.request) ++ (k.pending ++ asked rest) := by
              rw [hasked, List.append_assoc]
          _ = (l.views act chunkSize (m :: rest)).map (·.request) ++ l'.pending := by
              rw [hasked', hviews, List.map_append, List.append_assoc]

/-! ### Views and shelves -/

/-- A run has come to where the shelf is. -/
inductive Stands (act : Producer σ) (chunkSize : Nat) (b : Shelf σ) (l : Ledger σ) : Prop
  | idle : l.config.phase = .idle → Shows act chunkSize b l.config → Stands act chunkSize b l
  | busy : Under act chunkSize b l.request l.config → Stands act chunkSize b l

theorem Under.busy {b : Shelf σ} {r : Request} (h : Under act chunkSize b r c) :
    c.phase ≠ .idle := by
  cases h with
  | reading _ _ hp | ended _ hp | joining hp | draining _ hp =>
      exact fun hidle => nomatch hp.symm.trans hidle

/-- A request that has been answered shows what the shelf gives. -/
theorem Answered.follows {b : Shelf σ} {k : Ledger σ} {m : Move}
    (h : Answered act chunkSize b k.request k.config) (hm : m ≠ .worker) :
    ∃ b', Follows act chunkSize b (k.shown m) b' ∧ Stands act chunkSize b' k := by
  obtain ⟨hidle, hanswers, hserves, hshows⟩ := h
  refine ⟨_, ?_, .idle hidle hshows⟩
  have hview := Follows.cons hserves (.nil _)
  rw [Ledger.shown, if_pos ⟨hm, hidle⟩, Ledger.view, hanswers, hshows.retained, hshows.state]
  exact hview

/-- A request that goes on shows nothing. -/
theorem Under.follows {b : Shelf σ} {k : Ledger σ} {m : Move}
    (h : Under act chunkSize b k.request k.config) :
    ∃ b', Follows act chunkSize b (k.shown m) b' ∧ Stands act chunkSize b' k := by
  refine ⟨b, ?_, .busy h⟩
  rw [Ledger.shown, if_neg fun hidle => h.busy hidle.2]
  exact .nil b

/-- A request begins, and is answered at once if the shelf has the answer ready and the
    stream need not be closed for it. -/
theorem Shows.ask {b : Shelf σ} (h : Shows act chunkSize b c) (r : Request) :
    Under act chunkSize b r (begin c r) ∨ Answered act chunkSize b r (begin c r) := by
  cases r with
  | read max =>
      simp only [begin]
      -- a closed stream answers at once, and so does a read of no bytes
      by_cases hclosed : c.closedByCaller = true
      · rw [if_pos hclosed]
        have hready : b.ready (.read max) = some (.error .streamClosed, b) := by
          rw [Shelf.ready, if_pos (h.closed ▸ hclosed)]
        exact Or.inr (.reply (.ready hready) h)
      · rw [if_neg hclosed]
        have hopen : b.closed = false := by simpa [h.closed] using hclosed
        by_cases hmax : max = 0
        · rw [if_pos hmax]
          have hready : b.ready (.read max) = some (.bytes [], b) := by
            simp [Shelf.ready, hopen, hmax]
          exact Or.inr (.reply (.ready hready) h)
        · rw [if_neg hmax]
          exact Or.inl (.reading rfl (Nat.pos_of_ne_zero hmax) rfl (h.phase _ _) hopen
            fun _ _ => id)
  | close =>
      simp only [begin]
      split
      · next hstate =>
          have hclosed : b.state = .closed := h.state.symm.trans hstate
          have husedUp : c.remainder.length ≤ c.offset :=
            List.drop_eq_nil_iff.mp (h.kept.trans (h.coherent.empty hclosed))
          refine Or.inr (.reply (.ready rfl) ?_)
          exact .of_closed (.shut b) rfl h.inside husedUp rfl hstate
      · exact Or.inl (.draining rfl rfl rfl)

/-- A move is shown as the answers it brings. -/
theorem Stands.move {b : Shelf σ} {l k : Ledger σ} {m : Move} (h : Stands act chunkSize b l)
    (hsize : 0 < chunkSize) (hm : l.move act chunkSize m = some k) :
    ∃ b', Follows act chunkSize b (k.shown m) b' ∧ Stands act chunkSize b' k := by
  cases m with
  | worker =>
      obtain ⟨c, hc, rfl⟩ := Option.map_eq_some_iff.mp hm
      have hmove := workerStep_moves hc
      refine ⟨b, .nil b, ?_⟩
      cases h with
      | idle hidle hshows =>
          have hshows' := hshows.worker hmove
          obtain ⟨_, _, rfl, -⟩ := hmove.frame
          exact .idle hidle hshows'
      | busy hunder => exact .busy (hunder.worker hmove)
  | reader =>
      obtain ⟨c, hc, rfl⟩ := Option.map_eq_some_iff.mp hm
      cases h with
      | idle hidle _ => simp [readerStep, hidle] at hc
      | busy hunder =>
          rcases hunder.reader hsize (readerStep_moves hc) with hunder' | hanswered
          · exact hunder'.follows
          · exact hanswered.follows (by simp)
  | ask r =>
      obtain ⟨hidle, he⟩ := Option.ite_none_right_eq_some.mp hm
      obtain rfl := Option.some.inj he
      cases h with
      | idle _ hshows =>
          rcases hshows.ask r with hunder | hanswered
          · exact hunder.follows
          · exact hanswered.follows (by simp)
      | busy hunder => exact absurd hidle hunder.busy

theorem Follows.append {b b' b'' : Shelf σ} {vs ws : List View}
    (h : Follows act chunkSize b vs b') (hw : Follows act chunkSize b' ws b'') :
    Follows act chunkSize b (vs ++ ws) b'' := by
  induction h with
  | nil => exact hw
  | cons hserves _ ih => exact .cons hserves (ih hw)

/-- **The views of a run are those of the shelf**, in every schedule. -/
theorem Stands.play {b : Shelf σ} {l l' : Ledger σ} {moves : List Move}
    (h : Stands act chunkSize b l) (hsize : 0 < chunkSize)
    (hp : l.play act chunkSize moves = some l') :
    ∃ b', Follows act chunkSize b (l.views act chunkSize moves) b'
      ∧ Stands act chunkSize b' l' := by
  induction moves generalizing l b with
  | nil =>
      obtain rfl := Option.some.inj hp
      exact ⟨b, .nil b, h⟩
  | cons m rest ih =>
      obtain ⟨k, hm, hrest⟩ := Option.bind_eq_some_iff.mp hp
      obtain ⟨b₁, hfirst, hk⟩ := h.move hsize hm
      obtain ⟨b₂, hlater, hend⟩ := ih hk hrest
      rw [Ledger.views, hm]
      exact ⟨b₂, hfirst.append hlater, hend⟩

theorem Stands.spawn (s : σ) : Stands act chunkSize (.new s) (.spawn s) := .idle rfl (.spawn s)

end Gitwork.Stream
