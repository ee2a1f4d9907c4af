import Gitwork.Proofs.Stream.Views

/-! # The stages of a stream

    A stream is starting, streaming or closed, in this order, and never goes back
    (`Ledger.play_rank_le`).  What it draws from the channel while it drains stays
    inside one request, so the caller never finds it draining.

    * A stream that has taken a message has left its start, or is about to end
      (`Ledger.play_received`); so a stream that is starting has taken none.
    * A stream that has told its end answers every later read with nothing
      (`Follows.silent`), until it is closed.
    * Between two requests `Shows` and `Coherent` say the rest. -/

namespace Gitwork.Stream

variable {σ : Type} {act : Producer σ} {chunkSize : Nat} {c c' : Config σ}

/-! ## Forward only -/

/-- How far a stream has come. -/
def State.rank : State → Nat
  | .starting => 0
  | .streaming => 1
  | .draining => 2
  | .closed => 3

/-- No move of the reader goes back to an earlier state. -/
theorem ReaderMove.rank_le (hm : ReaderMove c c') : c.state.rank ≤ c'.state.rank := by
  cases hm with
  | deliver _ ho =>
      obtain ⟨_, _, _, heq, -⟩ := deliver_eq c _ (Nat.le_of_lt ho)
      rw [heq]
      exact Nat.le_refl _
  | seeEnd | seeNothing | takeError | missWorker | discard | letGo => exact Nat.le_refl _
  | takeChunk =>
      show c.state.rank ≤ (if c.state = .starting then State.streaming else c.state).rank
      split
      · next hs =>
          rw [hs]
          exact Nat.zero_le _
      · exact Nat.le_refl _
  | takeEnd _ _ _ hs =>
      show c.state.rank ≤ State.draining.rank
      cases hc : c.state with
      | closed => exact absurd hc hs
      | starting | streaming | draining => simp [State.rank]
  | join =>
      show c.state.rank ≤ State.closed.rank
      cases c.state with
      | starting | streaming | draining | closed => simp [State.rank]

/-- To begin a request takes a stream nowhere. -/
theorem begin_same (c : Config σ) (r : Request) :
    (begin c r).state = c.state ∧ (begin c r).remainder = c.remainder := by
  cases r with
  | read max =>
      simp only [begin]
      split
      · exact ⟨rfl, rfl⟩
      · split
        · exact ⟨rfl, rfl⟩
        · exact ⟨rfl, rfl⟩
  | close =>
      simp only [begin]
      split
      · exact ⟨rfl, rfl⟩
      · exact ⟨rfl, rfl⟩

/-- **A stream never goes back.** -/
theorem Ledger.play_rank_le {l l' : Ledger σ} {moves : List Move}
    (hp : l.play act chunkSize moves = some l') :
    l.config.state.rank ≤ l'.config.state.rank := by
  refine Ledger.play_keeps (P := fun c => l.config.state.rank ≤ c.state.rank) ?_ ?_ ?_
    (Nat.le_refl _) hp
  · intro c c' h hm
    obtain ⟨_, _, rfl, -⟩ := hm.frame
    exact h
  · intro c c' h hm
    exact Nat.le_trans h hm.rank_le
  · intro c r h _
    rw [(begin_same c r).1]
    exact h

/-! ## The start -/

/-- A stream that is starting keeps nothing. -/
def Unfilled (c : Config σ) : Prop := c.state = .starting → c.remainder = []

/-- Nothing is kept before the first chunk. -/
theorem Unfilled.reader (h : Unfilled c) (hm : ReaderMove c c') : Unfilled c' := by
  cases hm with
  | deliver _ ho =>
      obtain ⟨_, _, _, heq, -⟩ := deliver_eq c _ (Nat.le_of_lt ho)
      rw [heq]
      intro hs
      rw [h hs] at ho
      exact absurd ho (Nat.not_lt_zero _)
  | seeEnd | seeNothing | takeError | missWorker | discard => exact h
  | takeChunk =>
      intro hs
      have hleft : (if c.state = .starting then State.streaming else c.state) ≠ .starting := by
        split
        · exact nofun
        · next hc => exact hc
      exact absurd hs hleft
  | takeEnd => exact nofun
  | letGo => exact fun _ => rfl
  | join => exact nofun

/-- Nothing is kept before the first chunk, along any run. -/
theorem Unfilled.play {l l' : Ledger σ} (h : Unfilled l.config) {moves : List Move}
    (hp : l.play act chunkSize moves = some l') : Unfilled l'.config := by
  refine Ledger.play_keeps (P := Unfilled) ?_ (fun _ _ h hm => h.reader hm) ?_ h hp
  · intro c c' h hm
    obtain ⟨_, _, rfl, -⟩ := hm.frame
    exact h
  · intro c r h _ hs
    rw [(begin_same c r).1] at hs
    rw [(begin_same c r).2]
    exact h hs

/-- The messages that the reader has taken out of the channel. -/
def received (act : Producer σ) (chunkSize : Nat) : Ledger σ → List Move → Nat
  | _, [] => 0
  | l, m :: rest =>
    match l.move act chunkSize m with
    | none => 0
    | some k =>
      (if m = .reader ∧ l.config.slot.isSome ∧ k.config.slot = none then 1 else 0)
        + received act chunkSize k rest

/-- The stream has left its start, or is about to end. -/
def Underway (c : Config σ) : Prop :=
  c.state ≠ .starting ∨ c.phase = .draining ∨ ∃ a, c.phase = .joining a

/-- A stream that is underway stays so. -/
theorem Underway.reader (h : Underway c) (hm : ReaderMove c c') : Underway c' := by
  rcases h with hs | hbusy
  · refine Or.inl ?_
    intro hs'
    have hle := hm.rank_le
    rw [hs'] at hle
    cases hc : c.state with
    | starting => exact hs hc
    | streaming | draining | closed => simp [hc, State.rank] at hle
  · cases hm with
    | discard hp => exact Or.inr (Or.inl hp)
    | letGo => exact Or.inr (Or.inr ⟨_, rfl⟩)
    | join => exact Or.inl nofun
    | deliver hp | seeEnd hp | seeNothing hp | takeChunk hp | takeEnd hp | takeError hp
    | missWorker hp =>
        rcases hbusy with hdrain | ⟨a, hjoin⟩
        · exact nomatch hp.symm.trans hdrain
        · exact nomatch hp.symm.trans hjoin

/-- A message that is taken gets a stream under way. -/
theorem ReaderMove.underway (hm : ReaderMove c c') (hfull : c.slot.isSome = true)
    (hempty : c'.slot = none) : Underway c' := by
  cases hm with
  | deliver _ ho =>
      obtain ⟨_, _, _, heq, -⟩ := deliver_eq c _ (Nat.le_of_lt ho)
      rw [heq] at hempty
      have hslot : c.slot = none := hempty
      rw [hslot] at hfull
      exact absurd hfull Bool.false_ne_true
  | seeEnd | takeError => exact Or.inr (Or.inr ⟨_, rfl⟩)
  | takeChunk =>
      refine Or.inl ?_
      show (if c.state = .starting then State.streaming else c.state) ≠ .starting
      split
      · exact nofun
      · next hs => exact hs
  | takeEnd => exact Or.inl nofun
  | discard hp => exact Or.inr (Or.inl hp)
  | seeNothing =>
      have hslot : c.slot = none := hempty
      rw [hslot] at hfull
      exact absurd hfull Bool.false_ne_true
  | missWorker _ _ _ _ _ hslot | letGo _ hslot =>
      rw [hslot] at hfull
      exact absurd hfull Bool.false_ne_true
  | join => exact Or.inl nofun

/-- A stream that is underway stays so along any run. -/
theorem Underway.play {l l' : Ledger σ} (h : Underway l.config) {moves : List Move}
    (hp : l.play act chunkSize moves = some l') : Underway l'.config := by
  refine Ledger.play_keeps (P := Underway) ?_ (fun _ _ h hm => h.reader hm) ?_ h hp
  · intro c c' h hm
    obtain ⟨_, _, rfl, -⟩ := hm.frame
    exact h
  · intro c r h hidle
    rcases h with hs | hdrain | ⟨a, hjoin⟩
    · exact Or.inl ((begin_same c r).1 ▸ hs)
    · exact nomatch hidle.symm.trans hdrain
    · exact nomatch hidle.symm.trans hjoin

/-- **Who has taken a message is under way.** -/
theorem Ledger.play_received {l l' : Ledger σ} {moves : List Move}
    (hp : l.play act chunkSize moves = some l') :
    received act chunkSize l moves = 0 ∨ Underway l'.config := by
  induction moves generalizing l with
  | nil => exact Or.inl rfl
  | cons m rest ih =>
      obtain ⟨k, hm, hrest⟩ := Option.bind_eq_some_iff.mp hp
      rw [received, hm]
      by_cases htaken : m = .reader ∧ l.config.slot.isSome ∧ k.config.slot = none
      · obtain ⟨rfl, hfull, hempty⟩ := htaken
        obtain ⟨c, hstep, rfl⟩ := Option.map_eq_some_iff.mp hm
        have hunder : Underway (l.heard c).config :=
          (readerStep_moves hstep).underway hfull hempty
        exact Or.inr (hunder.play hrest)
      · simp only [if_neg htaken, Nat.zero_add]
        exact ih hrest

/-! ## The end -/

/-- A read that tells the end of a stream: it gets nothing although it asks for
    something, or an error. -/
inductive Final : Request → Answer → Prop
  | ended {max : Nat} : 0 < max → Final (.read max) (.bytes [])
  | failed {max : Nat} {e : Error} : Final (.read max) (.error e)

/-- The last bytes of a stream are none, in answer to a real request. -/
theorem Final.of_bytes {max : Nat} {data : Bytes} (h : Final (.read max) (.bytes data)) :
    0 < max ∧ data = [] := by
  cases h with
  | ended hmax => exact ⟨hmax, rfl⟩

/-- The reader has been told the end, and has not closed the stream. -/
structure Shelf.Ended (b : Shelf σ) : Prop where
  opened : b.closed = false
  state : b.state = .closed
  kept : b.kept = []

/-- A shelf that is open serves its reads from what is kept, or has ended. -/
theorem Shelf.ready_cases {b b' : Shelf σ} {max : Nat} {a : Answer} (hopen : b.closed = false)
    (hready : b.ready (.read max) = some (a, b')) :
    (max = 0 ∧ a = .bytes [] ∧ b' = b)
      ∨ (0 < max ∧ b.kept ≠ [] ∧ a = .bytes (b.kept.take max)
        ∧ b' = { b with kept := b.kept.drop max })
      ∨ (b.state = .closed ∧ a = .bytes [] ∧ b' = b) := by
  rw [Shelf.ready, if_neg (by simp [hopen])] at hready
  split at hready
  · next hmax =>
      cases hready
      exact Or.inl ⟨hmax, rfl, rfl⟩
  next hmax =>
    split at hready
    · next hkept =>
        cases hready
        exact Or.inr (Or.inl ⟨Nat.pos_of_ne_zero hmax, hkept, rfl, rfl⟩)
    split at hready
    · next hstate =>
        cases hready
        exact Or.inr (Or.inr ⟨hstate, rfl, rfl⟩)
    · cases hready

/-- A read leaves an open stream open. -/
theorem Serves.opened {b b' : Shelf σ} {max : Nat} {a : Answer} (hopen : b.closed = false)
    (hs : Serves act chunkSize b (.read max) a b') : b'.closed = false := by
  cases hs with
  | @received _ x t _ _ =>
      rcases x with data | ⟨e | u⟩ | _
      · rfl
      · rfl
      · rfl
      · rfl
  | ready hready =>
      rcases Shelf.ready_cases hopen hready with ⟨-, -, rfl⟩ | ⟨-, -, -, rfl⟩ | ⟨-, -, rfl⟩
      · exact hopen
      · exact hopen
      · exact hopen

/-- Whoever is told the end finds the stream ended. -/
theorem Serves.final {b b' : Shelf σ} {max : Nat} {a : Answer} (hsize : 0 < chunkSize)
    (hopen : b.closed = false) (hco : b.Coherent) (hs : Serves act chunkSize b (.read max) a b')
    (hfinal : Final (.read max) a) : b'.Ended := by
  cases hs with
  | @received _ x t _ hx =>
      rcases x with data | ⟨e | u⟩ | _
      · -- a chunk always has something for a real request
        obtain ⟨hmax, hnil⟩ := hfinal.of_bytes
        have hdata : data ≠ [] := fun h => hx.chunk_ne_nil hsize (congrArg Supply.chunk h)
        exact absurd hnil (take_ne_nil hmax hdata)
      · exact ⟨rfl, rfl, rfl⟩
      · exact ⟨rfl, rfl, rfl⟩
      · exact ⟨rfl, rfl, rfl⟩
  | ready hready =>
      -- a request that is served at once does not end the stream, unless it has ended
      rcases Shelf.ready_cases hopen hready with ⟨rfl, rfl, -⟩ | ⟨hmax, hkept, rfl, -⟩
        | ⟨hstate, rfl, rfl⟩
      · exact absurd hfinal.of_bytes.1 (Nat.lt_irrefl 0)
      · exact absurd hfinal.of_bytes.2 (take_ne_nil hmax hkept)
      · exact ⟨hopen, hstate, hco.empty hstate⟩

/-- A stream that has ended stays as it is, and says nothing. -/
theorem Shelf.Ended.serves {b b' : Shelf σ} {max : Nat} {a : Answer} (h : b.Ended)
    (hs : Serves act chunkSize b (.read max) a b') : a = .bytes [] ∧ b' = b := by
  have hready : b.ready (.read max) = some (.bytes [], b) := by
    simp [Shelf.ready, h.opened, h.kept, h.state]
  exact hs.unique (.ready hready)

/-- **After the end, reads get nothing**, until the stream is closed. -/
theorem Follows.silent {b b' : Shelf σ} {vs : List View} (h : Follows act chunkSize b vs b')
    (hb : b.Ended) : ∀ middle v rest max, vs = middle ++ v :: rest →
      (∀ w ∈ middle, w.request ≠ .close) → v.request = .read max → v.answer = .bytes [] := by
  induction h with
  | nil b => exact fun middle v rest max hvs => absurd hvs.symm (by simp)
  | @cons b b₁ b₂ r a vs hserves _ ih =>
      intro middle v rest max hvs hnone hread
      cases middle with
      | nil =>
          obtain ⟨rfl, rfl⟩ := List.cons.inj hvs
          obtain rfl : r = .read max := hread
          exact (hb.serves hserves).1
      | cons w middle =>
          obtain ⟨rfl, rfl⟩ := List.cons.inj hvs
          have hr : r ≠ .close := hnone _ List.mem_cons_self
          cases r with
          | close => exact absurd rfl hr
          | read m =>
              obtain ⟨-, rfl⟩ := hb.serves hserves
              exact ih hb middle v rest max rfl
                (fun w hw => hnone w (List.mem_cons_of_mem _ hw)) hread

/-- The same, for the reads behind the one that was told the end. -/
theorem Follows.after_end {b b' : Shelf σ} {vs : List View} (h : Follows act chunkSize b vs b')
    (hsize : 0 < chunkSize) (hopen : b.closed = false) (hco : b.Coherent) :
    ∀ first e middle v rest max, vs = first ++ e :: (middle ++ v :: rest) →
      Final e.request e.answer → (∀ w ∈ first ++ middle, w.request ≠ .close) →
      v.request = .read max → v.answer = .bytes [] := by
  induction h with
  | nil b => exact fun first e middle v rest max hvs => absurd hvs.symm (by simp)
  | @cons b b₁ b₂ r a vs hserves hrest ih =>
      intro first e middle v rest max hvs hfinal hnone hread
      cases first with
      -- the final answer ends the stream, and only a close changes its answers
      | nil =>
          obtain ⟨rfl, rfl⟩ := List.cons.inj hvs
          have hfinal : Final r a := hfinal
          cases r with
          | close => exact nomatch hfinal
          | read m =>
              exact hrest.silent (hserves.final hsize hopen hco hfinal) middle v rest max rfl
                hnone hread
      | cons w first =>
          obtain ⟨rfl, rfl⟩ := List.cons.inj hvs
          have hr : r ≠ .close := hnone _ List.mem_cons_self
          cases r with
          | close => exact absurd rfl hr
          | read m =>
              exact ih (hserves.opened hopen) (hco.serves hserves) first e middle v rest max rfl
                hfinal (fun w hw => hnone w (List.mem_cons_of_mem _ hw)) hread

/-! ## Between two requests -/

/-- A run that stands between two requests shows what lies on a shelf. -/
theorem Stands.shows {b : Shelf σ} {l : Ledger σ} (h : Stands act chunkSize b l)
    (hidle : l.config.phase = .idle) : Shows act chunkSize b l.config := by
  cases h with
  | idle _ hshows => exact hshows
  | busy hunder => exact absurd hidle hunder.busy

/-- To close a stream again changes nothing but that it is answered. -/
theorem begin_close_again (hidle : c.phase = .idle) (hclosed : c.closedByCaller = true)
    (hstate : c.state = .closed) :
    begin c .close = { c with answers := .closed :: c.answers } := by
  have hmarked : { c with closedByCaller := true } = c := by rw [← hclosed]
  simp only [begin]
  rw [hmarked, if_pos hstate, Config.reply, ← hidle]

/-- **What holds of a stream between two requests**, in every run of any worker:

    * the offset lies inside the chunk, so what is retained is the rest of it;
    * the stream is not draining, and later it will have got no less far;
    * if it is starting, no message was taken out of the channel;
    * bytes are retained only while it is streaming;
    * if it is closed, the worker has ended, the channel is given up and nothing is
      retained; and it is closed if its reader has closed it;
    * reads behind one that was told the end, with no close before them, get nothing;
    * a close after a close is answered, and does nothing else. -/
theorem stage_invariant (act : Producer σ) (n : Nat) (s : σ) (moves : List Move) (l : Ledger σ)
    (hrun : (Ledger.spawn s).play act (effectiveChunkSize n) moves = some l)
    (hidle : l.config.phase = .idle) :
    (l.config.offset ≤ l.config.remainder.length
        ∧ l.config.retained + l.config.offset = l.config.remainder.length)
      ∧ (l.config.state ≠ .draining
        ∧ ∀ more l', l.play act (effectiveChunkSize n) more = some l' →
          l.config.state.rank ≤ l'.config.state.rank)
      ∧ (l.config.state = .starting →
        received act (effectiveChunkSize n) (Ledger.spawn s) moves = 0)
      ∧ (0 < l.config.retained → l.config.state = .streaming)
      ∧ (l.config.state = .closed →
        (∃ t, l.config.worker = .ended t) ∧ l.config.receiver = false ∧ l.config.retained = 0)
      ∧ (l.config.closedByCaller = true → l.config.state = .closed)
      ∧ (∀ first r a middle max b rest,
        l.served = first ++ (r, a) :: (middle ++ (.read max, b) :: rest) → Final r a →
        (∀ x ∈ first ++ middle, x.1 ≠ .close) → b = .bytes [])
      ∧ (l.config.closedByCaller = true →
        ∃ k, l.move act (effectiveChunkSize n) (.ask .close) = some k
          ∧ k.config = { l.config with answers := .closed :: l.config.answers }) := by
  have hsize := effectiveChunkSize_pos n
  have hco : Coherent l.config := (Coherent.spawn s).play hrun
  obtain ⟨b, hfollows, hstands⟩ := (Stands.spawn s).play hsize hrun
  have hshows := hstands.shows hidle
  have hempty : l.config.state = .closed → l.config.retained = 0 := by
    intro hs
    rw [hshows.retained, hshows.coherent.empty (hshows.state ▸ hs)]
    rfl
  have hundrained : l.config.state ≠ .draining := hshows.state ▸ hshows.undrained
  refine ⟨⟨hshows.inside, Nat.sub_add_cancel hshows.inside⟩,
    ⟨hundrained, fun more l' hmore => Ledger.play_rank_le hmore⟩, ?_, ?_, ?_,
    hco.closed_of_idle hidle, ?_, ?_⟩
  · intro hstarting
    rcases Ledger.play_received hrun with hnone | hs | hdrain | ⟨a, hjoin⟩
    · exact hnone
    · exact absurd hstarting hs
    · exact nomatch hidle.symm.trans hdrain
    · exact nomatch hidle.symm.trans hjoin
  · intro hretained
    cases hs : l.config.state with
    | streaming => rfl
    | draining => exact absurd hs hundrained
    | closed =>
        rw [hempty hs] at hretained
        exact absurd hretained (Nat.lt_irrefl 0)
    | starting =>
        have hunfilled : Unfilled (Ledger.spawn s).config := fun _ => rfl
        have hnil : l.config.remainder = [] := hunfilled.play hrun hs
        rw [Config.retained, hnil] at hretained
        exact absurd hretained (by simp)
  · intro hs
    obtain ⟨hended, hreceiver, -⟩ := hco.closed hs
    exact ⟨hended, hreceiver, hempty hs⟩
  · intro first r a middle max b rest hserved hfinal hnone
    -- each request that was answered has its view
    have hviews := (Ledger.play_served hrun).1
    rw [hserved] at hviews
    obtain ⟨vs, vs', hvs, rfl, hvs'⟩ := List.map_eq_append_iff.mp hviews.symm
    obtain ⟨e, vs'', rfl, he, hvs''⟩ := List.map_eq_cons_iff.mp hvs'
    obtain ⟨ws, ws', rfl, rfl, hws'⟩ := List.map_eq_append_iff.mp hvs''
    obtain ⟨v, us, rfl, hv, -⟩ := List.map_eq_cons_iff.mp hws'
    obtain ⟨rfl, rfl⟩ := Prod.mk.inj he
    obtain ⟨hread, rfl⟩ := Prod.mk.inj hv
    refine hfollows.after_end hsize rfl (.new s) vs e ws v us max hvs hfinal ?_ hread
    intro w hw
    rw [← List.map_append] at hnone
    exact hnone _ (List.mem_map_of_mem hw)
  · intro hclosed
    exact ⟨_, if_pos hidle, begin_close_again hidle hclosed (hco.closed_of_idle hidle hclosed)⟩

/-- A reader that goes on after the error of the worker, and closes the stream twice. -/
def readsPastTheEnd : List Move :=
  unevenReads ++ [.ask (.read 9), .reader, .reader, .ask .close, .ask .close]

/-- Three messages are received: two chunks and the failure, which is told once. -/
theorem stage_invariant_readsPastTheEnd :
    ∃ l, (Ledger.spawn failingScript).play (Script.act 2) (effectiveChunkSize 2) readsPastTheEnd
        = some l
      ∧ l.config.phase = .idle
      ∧ l.served.map (·.2) = [.bytes [], .bytes [1], .bytes [2], .bytes [3],
        .error .streamClosed, .bytes [], .closed, .closed]
      ∧ received (Script.act 2) (effectiveChunkSize 2) (Ledger.spawn failingScript)
        readsPastTheEnd = 3
      ∧ l.config.retained + l.config.offset = l.config.remainder.length
      ∧ l.config.state = .closed ∧ l.config.retained = 0 := by
  refine ⟨_, rfl, rfl, rfl, rfl, ?_, rfl, ?_⟩
  · exact (stage_invariant (Script.act 2) 2 failingScript readsPastTheEnd _ rfl rfl).1.2
  · exact ((stage_invariant (Script.act 2) 2 failingScript readsPastTheEnd _ rfl rfl).2.2.2.2.1
      rfl).2.2

end Gitwork.Stream
