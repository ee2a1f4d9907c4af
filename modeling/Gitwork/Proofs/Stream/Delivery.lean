import Gitwork.Proofs.Stream.Closing
import Gitwork.Proofs.Stream.Views

/-! # A stream delivers what its worker writes

    `Writes` says of a worker, left alone, that it writes some bytes in chunks and then
    succeeds.  A stream of such a worker delivers these bytes and then its end, in every
    schedule and with reads of any sizes but zero (`Writes.delivers`):

    * nobody waits for ever, for the worker has finitely many moves left
      (`Writes.runsOut`) and a read gets nearer to its answer (`Coherent.answered`);
    * each read takes its answer off the front of what is to come, and is empty only
      when nothing is (`Holds.serves`), hence so do reads in a row (`Holds.follows`). -/

namespace Gitwork.Stream

variable {σ : Type} {act : Producer σ} {chunkSize : Nat} {c c' : Config σ}

/-! ## Every read is answered -/

/-- How far a read is from its answer, if the worker does nothing. -/
def wayLeft (c : Config σ) : Nat :=
  match c.phase with
  | .idle | .draining => 0
  | .joining _ => 1
  | .reading _ =>
    if c.offset < c.remainder.length then 1
    else if c.writerDone = true ∨ c.state = .closed then 2
    else if c.slot.isNone then 3 else 4

/-- A reader that reads comes nearer to its answer. -/
theorem ReaderMove.nearer (hm : ReaderMove c c') (hreads : c.phase ≠ .draining) :
    c'.closedByCaller = c.closedByCaller ∧ wayLeft c' < wayLeft c := by
  cases hm with
  | @deliver max hp ho =>
      obtain ⟨_, _, _, heq, -⟩ := deliver_eq c max (Nat.le_of_lt ho)
      rw [heq]
      exact ⟨rfl, by simp [wayLeft, Config.reply, hp, ho]⟩
  | seeEnd hp ho hend =>
      exact ⟨rfl, by simp [wayLeft, Config.finish, hp, Nat.not_lt_of_le ho, hend]⟩
  | seeNothing hp ho _ _ =>
      refine ⟨rfl, ?_⟩
      simp only [wayLeft, Config.reply, hp, Nat.not_lt_of_le ho, if_false]
      split
      · omega
      · split <;> omega
  | takeChunk hp ho hd hs _ hslot =>
      -- an empty chunk would be no nearer to the answer, but it has left the channel
      refine ⟨rfl, ?_⟩
      simp only [wayLeft, hp, Nat.not_lt_of_le ho, hd, hs, hslot, Option.isNone_none,
        Option.isNone_some, Bool.false_eq_true, or_self, if_false, if_true]
      generalize (if c.state = .starting then State.streaming else c.state) = state
      split
      · omega
      · split <;> omega
  | takeEnd hp ho hd hs _ hslot =>
      exact ⟨rfl, by simp [wayLeft, hp, Nat.not_lt_of_le ho, hd, hs, hslot]⟩
  | takeError hp ho hd hs _ hslot | missWorker hp ho hd hs _ hslot _ =>
      exact ⟨rfl, by simp [wayLeft, Config.finish, hp, Nat.not_lt_of_le ho, hd, hs, hslot]⟩
  | discard hp | letGo hp => exact absurd hp hreads
  | join hp _ => exact ⟨rfl, by simp [wayLeft, Config.reply, hp]⟩

/-- Only the reader that closes a stream cancels it. -/
theorem Coherent.uncancelled (h : Coherent c) (hopen : c.closedByCaller = false) :
    c.cancelled = false := by
  cases hc : c.cancelled with
  | false => rfl
  | true => exact absurd (hopen.symm.trans (h.cancelled hc)) Bool.false_ne_true

/-- **A request of an open stream is answered**, in every schedule, if the worker ends. -/
theorem Coherent.answered (hacc : Acc (Turn act chunkSize false) c.worker) (h : Coherent c)
    (hopen : c.closedByCaller = false) :
    Inevitable act chunkSize (fun c => c.phase = .idle) c := by
  refine Inevitable.of_ranks (fun c => Coherent c ∧ c.closedByCaller = false) wayLeft
    ?_ ?_ ?_ hacc c rfl ⟨h, hopen⟩
  · exact fun c h hbusy => h.1.unstuck hbusy
  · intro c c' ⟨h, hopen⟩ _ hm
    have huncancelled := h.uncancelled hopen
    -- without a cancel, the reader does not let go of a worker that goes on
    have hheld : c.receiver = true := by
      cases hr : c.receiver with
      | true => rfl
      | false =>
          rcases h.letGo hr with ⟨s, hs⟩ | hc
          · exact absurd hs (hm.not_ended s)
          · exact absurd (huncancelled.symm.trans hc) Bool.false_ne_true
    have hsame : c'.closedByCaller = false := by
      obtain ⟨_, _, rfl, -⟩ := hm.frame
      exact hopen
    exact ⟨⟨h.worker hm, hsame⟩, c, c', ⟨huncancelled, fun _ => hheld⟩, hm, rfl, rfl⟩
  · intro c c' ⟨h, hopen⟩ _ hm
    have hreads : c.phase ≠ .draining := fun hp =>
      absurd (hopen.symm.trans (h.draining hp)) Bool.false_ne_true
    obtain ⟨hsame, hlt⟩ := hm.nearer hreads
    exact ⟨⟨h.reader hm, hsame.trans hopen⟩, hm.frame.1, hlt⟩

/-! ## What is to come -/

/-- Left alone, a worker writes these bytes, chunk by chunk, and then succeeds. -/
inductive Writes (act : Producer σ) (chunkSize : Nat) : σ → Bytes → Prop
  | done {s t : σ} : Supplies act chunkSize s (.finished (.ok ())) t → Writes act chunkSize s []
  | more {s t : σ} {data rest : Bytes} : Supplies act chunkSize s (.chunk data) t →
      Writes act chunkSize t rest → Writes act chunkSize s (data ++ rest)

/-- An operation that is gone on from is one that a worker can do in an open stream. -/
theorem onward_of_operate {s t : σ} (h : operate act chunkSize s = .inl t) :
    onward act chunkSize false s = some t := by
  simp only [operate] at h
  cases ha : act s with
  | write data next =>
      simp only [ha] at h
      split at h
      · next hd =>
          obtain rfl := Sum.inl.inj h
          simp [onward, ha, reply, hd]
      · cases h
  | askCancelled next | work next =>
      simp only [ha] at h
      obtain rfl := Sum.inl.inj h
      simp only [onward, ha]
  | finish | panic =>
      simp only [ha] at h
      cases h

/-- And so is one that supplies a chunk, while the end is not gone on from. -/
theorem onward_of_supply {s t : σ} {x : Supply} (h : operate act chunkSize s = .inr (x, t)) :
    ((∃ data, x = .chunk data) ∧ onward act chunkSize false s = some t)
      ∨ onward act chunkSize false s = none := by
  simp only [operate] at h
  -- what is put into the channel is accepted, and the worker goes on behind it
  cases ha : act s with
  | write data next =>
      simp only [ha] at h
      split at h
      · cases h
      · next hd =>
          obtain ⟨rfl, rfl⟩ := Prod.mk.inj (Sum.inr.inj h)
          exact Or.inl ⟨⟨_, rfl⟩, onward_accepted ha hd⟩
  | askCancelled next | work next =>
      simp only [ha] at h
      cases h
  | finish | panic => exact Or.inr (by simp only [onward, ha])

/-- A worker runs out if it does one operation later. -/
theorem RunsOut.of_onward {s t : σ} (h : onward act chunkSize false s = some t)
    (ht : RunsOut act chunkSize t) : RunsOut act chunkSize s := by
  refine Acc.intro s ?_
  intro u hu
  obtain rfl := Option.some.inj (h.symm.trans hu)
  exact ht

/-- A worker that ends after what it supplies next ends. -/
theorem Supplies.runsOut {s t : σ} {x : Supply} (h : Supplies act chunkSize s x t)
    (hlater : ∀ data, x = .chunk data → RunsOut act chunkSize t) : RunsOut act chunkSize s := by
  induction h with
  | now hnow =>
      rcases onward_of_supply hnow with ⟨⟨data, hx⟩, hon⟩ | hend
      · exact .of_onward hon (hlater data hx)
      · exact Acc.intro _ fun _ hu => nomatch hend.symm.trans hu
  | later hstep _ ih => exact .of_onward (onward_of_operate hstep) (ih hlater)

theorem Writes.runsOut {s : σ} {total : Bytes} (h : Writes act chunkSize s total) :
    RunsOut act chunkSize s := by
  induction h with
  | done hx => exact hx.runsOut fun _ hchunk => nomatch hchunk
  | more hx _ ih => exact hx.runsOut fun _ _ => ih

/-- What is to come, of an open stream: what is left of the chunk on the shelf, and what the
    worker has still to write. -/
inductive Holds (act : Producer σ) (chunkSize : Nat) (b : Shelf σ) : Bytes → Prop
  | going {rest : Bytes} : b.closed = false → b.state ≠ .closed →
      Writes act chunkSize b.place rest → Holds act chunkSize b (b.kept ++ rest)
  | ended : b.closed = false → b.state = .closed → b.kept = [] → Holds act chunkSize b []

/-- **A read takes its answer off the front of what is to come**, and gets nothing only at
    the end. -/
theorem Holds.serves {b b' : Shelf σ} {rest : Bytes} {max : Nat} {a : Answer}
    (h : Holds act chunkSize b rest) (hsize : 0 < chunkSize) (hmax : 0 < max)
    (hs : Serves act chunkSize b (.read max) a b') :
    ∃ data rest', a = .bytes data ∧ rest = data ++ rest' ∧ (data = [] ↔ rest = [])
      ∧ Holds act chunkSize b' rest' := by
  cases h with
  | @going rest hopen hstate hwrites =>
      -- with nothing kept the next chunk is waited for; else what is kept is served
      by_cases hkept : b.kept = []
      · have hnone := Shelf.ready_none hopen hmax hkept hstate
        rw [hkept, List.nil_append]
        cases hwrites with
        | done hx =>
            -- the request takes part of the chunk, and the rest of it is kept
            obtain ⟨rfl, rfl⟩ := hs.unique (.received hnone hx)
            exact ⟨[], [], rfl, rfl, Iff.rfl, .ended rfl rfl rfl⟩
        | @more _ t chunk later hx hlater =>
            have hchunk : chunk ≠ [] :=
              fun hnil => hx.chunk_ne_nil hsize (congrArg Supply.chunk hnil)
            obtain ⟨rfl, rfl⟩ := hs.unique (.received hnone hx)
            refine ⟨chunk.take max, chunk.drop max ++ later, rfl, ?_, ?_, .going rfl nofun hlater⟩
            · rw [← List.append_assoc, List.take_append_drop]
            · exact iff_of_false (take_ne_nil hmax hchunk) (List.append_ne_nil_of_left_ne_nil hchunk _)
      · obtain ⟨rfl, rfl⟩ := hs.unique (.ready (Shelf.ready_kept hopen hmax hkept))
        refine ⟨b.kept.take max, b.kept.drop max ++ rest, rfl, ?_, ?_, ?_⟩
        · rw [← List.append_assoc, List.take_append_drop]
        · exact iff_of_false (take_ne_nil hmax hkept) (List.append_ne_nil_of_left_ne_nil hkept _)
        · exact Holds.going (b := { b with kept := b.kept.drop max }) hopen hstate hwrites
  | ended hopen hstate hkept =>
      obtain ⟨rfl, rfl⟩ := hs.unique (.ready (Shelf.ready_ended hopen hmax hkept hstate))
      exact ⟨[], [], rfl, rfl, Iff.rfl, .ended hopen hstate hkept⟩

/-! ## Reads in a row -/

/-- A read of something. -/
def Request.Real (r : Request) : Prop := ∃ max, r = .read max ∧ 0 < max

/-- What reads in a row have got of some bytes, and of the end after them.  Together they
    have got the front of the bytes; each has got something, unless all came before it; and
    as many reads as there are bytes have got them all. -/
structure Taken (total : Bytes) (served : List (Request × Answer)) : Prop where
  front : delivered served <+: total
  each : ∀ earlier r a later, served = earlier ++ (r, a) :: later →
    ∃ data, a = .bytes data ∧ (data = [] ↔ delivered earlier = total)
  all : ∀ earlier later, served = earlier ++ later → total.length ≤ earlier.length →
    delivered earlier = total

/-- Nothing is taken yet. -/
theorem Taken.nil (total : Bytes) : Taken total [] where
  front := List.nil_prefix
  each := fun _ _ _ _ hsplit => absurd hsplit.symm (by simp)
  all := by
    intro earlier later hsplit hlen
    obtain ⟨rfl, -⟩ := List.append_eq_nil_iff.mp hsplit.symm
    exact (List.length_eq_zero_iff.mp (Nat.le_zero.mp hlen)).symm

/-- What was taken first stands in front. -/
theorem Taken.cons {data rest : Bytes} {served : List (Request × Answer)} {r : Request}
    (hdata : data = [] ↔ data ++ rest = []) (h : Taken rest served) :
    Taken (data ++ rest) ((r, .bytes data) :: served) where
  front := (List.prefix_append_right_inj data).mpr h.front
  each := by
    intro earlier r' a later hsplit
    cases earlier with
    | nil =>
        obtain ⟨hfirst, -⟩ := List.cons.inj hsplit
        obtain ⟨-, rfl⟩ := Prod.mk.inj hfirst
        exact ⟨data, rfl, hdata.trans eq_comm⟩
    | cons first earlier =>
        obtain ⟨rfl, hrest⟩ := List.cons.inj hsplit
        obtain ⟨piece, ha, hpiece⟩ := h.each earlier r' a later hrest
        exact ⟨piece, ha, hpiece.trans (List.append_right_inj data).symm⟩
  all := by
    intro earlier later hsplit hlen
    cases earlier with
    | nil => exact (List.length_eq_zero_iff.mp (Nat.le_zero.mp hlen)).symm
    | cons first earlier =>
        obtain ⟨rfl, hrest⟩ := List.cons.inj hsplit
        -- a read that got something leaves less for those after it
        have hless : rest.length ≤ earlier.length := by
          rw [List.length_append, List.length_cons] at hlen
          by_cases hnil : data = []
          · obtain ⟨-, rfl⟩ := List.append_eq_nil_iff.mp (hdata.mp hnil)
            exact Nat.zero_le _
          · have hpos := List.length_pos_iff.mpr hnil
            omega
        exact congrArg (data ++ ·) (h.all earlier later hrest hless)

/-- Whoever follows a stream that holds some bytes takes them in order. -/
theorem Holds.follows {b b' : Shelf σ} {vs : List View} {rest : Bytes}
    (h : Holds act chunkSize b rest) (hf : Follows act chunkSize b vs b') (hsize : 0 < chunkSize)
    (hreads : ∀ v ∈ vs, v.request.Real) : Taken rest (vs.map (·.served)) := by
  induction hf generalizing rest with
  | nil b => exact .nil rest
  | cons hserves _ ih =>
      obtain ⟨hreal, hreals⟩ := List.forall_mem_cons.mp hreads
      obtain ⟨max, rfl, hmax⟩ := hreal
      obtain ⟨data, rest', rfl, rfl, hdata, h'⟩ := h.serves hsize hmax hserves
      exact .cons hdata (ih h' hreals)

/-! ## Delivery -/

/-- A stream delivers these bytes, and then its end.  In every run of reads of something, the
    read that goes on is answered, whatever the schedule from there, and what the reads have
    got is `Taken` from the bytes. -/
structure Delivers (act : Producer σ) (chunkSize : Nat) (s : σ) (total : Bytes) : Prop where
  answered : ∀ moves l, (Ledger.spawn s).play act chunkSize moves = some l →
    (∀ r ∈ asked moves, r.Real) → Inevitable act chunkSize (fun c => c.phase = .idle) l.config
  taken : ∀ moves l, (Ledger.spawn s).play act chunkSize moves = some l →
    (∀ r ∈ asked moves, r.Real) → Taken total l.served

theorem mem_asked {r : Request} {moves : List Move} (h : .ask r ∈ moves) : r ∈ asked moves :=
  List.mem_filterMap.mpr ⟨.ask r, h, rfl⟩

/-- Reads do not close a stream. -/
theorem Ledger.play_reads {s : σ} {l : Ledger σ} {moves : List Move}
    (hp : (Ledger.spawn s).play act chunkSize moves = some l)
    (hreads : ∀ r ∈ asked moves, ∃ max, r = .read max) : l.config.closedByCaller = false := by
  have hclose : ¬ .ask .close ∈ moves := by
    intro hmem
    obtain ⟨_, hread⟩ := hreads .close (mem_asked hmem)
    exact nomatch hread
  rw [Ledger.play_closedByCaller hp, decide_eq_false hclose, Bool.or_false]
  rfl

/-- **Reads are answered**, in every schedule, if the worker runs out. -/
theorem RunsOut.answered {s : σ} (h : RunsOut act chunkSize s) {l : Ledger σ} {moves : List Move}
    (hp : (Ledger.spawn s).play act chunkSize moves = some l)
    (hreads : ∀ r ∈ asked moves, ∃ max, r = .read max) :
    Inevitable act chunkSize (fun c => c.phase = .idle) l.config := by
  have hopen := Ledger.play_reads hp hreads
  have hco : Coherent l.config := (Coherent.spawn s).play hp
  have hserved := (Served.spawn s).play (Coherent.spawn s) hp
  exact hco.answered (hserved.acc_open h (hco.uncancelled hopen)) hopen

/-- And the requests that have an answer are those that were asked. -/
theorem Ledger.views_asked {s : σ} {l : Ledger σ} {moves : List Move} {P : Request → Prop}
    (hp : (Ledger.spawn s).play act chunkSize moves = some l) (hreads : ∀ r ∈ asked moves, P r) :
    ∀ v ∈ (Ledger.spawn s).views act chunkSize moves, P v.request := by
  obtain ⟨-, hasked⟩ := Ledger.play_served hp
  intro v hv
  refine hreads v.request ?_
  have hmem : v.request ∈ (Ledger.spawn s).pending ++ asked moves := by
    rw [hasked]
    exact List.mem_append_left _ (List.mem_map_of_mem hv)
  exact hmem

/-- **A stream delivers what its worker writes.** -/
theorem Writes.delivers {s : σ} {total : Bytes} (h : Writes act chunkSize s total)
    (hsize : 0 < chunkSize) : Delivers act chunkSize s total where
  answered := by
    intro moves l hrun hreads
    exact h.runsOut.answered hrun fun r hr => (hreads r hr).imp fun _ h => h.1
  taken := by
    intro moves l hrun hreads
    obtain ⟨b, hfollows, -⟩ := (Stands.spawn s).play hsize hrun
    have hholds : Holds act chunkSize (Shelf.new s) total := .going rfl nofun h
    rw [(Ledger.play_served hrun).1]
    exact hholds.follows hfollows hsize (Ledger.views_asked hrun hreads)

/-! ## Scripts -/

/-- What is written after an operation without output is written before it too. -/
theorem Writes.later {s t : σ} {total : Bytes} (hstep : operate act chunkSize s = .inl t)
    (h : Writes act chunkSize t total) : Writes act chunkSize s total := by
  cases h with
  | done hx => exact .done (.later hstep hx)
  | more hx hrest => exact .more (.later hstep hx) hrest

/-- What a script hands over, if a buffer stands before the rest of it.  `P` tells what a
    script hands over, and is closed under operations of it. -/
theorem Script.hands_over {n m : Nat} {P : Script → Bytes → Prop} (hsize : 0 < m)
    (hlater : ∀ s t total, operate (Script.act n) m s = .inl t → P t total → P s total)
    (hmore : ∀ s t data rest, Supplies (Script.act n) m s (.chunk data) t → P t rest →
      P s (data ++ rest))
    {todo : List SinkOp} {log : List LogEntry} {rest : Bytes} (h : P ⟨todo, log⟩ rest)
    (data : Bytes) : P ⟨.writeAll data :: todo, log⟩ (data ++ rest) := by
  induction hlen : data.length using Nat.strongRecOn generalizing data with
  | _ len ih =>
      by_cases hd : data = []
      · subst hd
        exact hlater _ _ _ (by simp [operate, Script.act]) h
      · have hnow : operate (Script.act n) m ⟨.writeAll data :: todo, log⟩
            = .inr (.chunk (data.take m), ⟨.writeAll (data.drop m) :: todo, log⟩) := by
          have hdrop : data.drop (min m data.length) = data.drop m := List.drop_eq_drop_min.symm
          simp [operate, Script.act, hd, Script.afterWrite, hdrop]
        have hshorter : (data.drop m).length < len := by
          have hpos := List.length_pos_iff.mpr hd
          rw [List.length_drop]
          omega
        have hrest := ih _ hshorter (data.drop m) rfl
        have hall := hmore _ _ _ _ (.now hnow) hrest
        rwa [← List.append_assoc, List.take_append_drop] at hall

/-- **A script that writes some buffers writes all of them.** -/
theorem Script.writes_all {n m : Nat} (hsize : 0 < m) (buffers : List Bytes) (log : List LogEntry) :
    Writes (Script.act n) m ⟨buffers.map .writeAll, log⟩ buffers.flatten := by
  induction buffers with
  | nil => exact .done (.now rfl)
  | cons data rest ih =>
      exact Script.hands_over (P := Writes (Script.act n) m) hsize (fun _ _ _ => Writes.later)
        (fun _ _ _ _ => Writes.more) ih data

/-- A fresh stream of a script delivers these bytes. -/
def Scripted.Delivers (st : Scripted) (total : Bytes) : Prop :=
  ∃ s, st.config = .spawn s ∧ Stream.Delivers (Script.act st.chunkSize) st.chunkSize s total

/-- **A stream of buffers delivers them all**, for each size of a chunk. -/
theorem Scripted.spawn_delivers (n : Nat) (buffers : List Bytes) :
    (Scripted.spawn n (buffers.map .writeAll)).Delivers buffers.flatten :=
  ⟨_, rfl, (Script.writes_all (effectiveChunkSize_pos n) buffers []).delivers
    (effectiveChunkSize_pos n)⟩

end Gitwork.Stream
