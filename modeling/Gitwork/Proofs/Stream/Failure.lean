import Gitwork.Proofs.Stream.Settling

/-! # A worker that fails, and a caller that reads to the end

    A caller that wants all of a stream reads until nothing comes any more, or until a
    read fails; after an interruption it tries again (`readToEnd`).  Whether it learns that
    the worker has failed depends on the error.

    * `Left` is what a failing stream has still to tell: some bytes and the error, or that
      it is over.  Each read takes from the front of that (`Awaits.serves`), so the error
      is told once, after the last byte, and is followed by the end.
    * Hence a caller that reads to the end gets the error, unless a read before has had it
      or it reads as an interruption (`Readings.readToEnd_eq`).  Then it gets all bytes and
      an end that looks like that of a stream that has succeeded.
    * The loop of a caller makes just that of the answers of its run (`Scripted.At.readLoop`). -/

namespace Gitwork

/-- The kind of an error, as a plain reader sees it. -/
def Error.ioKind : Error → IoKind
  | .io kind _ => kind
  | _ => .other

namespace Stream

variable {σ : Type} {act : Producer σ} {chunkSize : Nat}

/-! ## Workers that fail -/

/-- Left alone, a worker writes these bytes, chunk by chunk, and then fails: it returns this
    error, or it dies. -/
inductive Fails (act : Producer σ) (chunkSize : Nat) : σ → Bytes → Error → Prop
  | returned {s t : σ} {e : Error} : Supplies act chunkSize s (.finished (.error e)) t →
      Fails act chunkSize s [] e
  | died {s t : σ} : Supplies act chunkSize s .died t → Fails act chunkSize s [] lostWorker
  | more {s t : σ} {data rest : Bytes} {e : Error} : Supplies act chunkSize s (.chunk data) t →
      Fails act chunkSize t rest e → Fails act chunkSize s (data ++ rest) e

theorem Fails.runsOut {s : σ} {total : Bytes} {e : Error} (h : Fails act chunkSize s total e) :
    RunsOut act chunkSize s := by
  induction h with
  | returned hx | died hx => exact hx.runsOut fun _ hchunk => nomatch hchunk
  | more hx _ ih => exact hx.runsOut fun _ _ => ih

/-! ## What is left to tell -/

/-- What a failing stream has still to tell its reader. -/
inductive Left
  | failing (bytes : Bytes) (e : Error)
  | done

/-- A read, with what there is to tell before and after it. -/
inductive Reading : Left → Request × Answer → Left → Prop
  | nothing (x : Left) : Reading x (.read 0, .bytes []) x
  | piece {max : Nat} {data rest : Bytes} {e : Error} : 0 < max → data ≠ [] →
      Reading (.failing (data ++ rest) e) (.read max, .bytes data) (.failing rest e)
  | failure {max : Nat} {e : Error} : 0 < max → Reading (.failing [] e) (.read max, .error e) .done
  | ended {max : Nat} : 0 < max → Reading .done (.read max, .bytes []) .done

/-- Reads in a row. -/
inductive Readings : Left → List (Request × Answer) → Left → Prop
  | nil (x : Left) : Readings x [] x
  | cons {x y z : Left} {p : Request × Answer} {later : List (Request × Answer)} :
      Reading x p y → Readings y later z → Readings x (p :: later) z

/-- What an open stream has still to tell, by its shelf. -/
inductive Awaits (act : Producer σ) (chunkSize : Nat) (b : Shelf σ) : Left → Prop
  | failing {rest : Bytes} {e : Error} : b.closed = false → b.state ≠ .closed →
      Fails act chunkSize b.place rest e → Awaits act chunkSize b (.failing (b.kept ++ rest) e)
  | done : b.closed = false → b.state = .closed → b.kept = [] → Awaits act chunkSize b .done

theorem Awaits.opened {b : Shelf σ} {x : Left} (h : Awaits act chunkSize b x) :
    b.closed = false := by
  cases h with
  | failing hopen | done hopen => exact hopen

/-- **A read takes its answer off the front of what there is to tell.** -/
theorem Awaits.serves {b b' : Shelf σ} {x : Left} {max : Nat} {a : Answer}
    (h : Awaits act chunkSize b x) (hsize : 0 < chunkSize)
    (hs : Serves act chunkSize b (.read max) a b') :
    ∃ y, Reading x (.read max, a) y ∧ Awaits act chunkSize b' y := by
  rcases Nat.eq_zero_or_pos max with rfl | hmax
  · have hready : b.ready (.read 0) = some (.bytes [], b) := by simp [Shelf.ready, h.opened]
    obtain ⟨rfl, rfl⟩ := hs.unique (.ready hready)
    exact ⟨x, .nothing x, h⟩
  cases h with
  | done hopen hstate hkept =>
      obtain ⟨rfl, rfl⟩ := hs.unique (.ready (Shelf.ready_ended hopen hmax hkept hstate))
      exact ⟨.done, .ended hmax, .done hopen hstate hkept⟩
  | @failing rest e hopen hstate hfails =>
      -- with nothing kept the next supply is waited for: a piece, or the failure
      by_cases hkept : b.kept = []
      · have hnone := Shelf.ready_none hopen hmax hkept hstate
        rw [hkept, List.nil_append]
        cases hfails with
        | returned hx | died hx =>
            obtain ⟨rfl, rfl⟩ := hs.unique (.received hnone hx)
            exact ⟨.done, .failure hmax, .done rfl rfl rfl⟩
        | @more _ t chunk later _ hx hlater =>
            have hchunk : chunk ≠ [] :=
              fun hnil => hx.chunk_ne_nil hsize (congrArg Supply.chunk hnil)
            obtain ⟨rfl, rfl⟩ := hs.unique (.received hnone hx)
            have hpiece : Reading (.failing (chunk.take max ++ (chunk.drop max ++ later)) e)
                (.read max, .bytes (chunk.take max)) (.failing (chunk.drop max ++ later) e) :=
              .piece hmax (take_ne_nil hmax hchunk)
            rw [← List.append_assoc, List.take_append_drop] at hpiece
            exact ⟨_, hpiece, .failing rfl (by simp [Shelf.receive]) hlater⟩
      · obtain ⟨rfl, rfl⟩ := hs.unique (.ready (Shelf.ready_kept hopen hmax hkept))
        have hpiece : Reading (.failing (b.kept.take max ++ (b.kept.drop max ++ rest)) e)
            (.read max, .bytes (b.kept.take max)) (.failing (b.kept.drop max ++ rest) e) :=
          .piece hmax (take_ne_nil hmax hkept)
        rw [← List.append_assoc, List.take_append_drop] at hpiece
        exact ⟨_, hpiece, .failing (b := { b with kept := b.kept.drop max }) hopen hstate hfails⟩

/-- And so do reads in a row. -/
theorem Awaits.follows {b b' : Shelf σ} {vs : List View} {x : Left}
    (h : Awaits act chunkSize b x) (hf : Follows act chunkSize b vs b') (hsize : 0 < chunkSize)
    (hreads : ∀ v ∈ vs, ∃ max, v.request = .read max) :
    ∃ y, Readings x (vs.map (·.served)) y := by
  induction hf generalizing x with
  | nil b => exact ⟨x, .nil x⟩
  | cons hserves _ ih =>
      obtain ⟨⟨max, rfl⟩, hlater⟩ := List.forall_mem_cons.mp hreads
      obtain ⟨y, hfirst, h'⟩ := h.serves hsize hserves
      obtain ⟨z, hrest⟩ := ih h' hlater
      exact ⟨z, .cons hfirst hrest⟩

/-- Readings can be split where their requests can. -/
theorem Readings.of_append {x z : Left} {earlier later : List (Request × Answer)}
    (h : Readings x (earlier ++ later) z) :
    ∃ y, Readings x earlier y ∧ Readings y later z := by
  induction earlier generalizing x with
  | nil => exact ⟨x, .nil x, h⟩
  | cons p rest ih =>
      cases h with
      | cons hfirst hrest =>
          obtain ⟨y, hearlier, hlater⟩ := ih hrest
          exact ⟨y, .cons hfirst hearlier, hlater⟩

/-- The bytes of what there is to tell. -/
def Left.bytes : Left → Bytes
  | .failing bytes _ => bytes
  | .done => []

/-- No byte is lost. -/
theorem Readings.delivered_append {x y : Left} {served : List (Request × Answer)}
    (h : Readings x served y) : delivered served ++ y.bytes = x.bytes := by
  induction h with
  | nil x => rfl
  | cons hfirst _ ih =>
      cases hfirst with
      | nothing | failure | ended => exact ih
      | piece _ _ => exact (List.append_assoc _ _ _).trans (congrArg (_ ++ ·) ih)

/-! ## The error is told once -/

/-- A first answer that is no error leaves the failure to the later ones. -/
theorem failed_cons {r : Request} {a : Answer} {later : List (Request × Answer)} :
    Failed ((r, a) :: later) ↔ (∃ e, a = .error e) ∨ Failed later := by
  constructor
  · rintro ⟨r', e, hmem⟩
    rcases List.mem_cons.mp hmem with hhead | htail
    · exact Or.inl ⟨e, (Prod.mk.inj hhead).2.symm⟩
    · exact Or.inr ⟨r', e, htail⟩
  · rintro (⟨e, rfl⟩ | ⟨r', e, htail⟩)
    · exact ⟨r, e, List.mem_cons_self⟩
    · exact ⟨r', e, List.mem_cons_of_mem _ htail⟩

/-- Once it is over nothing fails any more. -/
theorem Readings.of_done {y : Left} {served : List (Request × Answer)}
    (h : Readings .done served y) : y = .done ∧ ¬ Failed served := by
  induction served with
  | nil =>
      cases h with
      | nil => exact ⟨rfl, fun ⟨_, _, hmem⟩ => absurd hmem List.not_mem_nil⟩
  | cons p later ih =>
      cases h with
      | cons hfirst hrest =>
          cases hfirst with
          | nothing | ended =>
              obtain ⟨hy, hnone⟩ := ih hrest
              refine ⟨hy, fun hfailed => ?_⟩
              rcases failed_cons.mp hfailed with ⟨_, ha⟩ | hlater
              · cases ha
              · exact hnone hlater

/-- The error is left to tell, or a read has had it and it is over. -/
theorem Readings.told {bytes : Bytes} {e : Error} {y : Left} {served : List (Request × Answer)}
    (h : Readings (.failing bytes e) served y) :
    (∀ r e', (r, .error e') ∈ served → e' = e)
      ∧ ((¬ Failed served ∧ ∃ rest, y = .failing rest e) ∨ (Failed served ∧ y = .done)) := by
  induction served generalizing bytes with
  | nil =>
      cases h with
      | nil =>
          exact ⟨fun _ _ hmem => absurd hmem List.not_mem_nil,
            Or.inl ⟨fun ⟨_, _, hmem⟩ => absurd hmem List.not_mem_nil, bytes, rfl⟩⟩
  | cons p later ih =>
      cases h with
      | cons hfirst hrest =>
          cases hfirst with
          | nothing | piece =>
              obtain ⟨hsame, hstands⟩ := ih hrest
              refine ⟨?_, ?_⟩
              · intro r e' hmem
                rcases List.mem_cons.mp hmem with hhead | htail
                · cases (Prod.mk.inj hhead).2
                · exact hsame r e' htail
              · simpa only [failed_cons, reduceCtorEq, exists_false, false_or] using hstands
          -- the failure is told, and from there on the stream has ended
          | failure =>
              obtain ⟨rfl, hnone⟩ := hrest.of_done
              refine ⟨?_, Or.inr ⟨failed_cons.mpr (Or.inl ⟨e, rfl⟩), rfl⟩⟩
              intro r e' hmem
              rcases List.mem_cons.mp hmem with hhead | htail
              · exact Answer.error.inj (Prod.mk.inj hhead).2
              · exact absurd ⟨r, e', htail⟩ hnone

/-! ## Reading to the end -/

/-- What a caller that reads to the end makes of the answers: the bytes it gets, and whether
    it gets an error.  `none` says that it goes on reading. -/
def readToEnd : List Answer → Option (Bytes × Except Error Unit)
  | [] => none
  | .bytes data :: later =>
    if data = [] then some ([], .ok ())
    else (readToEnd later).map fun got => (data ++ got.1, got.2)
  | .error e :: later =>
    if e.ioKind = .interrupted then readToEnd later else some ([], .error e)
  | .closed :: _ => some ([], .ok ())

/-- What it makes of what there is to tell. -/
def Left.outcome : Left → Bytes × Except Error Unit
  | .failing bytes e => (bytes, if e.ioKind = .interrupted then .ok () else .error e)
  | .done => ([], .ok ())

/-- A caller that reads to the end and gets there gets what there is to tell. -/
theorem Readings.readToEnd_eq {x y : Left} {served : List (Request × Answer)}
    (h : Readings x served y) (hreal : ∀ p ∈ served, p.1.Real) {got : Bytes × Except Error Unit}
    (hgot : readToEnd (served.map (·.2)) = some got) : got = x.outcome := by
  induction h generalizing got with
  | nil x => cases hgot
  | cons hfirst _ ih =>
      obtain ⟨⟨max, hmax, hpos⟩, hlater⟩ := List.forall_mem_cons.mp hreal
      cases hfirst with
      | nothing =>
          cases hmax
          exact absurd hpos (Nat.lt_irrefl 0)
      | piece _ hdata =>
          simp only [List.map_cons, readToEnd, if_neg hdata] at hgot
          obtain ⟨rest, hrest, rfl⟩ := Option.map_eq_some_iff.mp hgot
          obtain rfl := ih hlater hrest
          rfl
      | @failure _ e _ =>
          -- a read that was interrupted is made again, and finds the end
          by_cases hkind : e.ioKind = .interrupted
          · simp only [List.map_cons, readToEnd, if_pos hkind] at hgot
            obtain rfl := ih hlater hgot
            simp only [Left.outcome, if_pos hkind]
          · simp only [List.map_cons, readToEnd, if_neg hkind] at hgot
            obtain rfl := Option.some.inj hgot
            simp only [Left.outcome, if_neg hkind]
      | ended =>
          simp only [List.map_cons, readToEnd, if_true] at hgot
          exact (Option.some.inj hgot).symm

/-- The number of reads that get to the end for sure. -/
def Left.reads : Left → Nat
  | .failing bytes _ => bytes.length + 2
  | .done => 1

/-- And with that many reads it gets there. -/
theorem Readings.readToEnd_isSome {x y : Left} {served : List (Request × Answer)}
    (h : Readings x served y) (hreal : ∀ p ∈ served, p.1.Real)
    (henough : x.reads ≤ served.length) : (readToEnd (served.map (·.2))).isSome := by
  induction h with
  | nil x => cases x <;> simp [Left.reads] at henough
  | cons hfirst _ ih =>
      obtain ⟨⟨max, hmax, hpos⟩, hlater⟩ := List.forall_mem_cons.mp hreal
      rw [List.length_cons] at henough
      cases hfirst with
      | nothing =>
          cases hmax
          exact absurd hpos (Nat.lt_irrefl 0)
      | @piece _ data rest e _ hdata =>
          simp only [List.map_cons, readToEnd, if_neg hdata, Option.isSome_map]
          refine ih hlater ?_
          have hlen := List.length_pos_iff.mpr hdata
          simp only [Left.reads, List.length_append] at henough ⊢
          omega
      | @failure _ e _ =>
          simp only [List.map_cons, readToEnd]
          by_cases hkind : e.ioKind = .interrupted
          · rw [if_pos hkind]
            refine ih hlater ?_
            simp only [Left.reads, List.length_nil] at henough ⊢
            omega
          · rw [if_neg hkind]
            rfl
      | ended => rfl

/-! ## A failing worker -/

/-- **What a caller learns of a worker that fails.**  In every run of reads, a read that goes
    on is answered, and every error that a read gets is that of the worker.  A caller that
    reads to the end gets there in as many reads as there are bytes left, and two more; it
    gets the bytes that no read before has got, and the error, unless a read before has got
    it or it reads as an interruption. -/
theorem Fails.told {s : σ} {total : Bytes} {e : Error} (h : Fails act chunkSize s total e)
    (hsize : 0 < chunkSize) {moves : List Move} {l : Ledger σ}
    (hrun : (Ledger.spawn s).play act chunkSize moves = some l)
    (hreads : ∀ r ∈ asked moves, ∃ max, r = .read max) :
    Inevitable act chunkSize (fun c => c.phase = .idle) l.config
    ∧ (∀ r e', (r, .error e') ∈ l.served → e' = e)
    ∧ ∀ earlier later, l.served = earlier ++ later → (∀ p ∈ later, p.1.Real) →
      (total.length + 2 ≤ (delivered earlier).length + later.length →
        (readToEnd (later.map (·.2))).isSome)
      ∧ ∀ content result, readToEnd (later.map (·.2)) = some (content, result) →
        delivered earlier ++ content = total
        ∧ (result = .error e ↔ ¬ Failed earlier ∧ e.ioKind ≠ .interrupted)
        ∧ (result = .ok () ↔ Failed earlier ∨ e.ioKind = .interrupted) := by
  -- the run follows the shelf, and the shelf awaits the failure
  obtain ⟨b, hfollows, -⟩ := (Stands.spawn s).play hsize hrun
  have hawaits : Awaits act chunkSize (Shelf.new s) (.failing total e) := .failing rfl nofun h
  obtain ⟨z, hall⟩ := hawaits.follows hfollows hsize (Ledger.views_asked hrun hreads)
  have hserved : l.served = ((Ledger.spawn s).views act chunkSize moves).map (·.served) :=
    (Ledger.play_served hrun).1
  rw [← hserved] at hall
  refine ⟨h.runsOut.answered hrun hreads, hall.told.1, ?_⟩
  intro earlier later hsplit hreal
  rw [hsplit] at hall
  obtain ⟨y, hearlier, hlater⟩ := hall.of_append
  have hbytes : delivered earlier ++ y.bytes = total := hearlier.delivered_append
  refine ⟨?_, ?_⟩
  · -- each read gets a byte, the failure, or the end
    intro henough
    refine hlater.readToEnd_isSome hreal ?_
    have hlen := congrArg List.length hbytes
    rw [List.length_append] at hlen
    cases y with
    | failing rest _ =>
        simp only [Left.reads, Left.bytes] at hlen ⊢
        omega
    | done =>
        simp only [Left.reads, Left.bytes, List.length_nil] at hlen ⊢
        omega
  · intro content result hgot
    have hgot := hlater.readToEnd_eq hreal hgot
    -- the earlier reads have met the failure, or left it to the later ones
    rcases hearlier.told.2 with ⟨hnone, rest, rfl⟩ | ⟨hfailed, rfl⟩
    · obtain ⟨rfl, rfl⟩ := Prod.mk.inj hgot
      refine ⟨hbytes, ?_, ?_⟩
      · by_cases hkind : e.ioKind = .interrupted <;> simp [hkind, hnone]
      · by_cases hkind : e.ioKind = .interrupted <;> simp [hkind, hnone]
    · obtain ⟨rfl, rfl⟩ := Prod.mk.inj hgot
      exact ⟨hbytes, iff_of_false nofun fun hx => hx.1 hfailed, iff_of_true rfl (Or.inl hfailed)⟩

/-! ## Failing scripts -/

/-- A worker fails one operation earlier as well. -/
theorem Fails.later {s t : σ} {total : Bytes} {e : Error}
    (hstep : operate act chunkSize s = .inl t) (h : Fails act chunkSize t total e) :
    Fails act chunkSize s total e := by
  cases h with
  | returned hx => exact .returned (.later hstep hx)
  | died hx => exact .died (.later hstep hx)
  | more hx hrest => exact .more (.later hstep hx) hrest

/-- **A script that writes some buffers and returns an error writes all of them, and fails.** -/
theorem Script.fails_all {n m : Nat} (hsize : 0 < m) (buffers : List Bytes) (e : Error)
    (after : List SinkOp) (log : List LogEntry) :
    Fails (Script.act n) m ⟨buffers.map .writeAll ++ .fail e :: after, log⟩ buffers.flatten e := by
  induction buffers with
  | nil => exact .returned (.now rfl)
  | cons data rest ih =>
      exact Script.hands_over (P := fun s total => Fails (Script.act n) m s total e) hsize
        (fun _ _ _ => Fails.later) (fun _ _ _ _ => Fails.more) ih data

/-- A script that fails writes no more than its size. -/
theorem Fails.length_le_size {n : Nat} {s : Script} {total : Bytes} {e : Error}
    (h : Fails (Script.act n) chunkSize s total e) : total.length ≤ s.size := by
  induction h with
  | returned | died => exact Nat.zero_le _
  | @more s t data rest e hx hrest ih =>
      have hpart := Script.size_supplies (Fails.more hx hrest).runsOut hx
      rw [List.length_append]
      omega

namespace Scripted

/-- The loop goes on as long as it gets something. -/
theorem readLoop_ok {st st' : Scripted} {step fuel : Nat} {acc : List Bytes} {piece : Bytes}
    (h : st.read step = (.ok piece, st')) :
    readLoop step true (fuel + 1) st acc
      = if piece = [] then (acc.reverse, none, st')
        else readLoop step true fuel st' (piece :: acc) := by
  rw [Scripted.readLoop, h]

/-- The loop is stopped by an error, unless it was interrupted. -/
theorem readLoop_error {st st' : Scripted} {step fuel : Nat} {acc : List Bytes} {e : Error}
    (h : st.read step = (.error e, st')) :
    readLoop step true (fuel + 1) st acc
      = if e.ioKind = .interrupted then readLoop step true fuel st' acc
        else (acc.reverse, some e, st') := by
  rw [Scripted.readLoop, h]
  cases e with
  | io kind _ => cases kind <;> rfl
  | _ => rfl

/-- **The loop of a caller reads to the end**: what it gives is what the answers of a run come
    to, unless it has not been let go on. -/
theorem At.readLoop {s : Script} {st : Scripted} {l : Ledger Script} (h : At s st l)
    (step fuel : Nat) (acc : List Bytes) :
    ∃ later k pieces failed,
      readLoop step true fuel st acc
        = (acc.reverse ++ pieces, failed, { st with config := k.config })
      ∧ At s { st with config := k.config } k ∧ k.served = l.served ++ later
      ∧ (∀ p ∈ later, p.1 = .read step)
      ∧ (readToEnd (later.map (·.2)) = some (pieces.flatten, failed.elim (.ok ()) .error)
        ∨ (readToEnd (later.map (·.2)) = none ∧ later.length = fuel)) := by
  induction fuel generalizing st l acc with
  | zero =>
      refine ⟨[], l, [], none, ?_, h.config ▸ h, (List.append_nil _).symm,
        fun _ hp => absurd hp List.not_mem_nil, Or.inr ⟨rfl, rfl⟩⟩
      rw [Scripted.readLoop, List.append_nil, ← h.config]
  | succ fuel ih =>
      obtain ⟨a, j, hread, hj, hone⟩ := h.read step
      have hlast : ∀ p ∈ [(Request.read step, a)], p.1 = .read step :=
        fun p hp => List.mem_singleton.mp hp ▸ rfl
      have hbooks : ∀ {k : Ledger Script} {later : List (Request × Answer)},
          k.served = j.served ++ later → k.served = l.served ++ (.read step, a) :: later := by
        intro k later hk
        rw [hk, hone, List.append_assoc]
        rfl
      cases a with
      -- an empty piece ends the loop, and a closed stream answers with one
      | closed =>
          exact ⟨_, j, [], none, by rw [readLoop_ok hread, if_pos rfl, List.append_nil], hj, hone,
            hlast, Or.inl rfl⟩
      | bytes data =>
          by_cases hd : data = []
          · subst hd
            exact ⟨_, j, [], none, by rw [readLoop_ok hread, if_pos rfl, List.append_nil], hj, hone,
              hlast, Or.inl rfl⟩
          · obtain ⟨later, k, pieces, failed, hloop, hk, hserved, hsteps, hends⟩ := ih hj (data :: acc)
            refine ⟨_, k, data :: pieces, failed, ?_, hk, hbooks hserved,
              List.forall_mem_cons.mpr ⟨rfl, hsteps⟩, ?_⟩
            · rw [readLoop_ok hread, if_neg hd, hloop, List.reverse_cons, List.append_assoc]
              rfl
            · simp only [List.map_cons, readToEnd, if_neg hd, List.length_cons]
              rcases hends with hsome | ⟨hnone, hlen⟩
              · exact Or.inl (by rw [hsome]; rfl)
              · exact Or.inr ⟨by rw [hnone]; rfl, congrArg (· + 1) hlen⟩
      | error e =>
          by_cases hkind : e.ioKind = .interrupted
          · -- the interrupted read leaves no trace in what the loop returns
            obtain ⟨later, k, pieces, failed, hloop, hk, hserved, hsteps, hends⟩ := ih hj acc
            refine ⟨_, k, pieces, failed, ?_, hk, hbooks hserved,
              List.forall_mem_cons.mpr ⟨rfl, hsteps⟩, ?_⟩
            · rw [readLoop_error hread, if_pos hkind, hloop]
            · simp only [List.map_cons, readToEnd, if_pos hkind, List.length_cons]
              exact hends.imp_right fun ⟨hnone, hlen⟩ => ⟨hnone, congrArg (· + 1) hlen⟩
          · refine ⟨_, j, [], some e, ?_, hj, hone, hlast, Or.inl ?_⟩
            · rw [readLoop_error hread, if_neg hkind, List.append_nil]
            · simp only [List.map_cons, readToEnd, if_neg hkind]
              rfl

/-- The bytes that some reads have got. -/
def bytesGot (got : List (Except Error Bytes)) : Bytes := got.flatMap fun x => x.toOption.getD []

/-- The bytes of some results are those of their answers. -/
theorem bytesGot_results (served : List (Request × Answer)) :
    bytesGot (served.map (·.2.result)) = delivered served := by
  rw [bytesGot, delivered, List.flatMap_map]
  congr 1
  funext x
  cases x.2 <;> rfl

/-- An error is among the results exactly if some read has failed. -/
theorem error_mem_results {served : List (Request × Answer)} {e : Error}
    (hall : ∀ r e', (r, .error e') ∈ served → e' = e) :
    .error e ∈ served.map (·.2.result) ↔ Failed served := by
  rw [List.mem_map]
  constructor
  · rintro ⟨⟨r, a⟩, hmem, ha⟩
    cases a with
    | error e' => exact ⟨r, e', hmem⟩
    | bytes | closed => exact nomatch ha
  · rintro ⟨r, e', hmem⟩
    exact ⟨(r, .error e'), hmem, congrArg _ (hall r e' hmem)⟩

/-- **Draining a failing script**, after some reads. -/
theorem drain_told {n : Nat} {ops : List SinkOp} {total : Bytes} {e : Error}
    (h : Fails (Script.act (effectiveChunkSize n)) (effectiveChunkSize n) (.ofOps ops) total e)
    (sizes : List Nat) :
    ∃ got st pieces failed st', (Scripted.spawn n ops).reads sizes = (got, st)
      ∧ st.drain = (pieces, failed, st')
      ∧ bytesGot got ++ pieces.flatten = total
      ∧ (failed = some e ↔ .error e ∉ got ∧ e.ioKind ≠ .interrupted)
      ∧ (failed = none ↔ .error e ∈ got ∨ e.ioKind = .interrupted) := by
  -- the separate reads come first, and the loop reads what they have left
  obtain ⟨earlier, l, hreads, hl, hearlier⟩ := (At.spawn h.runsOut).reads sizes
  obtain ⟨later, k, pieces, failed, hdrain, hk, hlater, hsteps, hends⟩ :=
    hl.readLoop 8192 ((Script.ofOps ops).size + 4) []
  obtain ⟨moves, hrun, hasked⟩ := hk.runs
  obtain ⟨-, hsame, hafter⟩ := h.told hl.sized hrun hasked
  have hsplit : k.served = earlier ++ later := by
    rw [hlater, hearlier]
    rfl
  have hreal : ∀ p ∈ later, p.1.Real := fun p hp => ⟨8192, hsteps p hp, by decide⟩
  obtain ⟨henough, hgets⟩ := hafter earlier later hsplit hreal
  refine ⟨_, _, _, _, _, hreads, hdrain, ?_⟩
  rcases hends with hgot | ⟨hnone, hlen⟩
  · obtain ⟨hbytes, herror, hok⟩ := hgets _ _ hgot
    have hfailed : .error e ∈ earlier.map (·.2.result) ↔ Failed earlier :=
      error_mem_results fun r e' hmem => hsame r e' (hsplit ▸ List.mem_append_left _ hmem)
    rw [bytesGot_results, hfailed]
    refine ⟨hbytes, ?_, ?_⟩
    · refine Iff.trans ?_ herror
      cases failed <;> simp
    · refine Iff.trans ?_ hok
      cases failed <;> simp
  · -- the script has no more to write than the loop allows for
    have hsize : total.length ≤ (Script.ofOps ops).size := h.length_le_size
    have hsome := henough (by omega)
    exact absurd hsome (by simp [hnone])

end Scripted

/-! ## What a caller is told -/

/-- **What a caller is told of a worker that fails.**  Left alone, the worker writes some bytes
    and fails with an error.  Let the caller read, any sizes, in any schedule: a read that
    goes on is answered, and every error that a read gets is that of the worker.  Let it
    read to the end from some point on, with reads of something:

    * it gets to the end in as many reads as there are bytes left, and two more;
    * it gets the bytes that no read before has got;
    * it gets the error, unless a read before has got it or it reads as an interruption;
    * and in these two cases, and no other, it is told that all went well.

    So it is, in its own schedule, for the loop of a caller that drains a script after some
    reads. -/
theorem failure_told (n : Nat) :
    (∀ {σ : Type} (act : Producer σ) (s : σ) (total : Bytes) (e : Error),
      Fails act (effectiveChunkSize n) s total e → ∀ (moves : List Move) (l : Ledger σ),
      (Ledger.spawn s).play act (effectiveChunkSize n) moves = some l →
      (∀ r ∈ asked moves, ∃ max, r = .read max) →
      Inevitable act (effectiveChunkSize n) (fun c => c.phase = .idle) l.config
      ∧ (∀ r e', (r, .error e') ∈ l.served → e' = e)
      ∧ ∀ earlier later, l.served = earlier ++ later → (∀ p ∈ later, p.1.Real) →
        (total.length + 2 ≤ (delivered earlier).length + later.length →
          (readToEnd (later.map (·.2))).isSome)
        ∧ ∀ content result, readToEnd (later.map (·.2)) = some (content, result) →
          delivered earlier ++ content = total
          ∧ (result = .error e ↔ ¬ Failed earlier ∧ e.ioKind ≠ .interrupted)
          ∧ (result = .ok () ↔ Failed earlier ∨ e.ioKind = .interrupted))
    ∧ ∀ (ops : List SinkOp) (total : Bytes) (e : Error),
      Fails (Script.act (effectiveChunkSize n)) (effectiveChunkSize n) (.ofOps ops) total e →
      ∀ sizes, ∃ got st pieces failed st', (Scripted.spawn n ops).reads sizes = (got, st)
        ∧ st.drain = (pieces, failed, st')
        ∧ Scripted.bytesGot got ++ pieces.flatten = total
        ∧ (failed = some e ↔ .error e ∉ got ∧ e.ioKind ≠ .interrupted)
        ∧ (failed = none ↔ .error e ∈ got ∨ e.ioKind = .interrupted) :=
  ⟨fun _ _ _ _ h _ _ hrun hreads => h.told (effectiveChunkSize_pos n) hrun hreads,
    fun _ _ _ h sizes => Scripted.drain_told h sizes⟩

/-- The reads of `unevenReads` that come to an end. -/
def lastReads : List (Request × Answer) :=
  [(.read 9, .bytes [2]), (.read 9, .bytes [3]), (.read 9, .error .streamClosed)]

/-- A worker that writes three bytes and fails: after a read of nothing and one of a byte, the
    rest and the error are left, for any caller and for the loop. -/
theorem failure_told_unevenReads :
    (∃ l, (Ledger.spawn failingScript).play (Script.act 2) (effectiveChunkSize 2) unevenReads = some l
      ∧ l.served = [(.read 0, .bytes []), (.read 1, .bytes [1])] ++ lastReads
      ∧ readToEnd (lastReads.map (·.2)) = some ([2, 3], .error .streamClosed)
      ∧ delivered [(.read 0, .bytes []), (.read 1, .bytes [1])] ++ [2, 3] = [1, 2, 3])
    ∧ ∃ got st pieces failed st',
      (Scripted.spawn 2 failingScript.todo).reads [0, 1] = (got, st)
        ∧ st.drain = (pieces, failed, st')
        ∧ Scripted.bytesGot got ++ pieces.flatten = [1, 2, 3]
        ∧ (failed = some .streamClosed ↔ .error .streamClosed ∉ got) := by
  have hfails : Fails (Script.act 2) (effectiveChunkSize 2) failingScript [1, 2, 3] .streamClosed :=
    Script.fails_all (by decide) [[1, 2, 3]] .streamClosed [] []
  constructor
  · refine ⟨_, rfl, rfl, rfl, ?_⟩
    have hrun : (Ledger.spawn failingScript).play (Script.act 2) (effectiveChunkSize 2) unevenReads
        = some _ := rfl
    have hreads : ∀ r ∈ asked unevenReads, ∃ max, r = .read max := by simp [asked, unevenReads]
    have hreal : ∀ p ∈ lastReads, p.1.Real := by simp [lastReads, Request.Real]
    obtain ⟨-, -, hafter⟩ :=
      (failure_told 2).1 (Script.act 2) failingScript _ _ hfails unevenReads _ hrun hreads
    exact ((hafter _ lastReads rfl hreal).2 [2, 3] (.error .streamClosed) rfl).1
  · obtain ⟨got, st, pieces, failed, st', hgot, hdrain, hbytes, herror, -⟩ :=
      (failure_told 2).2 failingScript.todo _ _ hfails [0, 1]
    exact ⟨got, st, pieces, failed, st', hgot, hdrain, hbytes,
      herror.trans (and_iff_left (by decide))⟩

/-- An error like any other. -/
def failedFilter : Error := .io .other "filter failed"

/-- An error that reads as an interruption. -/
def signal : Error := .io .interrupted "signal"

/-- **A stream forgets that its worker has failed** once it has told the error.

    Two reads get the two bytes that were written and the error; a caller that
    then reads to the end gets nothing, and an end like that of a stream that
    succeeded.  If the error reads as an interruption the caller makes that
    second attempt by itself: it gets the bytes, and then such an end. -/
theorem failure_forgotten :
    (Fails (Script.act 4) (effectiveChunkSize 4) (.ofOps [.writeAll [111, 107], .fail failedFilter])
        [111, 107] failedFilter
      ∧ ((Scripted.spawn 4 [.writeAll [111, 107], .fail failedFilter]).reads [10, 10]).1
        = [.ok [111, 107], .error failedFilter]
      ∧ ((Scripted.spawn 4 [.writeAll [111, 107], .fail failedFilter]).reads [10, 10]).2.drain.1 = []
      ∧ ((Scripted.spawn 4 [.writeAll [111, 107], .fail failedFilter]).reads [10, 10]).2.drain.2.1
        = none)
    ∧ Fails (Script.act 4) (effectiveChunkSize 4) (.ofOps [.writeAll [111, 107], .fail signal])
        [111, 107] signal
      ∧ (Scripted.spawn 4 [.writeAll [111, 107], .fail signal]).drain.1 = [[111, 107]]
      ∧ (Scripted.spawn 4 [.writeAll [111, 107], .fail signal]).drain.2.1 = none :=
  ⟨⟨Script.fails_all (by decide) [[111, 107]] failedFilter [] [], rfl, rfl, rfl⟩,
    Script.fails_all (by decide) [[111, 107]] signal [] [], rfl, rfl⟩

end Stream

end Gitwork
