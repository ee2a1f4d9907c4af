import Gitwork.Proofs.Stream.Obliging

/-! # What a worker supplies, and what a reader makes of it

    Here nobody has to wait for anybody.  A worker that is left alone goes on until
    it supplies something: a chunk, its result, or its death (`Supplies`).  A reader
    keeps a shelf with what is left of a chunk; it answers a request from the shelf,
    or takes what the worker supplies next and answers with that (`Serves`).

    No schedule occurs in this.  Both are deterministic (`Supplies.unique`,
    `Serves.unique`), so the requests alone tell what the reader sees
    (`Follows.further`).  That every schedule of the two sides leads to the same is
    shown elsewhere. -/

namespace Gitwork.Stream

variable {σ : Type} {act : Producer σ} {chunkSize : Nat}

/-! ## The worker -/

theorem effectiveChunkSize_pos (n : Nat) : 0 < effectiveChunkSize n := Nat.le_max_right n 1

/-- What a worker can supply. -/
inductive Supply
  | chunk (data : Bytes)
  | finished (result : Except Error Unit)
  | died

/-- The next operation of a worker, in a stream that is not cancelled: it goes on,
    or supplies something. -/
def operate (act : Producer σ) (chunkSize : Nat) (s : σ) : σ ⊕ (Supply × σ) :=
  match act s with
  | .write data next =>
    if data = [] then .inl (next (.accepted 0))
    else .inr (.chunk (data.take chunkSize), next (.accepted (data.take chunkSize).length))
  | .askCancelled next => .inl (next false)
  | .work t => .inl t
  | .finish r => .inr (.finished r, s)
  | .panic => .inr (.died, s)

/-- A worker goes on from one state to another and supplies nothing. -/
def GoesOn (act : Producer σ) (chunkSize : Nat) : σ → σ → Prop :=
  Relation.ReflTransGen fun s t => operate act chunkSize s = .inl t

/-- What a worker supplies next, and its state after that. -/
inductive Supplies (act : Producer σ) (chunkSize : Nat) : σ → Supply → σ → Prop
  | now {s t : σ} {x : Supply} : operate act chunkSize s = .inr (x, t) →
      Supplies act chunkSize s x t
  | later {s t u : σ} {x : Supply} : operate act chunkSize s = .inl u →
      Supplies act chunkSize u x t → Supplies act chunkSize s x t

/-- What is supplied later on is supplied. -/
theorem GoesOn.supplies {s t u : σ} {x : Supply} (h : GoesOn act chunkSize s u)
    (hx : Supplies act chunkSize u x t) : Supplies act chunkSize s x t := by
  induction h using Relation.ReflTransGen.head_induction_on with
  | refl => exact hx
  | head hstep _ ih => exact .later hstep ih

/-- A worker supplies one thing next. -/
theorem Supplies.unique {s t t' : σ} {x x' : Supply} (h : Supplies act chunkSize s x t)
    (h' : Supplies act chunkSize s x' t') : x = x' ∧ t = t' := by
  induction h with
  | now hnow =>
      cases h' with
      | now hnow' =>
          rw [hnow] at hnow'
          cases hnow'
          exact ⟨rfl, rfl⟩
      | later hlater' =>
          rw [hnow] at hlater'
          cases hlater'
  | later hlater _ ih =>
      cases h' with
      | now hnow' =>
          rw [hlater] at hnow'
          cases hnow'
      | later hlater' hx' =>
          rw [hlater] at hlater'
          cases hlater'
          exact ih hx'

/-- A chunk is never empty. -/
theorem Supplies.chunk_ne_nil {s t : σ} {x : Supply} (hsize : 0 < chunkSize)
    (h : Supplies act chunkSize s x t) : x ≠ .chunk [] := by
  induction h with
  | later _ _ ih => exact ih
  | @now s t x hnow =>
      rintro rfl
      simp only [operate] at hnow
      cases ha : act s with
      | write data next =>
          simp only [ha] at hnow
          by_cases hd : data = []
          · rw [if_pos hd] at hnow
            cases hnow
          · rw [if_neg hd] at hnow
            have hempty : data.take chunkSize = [] := by
              injection hnow with hnow
              injection hnow with hnow
              injection hnow
            exact take_ne_nil hsize hd hempty
      | askCancelled | work | finish | panic =>
          simp only [ha] at hnow
          cases hnow

/-! ## The reader -/

/-- What a reader has, between two requests. -/
structure Shelf (σ : Type) where
  /-- Where the worker was when it had supplied what the reader took last. -/
  place : σ
  /-- What is left of the present chunk. -/
  kept : Bytes
  state : State
  /-- The reader has closed the stream. -/
  closed : Bool

namespace Shelf

def new (s : σ) : Shelf σ := ⟨s, [], .starting, false⟩

/-- The shelf of a reader that has closed the stream. -/
def shut (b : Shelf σ) : Shelf σ := { b with kept := [], state := .closed, closed := true }

/-- The answer that a reader has ready, and the shelf after it. -/
def ready (b : Shelf σ) : Request → Option (Answer × Shelf σ)
  | .close => some (.closed, b.shut)
  | .read max =>
    if b.closed then some (.error .streamClosed, b)
    else if max = 0 then some (.bytes [], b)
    else if b.kept ≠ [] then some (.bytes (b.kept.take max), { b with kept := b.kept.drop max })
    else if b.state = .closed then some (.bytes [], b)
    else none

/-- The shelf when the worker has ended in a state. -/
def done (t : σ) : Shelf σ := ⟨t, [], .closed, false⟩

/-- The answer to a read of something that was supplied, and the shelf after it. -/
def receive (max : Nat) (t : σ) : Supply → Answer × Shelf σ
  | .chunk data => (.bytes (data.take max), ⟨t, data.drop max, .streaming, false⟩)
  | .finished (.ok ()) => (.bytes [], done t)
  | .finished (.error e) => (.error e, done t)
  | .died => (.error (.io .unexpectedEof lostWorkerText), done t)

end Shelf

/-- A request is answered. -/
inductive Serves (act : Producer σ) (chunkSize : Nat) :
    Shelf σ → Request → Answer → Shelf σ → Prop
  | ready {b b' : Shelf σ} {r : Request} {a : Answer} : b.ready r = some (a, b') →
      Serves act chunkSize b r a b'
  | received {b : Shelf σ} {max : Nat} {x : Supply} {t : σ} : b.ready (.read max) = none →
      Supplies act chunkSize b.place x t →
      Serves act chunkSize b (.read max) (Shelf.receive max t x).1 (Shelf.receive max t x).2

/-- A request has one answer. -/
theorem Serves.unique {b b₁ b₂ : Shelf σ} {r : Request} {a₁ a₂ : Answer}
    (h₁ : Serves act chunkSize b r a₁ b₁) (h₂ : Serves act chunkSize b r a₂ b₂) :
    a₁ = a₂ ∧ b₁ = b₂ := by
  cases h₁ with
  | ready hready₁ =>
      cases h₂ with
      | ready hready₂ =>
          rw [hready₁] at hready₂
          cases hready₂
          exact ⟨rfl, rfl⟩
      | received hnone =>
          rw [hready₁] at hnone
          cases hnone
  | received hnone hx₁ =>
      cases h₂ with
      | ready hready₂ =>
          rw [hnone] at hready₂
          cases hready₂
      | received _ hx₂ =>
          obtain ⟨rfl, rfl⟩ := hx₁.unique hx₂
          exact ⟨rfl, rfl⟩

/-! ### What a shelf has ready -/

/-- A read is served from what is kept. -/
theorem Shelf.ready_kept {b : Shelf σ} {max : Nat} (hopen : b.closed = false) (hmax : 0 < max)
    (hkept : b.kept ≠ []) :
    b.ready (.read max) = some (.bytes (b.kept.take max), { b with kept := b.kept.drop max }) := by
  simp [Shelf.ready, hopen, Nat.ne_of_gt hmax, hkept]

/-- A read of a stream that has ended gets nothing. -/
theorem Shelf.ready_ended {b : Shelf σ} {max : Nat} (hopen : b.closed = false) (hmax : 0 < max)
    (hkept : b.kept = []) (hstate : b.state = .closed) :
    b.ready (.read max) = some (.bytes [], b) := by
  simp [Shelf.ready, hopen, Nat.ne_of_gt hmax, hkept, hstate]

/-- A read has to wait if nothing is kept and the stream goes on. -/
theorem Shelf.ready_none {b : Shelf σ} {max : Nat} (hopen : b.closed = false) (hmax : 0 < max)
    (hkept : b.kept = []) (hstate : b.state ≠ .closed) : b.ready (.read max) = none := by
  simp [Shelf.ready, hopen, Nat.ne_of_gt hmax, hkept, hstate]

/-- A chunk that is received is served like one that was there. -/
theorem Serves.after_chunk {b : Shelf σ} {max : Nat} {data : Bytes} {q : σ}
    (hmax : 0 < max) (hnone : b.ready (.read max) = none) (hdata : data ≠ [])
    (hx : Supplies act chunkSize b.place (.chunk data) q) {a : Answer} {b' : Shelf σ}
    (h : Serves act chunkSize ⟨q, data, .streaming, false⟩ (.read max) a b') :
    Serves act chunkSize b (.read max) a b' := by
  obtain ⟨rfl, rfl⟩ := h.unique (.ready (Shelf.ready_kept rfl hmax hdata))
  exact .received hnone hx

/-! ### Requests in a row -/

/-- What the caller sees of one request: the answer, and what the stream says of
    itself after it. -/
structure View where
  request : Request
  answer : Answer
  state : State
  retained : Nat
deriving DecidableEq, Repr

/-- What the caller sees of some requests in a row. -/
inductive Follows (act : Producer σ) (chunkSize : Nat) :
    Shelf σ → List View → Shelf σ → Prop
  | nil (b : Shelf σ) : Follows act chunkSize b [] b
  | cons {b b' b'' : Shelf σ} {r : Request} {a : Answer} {vs : List View} :
      Serves act chunkSize b r a b' → Follows act chunkSize b' vs b'' →
      Follows act chunkSize b (⟨r, a, b'.state, b'.kept.length⟩ :: vs) b''

/-- **The requests alone tell what the caller sees**, and after more requests it has
    seen the same and more. -/
theorem Follows.further {b b₁ b₂ : Shelf σ} {vs₁ vs₂ : List View}
    (h₁ : Follows act chunkSize b vs₁ b₁) (h₂ : Follows act chunkSize b vs₂ b₂)
    (hrequests : vs₁.map (·.request) <+: vs₂.map (·.request)) : vs₁ <+: vs₂ := by
  induction h₁ generalizing vs₂ with
  | nil b => exact List.nil_prefix
  | cons hserves₁ _ ih =>
      cases h₂ with
      | nil => exact absurd (List.prefix_nil.mp hrequests) nofun
      | cons hserves₂ hrest₂ =>
          obtain ⟨rfl, hrest⟩ := List.cons_prefix_cons.mp hrequests
          obtain ⟨rfl, rfl⟩ := hserves₁.unique hserves₂
          exact List.cons_prefix_cons.mpr ⟨rfl, ih hrest₂ hrest⟩

/-! ### After the end -/

/-- A stream that its reader has closed has nothing on the shelf. -/
structure Shelf.Coherent (b : Shelf σ) : Prop where
  closed : b.closed = true → b.state = .closed
  empty : b.state = .closed → b.kept = []

theorem Shelf.Coherent.new (s : σ) : (Shelf.new s).Coherent := ⟨nofun, nofun⟩

theorem Shelf.Coherent.done (t : σ) : (Shelf.done t).Coherent := ⟨nofun, fun _ => rfl⟩

theorem Shelf.Coherent.shut (b : Shelf σ) : b.shut.Coherent := ⟨fun _ => rfl, fun _ => rfl⟩

/-- Serving a request keeps a stream coherent. -/
theorem Shelf.Coherent.serves {b b' : Shelf σ} {r : Request} {a : Answer} (h : b.Coherent)
    (hs : Serves act chunkSize b r a b') : b'.Coherent := by
  cases hs with
  | @received max x t hnone hx =>
      rcases x with data | ⟨e | u⟩ | _
      · exact ⟨nofun, nofun⟩
      · exact ⟨nofun, fun _ => rfl⟩
      · exact ⟨nofun, fun _ => rfl⟩
      · exact ⟨nofun, fun _ => rfl⟩
  | ready hready =>
      cases r with
      | close =>
          cases hready
          exact ⟨fun _ => rfl, fun _ => rfl⟩
      | read max =>
          simp only [Shelf.ready] at hready
          split at hready
          · cases hready
            exact h
          split at hready
          · cases hready
            exact h
          split at hready
          · next hkept =>
              cases hready
              exact ⟨h.closed, fun hstate => absurd (h.empty hstate) hkept⟩
          split at hready
          · cases hready
            exact h
          · cases hready

/-- What a caller sees of a stream after it was closed. -/
def View.Over (v : View) : Prop :=
  v.state = .closed ∧ v.retained = 0 ∧ ∀ max, v.request = .read max → v.answer = .error .streamClosed

/-- A stream that is closed stays so. -/
theorem Follows.over {b b' : Shelf σ} {vs : List View} (h : Follows act chunkSize b vs b')
    (hb : b.Coherent) (hclosed : b.closed = true) : ∀ v ∈ vs, v.Over := by
  induction h with
  | nil b => exact fun v hv => absurd hv List.not_mem_nil
  | @cons b b' b'' r a vs hserves _ ih =>
      have hstate := hb.closed hclosed
      have hkept := hb.empty hstate
      have hread : ∀ max, b.ready (.read max) = some (.error .streamClosed, b) := by
        intro max
        rw [Shelf.ready, if_pos hclosed]
      -- from now on it is over, whether it is read or closed again
      have hthis : b'.closed = true ∧ View.Over ⟨r, a, b'.state, b'.kept.length⟩ := by
        cases r with
        | close =>
            obtain ⟨rfl, rfl⟩ := hserves.unique (.ready rfl)
            exact ⟨rfl, rfl, rfl, nofun⟩
        | read max =>
            obtain ⟨rfl, rfl⟩ := hserves.unique (.ready (hread max))
            refine ⟨hclosed, hstate, ?_, fun _ _ => rfl⟩
            show b'.kept.length = 0
            rw [hkept]
            rfl
      intro v hv
      rcases List.mem_cons.mp hv with rfl | hrest
      · exact hthis.2
      · exact ih (hb.serves hserves) hthis.1 v hrest

/-- **From the first close on, the stream is closed and its reads are refused.** -/
theorem Follows.closed {b b' : Shelf σ} {vs : List View} (h : Follows act chunkSize b vs b')
    (hb : b.Coherent) : ∀ before v after, vs = before ++ v :: after → v.request = .close →
      ∀ w ∈ v :: after, w.Over := by
  induction h with
  | nil b => exact fun before v after hvs => absurd hvs.symm (by simp)
  | @cons b b' b'' r a vs hserves hrest ih =>
      intro before v after hvs hclose
      cases before with
      | cons first before =>
          exact ih (hb.serves hserves) before v after (List.cons.inj hvs).2 hclose
      | nil =>
          obtain ⟨rfl, rfl⟩ := List.cons.inj hvs
          obtain rfl : r = .close := hclose
          obtain ⟨rfl, rfl⟩ := hserves.unique (.ready rfl)
          intro w hw
          rcases List.mem_cons.mp hw with rfl | hlater
          · exact ⟨rfl, rfl, nofun⟩
          · exact hrest.over (hb.serves hserves) rfl w hlater

end Gitwork.Stream
