import Gitwork.Operation.Basic

/-! # What an operation leaves alone

    A property holds at all ends of an operation if it holds of every result,
    whatever the replies to its calls are (`Operation.Ends`).  So it holds of
    the result of every run, with whatever handlers (`Operation.Ends.run`).

    An engine keeps a part of the state if at all ends that part is what it was
    (`Engine.Keeps`); engines that are put together from such ones keep it as
    well.  It ensures a property if that holds at the ends with success
    (`Engine.Ensures`). -/

namespace Gitwork

variable {σ α β γ : Type}

namespace Operation

/-- Whatever the replies are, the result has the property. -/
inductive Ends (P : α → Prop) : Operation α → Prop
  | done {a : α} : P a → Ends P (done a)
  | call {thread : Option ThreadId} {c : Call} {next : Reply c.site.Value → Operation α} :
      (∀ r, Ends P (next r)) → Ends P (call thread c next)

variable {P Q : α → Prop} {op : Operation α}

/-- A weaker property of every end. -/
theorem Ends.imp (h : op.Ends P) (himp : ∀ a, P a → Q a) : op.Ends Q := by
  induction h with
  | done ha => exact .done (himp _ ha)
  | call _ ih => exact .call ih

/-- What follows an operation ends as it should if it does from every end. -/
theorem Ends.bind {R : β → Prop} {f : α → Operation β} (h : op.Ends P)
    (hf : ∀ a, P a → (f a).Ends R) : (op.bind f).Ends R := by
  induction h with
  | done ha => exact hf _ ha
  | call _ ih => exact .call ih

/-- A property of every end holds of the result, whatever the handlers reply. -/
theorem Ends.run (h : op.Ends P) (caller : ThreadId) (p : Payload) (panicked : Option String) :
    P (op.run caller p panicked).result := by
  induction h generalizing p panicked with
  | done ha => exact ha
  | @call thread c next _ ih =>
      cases panicked with
      -- once a handler panicked, its site replies with an error
      | some text => exact ih (.ofStatus .error) p (some text)
      | none =>
          rw [Operation.run]
          cases hfire : p.fire (thread.getD caller) c with
          | mk fired q =>
              cases fired with
              | replied r => exact ih r q none
              | panicked text => exact ih (.ofStatus .error) q (some text)

end Operation

namespace Engine

/-- A part of the state is the same at all ends. -/
def Keeps (part : σ → γ) (op : Engine σ α) : Prop :=
  ∀ s, (op.tree s).Ends fun out => part out.2 = part s

variable {part : σ → γ} {op : Engine σ α}

theorem Keeps.pure (a : α) : Keeps part (pure a : Engine σ α) := fun _ => .done rfl

theorem Keeps.throw (e : NativeError) : Keeps part (throw e : Engine σ α) := fun _ => .done rfl

theorem Keeps.get : Keeps part (get : Engine σ σ) := fun _ => .done rfl

theorem Keeps.modify {f : σ → σ} (hf : ∀ s, part (f s) = part s) :
    Keeps part (modify f : Engine σ PUnit) := fun s => .done (hf s)

theorem Keeps.ofExcept (r : Except NativeError α) : Keeps part (ofExcept r : Engine σ α) := by
  cases r with
  | ok a => exact .pure a
  | error e => exact .throw e

theorem Keeps.ask (c : Call) : Keeps part (ask c : Engine σ (Reply c.site.Value)) :=
  fun _ => .call fun _ => .done rfl

/-- Two parts of an engine keep what both keep. -/
theorem Keeps.bind {next : α → Engine σ β} (hop : op.Keeps part)
    (hnext : ∀ a, (next a).Keeps part) : (op >>= next).Keeps part := by
  intro s
  refine Operation.Ends.bind (hop s) ?_
  rintro ⟨result, t⟩ ht
  cases result with
  | error e => exact .done ht
  | ok a => exact (hnext a t).imp fun out hout => hout.trans ht

/-- A test that may end the operation. -/
theorem Keeps.guard {c : Prop} [Decidable c] {e : NativeError} {next : PUnit → Engine σ β}
    (hnext : (next ⟨⟩).Keeps part) :
    Keeps part (if c then MonadExcept.throw e >>= next else next ⟨⟩) := by
  split
  · exact fun _ => .done rfl
  · exact hnext

theorem Keeps.inform (c : Call) : Keeps part (inform c : Engine σ Unit) :=
  (Keeps.ask c).bind fun _ => .pure ()

theorem Keeps.tell (c : Call) : Keeps part (tell c : Engine σ Unit) := by
  refine (Keeps.ask c).bind fun r => ?_
  split
  · exact .pure ()
  · exact .throw _

/-- What an operation with such an engine leaves alone. -/
theorem Keeps.operate (h : op.Keeps part) (caller : ThreadId) (handlers : HandlerSet) (s : σ) :
    part (operate caller handlers op s).state = part s :=
  (h s).run caller (.new caller handlers) none

/-! ## What success means -/

/-- At all ends with success the result and the state have the property. -/
def Ensures (op : Engine σ α) (s : σ) (P : α → σ → Prop) : Prop :=
  (op.tree s).Ends fun out => ∀ a, out.1 = .ok a → P a out.2

variable {s : σ} {P : α → σ → Prop} {Q : β → σ → Prop}

theorem Ensures.pure {a : α} (h : P a s) : Ensures (pure a : Engine σ α) s P := by
  refine .done fun a' ha => ?_
  cases ha
  exact h

/-- A failure is no success. -/
theorem Ensures.throw (e : NativeError) : Ensures (throw e : Engine σ α) s P :=
  .done nofun

/-- The state that is read is the one there is. -/
theorem Ensures.get : Ensures (get : Engine σ σ) s fun t u => t = s ∧ u = s := by
  refine .done fun t ht => ?_
  cases ht
  exact ⟨rfl, rfl⟩

theorem Ensures.modify (f : σ → σ) :
    Ensures (modify f : Engine σ PUnit) s fun _ t => t = f s := .done fun _ _ => rfl

/-- A result that is taken over was a success. -/
theorem Ensures.ofExcept (r : Except NativeError α) :
    Ensures (ofExcept r : Engine σ α) s fun a t => r = .ok a ∧ t = s := by
  cases r with
  | ok a => exact .pure ⟨rfl, rfl⟩
  | error e => exact .throw e

/-- An engine that leaves everything alone. -/
theorem Keeps.ensures (h : op.Keeps id) : op.Ensures s fun _ t => t = s :=
  (h s).imp fun _ hout _ _ => hout

/-- What the first part ensures is there when the second one starts. -/
theorem Ensures.bind {next : α → Engine σ β} (hop : op.Ensures s P)
    (hnext : ∀ a t, P a t → (next a).Ensures t Q) : (op >>= next).Ensures s Q := by
  refine Operation.Ends.bind hop ?_
  rintro ⟨result, t⟩ ht
  cases result with
  | error e => exact .done nofun
  | ok a => exact hnext a t (ht a rfl)

/-- A guard adds an end that fails, of which nothing is promised. -/
theorem Ensures.guard {c : Prop} [Decidable c] {e : NativeError} {next : PUnit → Engine σ β}
    (hnext : (next ⟨⟩).Ensures s Q) :
    Ensures (if c then MonadExcept.throw e >>= next else next ⟨⟩) s Q := by
  split
  · exact .done nofun
  · exact hnext

/-- What an operation has done that ended well. -/
theorem Ensures.operate {a : α} (h : op.Ensures s P) {caller : ThreadId} {handlers : HandlerSet}
    (hok : (operate caller handlers op s).result = .ok a) :
    P a (operate caller handlers op s).state := by
  have hends := h.run caller (.new caller handlers) none
  simp only [Gitwork.operate] at hok ⊢
  generalize (op.tree s).run caller (.new caller handlers) none = played at hends hok ⊢
  refine hends a ?_
  simp only [Payload.check, Payload.takeError] at hok
  -- a success has nothing parked, so the native result was the success
  cases hparked : played.payload.deferred with
  | some e =>
      simp only [hparked] at hok
      cases hok
  | none =>
      simp only [hparked] at hok
      cases hresult : played.result.1 with
      | ok a' =>
          rw [hresult] at hok
          rw [Except.ok.inj hok]
      | error e =>
          rw [hresult] at hok
          cases hok

end Engine

end Gitwork
