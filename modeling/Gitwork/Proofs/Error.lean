import Gitwork.Error

/-! # Results

    When a result that was made of others is a success, and what kind of error
    a failure of the engine becomes. -/

namespace Gitwork

/-- Two steps in a row succeed exactly if both do. -/
theorem bind_eq_ok_iff {ε α β : Type} {x : Except ε α} {f : α → Except ε β} {b : β} :
    x >>= f = .ok b ↔ ∃ a, x = .ok a ∧ f a = .ok b := by
  cases x with
  | error e =>
      constructor
      · intro h
        have h : Except.error e = Except.ok b := h
        cases h
      · rintro ⟨a, ha, -⟩
        cases ha
  | ok a =>
      constructor
      · intro h
        exact ⟨a, rfl, h⟩
      · rintro ⟨a', ha, h⟩
        obtain rfl : a = a' := Except.ok.inj ha
        exact h

/-- Wording an error in another way makes no success. -/
theorem Error.mapError_eq_ok {α : Type} {x : Except NativeError α} {v : α} :
    x.mapError ofNative = .ok v ↔ x = .ok v := by
  cases x with
  | ok v' =>
      show Except.ok v' = _ ↔ _
      rw [Except.ok.injEq, Except.ok.injEq]
  | error e =>
      constructor
      · intro h
        cases h
      · intro h
        cases h

/-- A result that is optional only on the outside. -/
theorem map_some_eq_ok {ε α : Type} {x : Except ε α} {o : Option α} :
    x.map some = .ok o ↔ ∃ v, x = .ok v ∧ o = some v := by
  cases x with
  | ok v =>
      constructor
      · intro h
        exact ⟨v, rfl, (Except.ok.inj h).symm⟩
      · rintro ⟨v', hv, rfl⟩
        rw [hv]
        rfl
  | error e =>
      constructor
      · intro h
        cases h
      · rintro ⟨v, hv, -⟩
        cases hv

/-- A failure of the engine says that something is missing by its code. -/
theorem Error.nativeKind?_ofNative {e : NativeError} :
    (Error.ofNative e).nativeKind? = some .notFound ↔ e.code = -3 := by
  have hkind : (Error.ofNative e).nativeKind? = some (Status.mk e.code).kind := rfl
  rw [hkind, Option.some_inj, Status.kind]
  by_cases hcode : e.code = -3
  · rw [hcode]
    exact ⟨fun _ => rfl, fun _ => by decide⟩
  · have hother : Status.mk e.code ≠ .notFound := fun h => hcode (congrArg Status.code h)
    rw [if_neg hother]
    refine ⟨fun h => absurd h ?_, fun h => absurd h hcode⟩
    repeat' split
    all_goals nofun

end Gitwork
