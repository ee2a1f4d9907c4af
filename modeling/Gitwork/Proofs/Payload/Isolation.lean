import Mathlib.Algebra.Ring.Nat
import Gitwork.Proofs.Payload.Lives
import Gitwork.Proofs.Payload.FirstFailure

/-! # Payloads do not interfere

    Payloads share a registry, and a slot that one of them has left is given
    to the next.  Still, what a program learns from the payload of a name is
    what it would learn if there were no other names.

    * the answer of a step is in the life of its name, and so is what the step
      makes of that life (`PayloadRun.Dated.play`);
    * the steps of one name alone find a place for every payload
      (`PayloadRun.Lone`);
    * so a run and the run of one name's steps tell that name the same
      (`PayloadRun.Dated.told_alone`). -/

namespace Gitwork

/-! ## Runs of one name and of all -/

namespace PayloadStep

/-- Whether a step was a creation for which there was no place. -/
def refused : (s : PayloadStep) → s.Answer → Bool
  | new .., .error _ => true
  | _, _ => false

/-- How many payloads a step has dropped, by its answer. -/
def drops : (s : PayloadStep) → s.Answer → Nat
  | new .., .ok true => 1
  | drop _, true => 1
  | _, _ => 0

end PayloadStep

namespace Told

/-- The steps of a name; a creation that was refused made no payload. -/
def isOf (name : String) (e : Told) : Bool := e.1.name = name && !e.1.refused e.2

def drops (e : Told) : Nat := e.1.drops e.2

end Told

namespace PayloadRun

variable {r o : PayloadRun} {name : String} {n m : Nat} {s : PayloadStep}

/-- A refused creation changes nothing. -/
theorem play_refused (h : s.refused (r.play s).1 = true) : (r.play s).2 = r := by
  cases s with
  | new name owner handlers =>
      cases hins : r.registry.insert (.new owner handlers) with
      | error e => rw [play_new_error hins]
      | ok issued =>
          rw [play_new_ok hins] at h
          cases h
  | fire | hasError | takeError | check | checkStatus | drop => cases h

/-- A drop removes an id exactly if its name was registered. -/
theorem drops_drop (r : PayloadRun) (name : String) :
    (PayloadStep.drop name).drops (r.play (.drop name)).1 = r.droppable name := by
  show (PayloadStep.drop name).drops (r.drop name).1 = _
  rw [drop_fst, droppable]
  cases r.live.contains name with
  | true => rfl
  | false => rfl

/-- A registration that succeeds drops what its name stood for before. -/
theorem drops_new {owner : ThreadId} {handlers : HandlerSet} {id : PayloadId}
    {registry : Registry Payload}
    (hins : r.registry.insert (.new owner handlers) = .ok (id, registry)) :
    (PayloadStep.new name owner handlers).drops (r.play (.new name owner handlers)).1
      = r.droppable name := by
  rw [play_new_ok hins, droppable]
  cases r.live.contains name with
  | true => rfl
  | false => rfl

/-- **A step is a step of its name alone.** -/
theorem Dated.play (hr : r.Dated n) (hs : s.refused (r.play s).1 = false)
    (hn : n + s.drops (r.play s).1 < UInt32.size) :
    LikeAlone r (n + s.drops (r.play s).1) s.name (r.play s) ((r.life s.name).play s) := by
  cases s with
  | new name owner handlers =>
      cases hins : r.registry.insert (.new owner handlers) with
      | error e =>
          rw [play_new_error hins] at hs
          cases hs
      | ok issued =>
          rw [drops_new hins] at hn ⊢
          exact hr.new hn hins
  | fire name kind caller call => exact hr.fire name kind caller call
  | hasError name => exact hr.hasError name
  | takeError name => exact hr.ask name _
  | check name native => exact hr.ask name _
  | checkStatus name status => exact hr.ask name _
  | drop name =>
      rw [drops_drop] at hn ⊢
      exact hr.drop name hn

/-- A refused step removes no id. -/
theorem refused_drops (h : s.refused (r.play s).1 = true) : s.drops (r.play s).1 = 0 := by
  cases s with
  | new name owner handlers =>
      cases hins : r.registry.insert (.new owner handlers) with
      | error e =>
          rw [play_new_error hins]
          rfl
      | ok issued =>
          rw [play_new_ok hins] at h
          cases h
  | fire | hasError | takeError | check | checkStatus | drop => cases h

/-- A step keeps the run dated, as many removals later as it drops ids. -/
theorem Dated.step (hr : r.Dated n) (hn : n + s.drops (r.play s).1 < UInt32.size) :
    (r.play s).2.Dated (n + s.drops (r.play s).1) := by
  cases hs : s.refused (r.play s).1 with
  | true =>
      rw [play_refused hs, refused_drops hs]
      exact hr
  | false => exact (hr.play hs hn).dated

/-- A step of another name, or a creation that was refused, is nothing to a name. -/
theorem Dated.step_other (hr : r.Dated n) (hn : n + s.drops (r.play s).1 < UInt32.size)
    (hother : s.name ≠ name ∨ s.refused (r.play s).1 = true) :
    (r.play s).2.life name = r.life name := by
  cases hs : s.refused (r.play s).1 with
  | true => rw [play_refused hs]
  | false =>
      have hne : s.name ≠ name := hother.resolve_right (by simp [hs])
      exact (hr.play hs hn).others name (Ne.symm hne)

/-- In a dated run a name is registered exactly if it is alive. -/
theorem Dated.mem_live_iff (hr : r.Dated n) : name ∈ r.live ↔ ∃ p, r.life name = .alive p := by
  rcases hr.life_cases name with ⟨-, hlive, hlife⟩ | ⟨id, p, -, hlive, -, hlife⟩
    | ⟨id, -, hlive, -, hlife⟩
  · simp [hlive, hlife]
  · simp [hlive, hlife]
  · simp [hlive, hlife]

/-- A drop answers alike on the run and on the life of the name. -/
theorem Dated.drop_life (hr : r.Dated n) (name : String) :
    (r.life name).drop.1 = r.live.contains name := by
  rcases hr.life_cases name with ⟨-, hlive, hlife⟩ | ⟨id, p, -, hlive, -, hlife⟩
    | ⟨id, -, hlive, -, hlife⟩
  · rw [hlife, List.contains_eq_mem, decide_eq_false hlive]
    rfl
  · rw [hlife, List.contains_eq_mem, decide_eq_true hlive]
    rfl
  · rw [hlife, List.contains_eq_mem, decide_eq_false hlive]
    rfl

/-- How many payloads a step drops is in the life of its name. -/
theorem Dated.drops_life (hr : r.Dated n) (hs : s.refused (r.play s).1 = false) :
    s.drops (r.play s).1 = s.drops ((r.life s.name).play s).1 := by
  cases s with
  | new name owner handlers =>
      cases hins : r.registry.insert (.new owner handlers) with
      | error e =>
          rw [play_new_error hins] at hs
          cases hs
      | ok issued =>
          rw [play_new_ok hins, ← hr.drop_life name]
          rfl
  | drop name =>
      have hanswer : (r.play (.drop name)).1 = r.live.contains name := drop_fst r name
      rw [hanswer, ← hr.drop_life name]
      rfl
  | fire | hasError | takeError | check | checkStatus => rfl

/-- A run of one name, so far. -/
structure Lone (o : PayloadRun) (name : String) (m : Nat) : Prop where
  dated : o.Dated m
  count : o.registry.size = o.live.length
  others : ∀ other ∈ o.live, other = name

theorem Lone.empty (name : String) : PayloadRun.empty.Lone name 0 where
  dated := .empty
  count := rfl
  others := fun _ hmem => nomatch hmem

/-- There is a place for every payload of one name. -/
theorem Lone.admits (ho : o.Lone name m) (s : PayloadStep) : s.refused (o.play s).1 = false := by
  cases s with
  | fire | hasError | takeError | check | checkStatus | drop => rfl
  | new other owner handlers =>
      cases hins : o.registry.insert (.new owner handlers) with
      | ok issued =>
          rw [play_new_ok hins]
          rfl
      | error e =>
          have hfull := (Registry.insert_error_iff ho.dated.sound _).mp ⟨e, hins⟩
          have hsub : o.live ⊆ [name] := fun other hmem =>
            List.mem_singleton.mpr (ho.others other hmem)
          have hle := (List.subperm_of_subset ho.dated.nodup hsub).length_le
          rw [ho.count] at hfull
          rw [hfull, List.length_singleton] at hle
          exact absurd hle (by decide)

/-- A step of its own name keeps a run alone with the name. -/
theorem Lone.play (ho : o.Lone s.name m) (hn : m + s.drops (o.play s).1 < UInt32.size) :
    (o.play s).2.Lone s.name (m + s.drops (o.play s).1) := by
  have hstep := ho.dated.play (ho.admits s) hn
  refine ⟨hstep.dated, ?_, ?_⟩
  · have hcount := hstep.count
    have hbefore := ho.count
    omega
  · intro other hmem
    by_contra hne
    obtain ⟨p, hlife⟩ := hstep.dated.mem_live_iff.mp hmem
    rw [hstep.others other hne] at hlife
    exact hne (ho.others other (ho.dated.mem_live_iff.mpr ⟨p, hlife⟩))

/-- What a name is told in a run. -/
def toldOf (r : PayloadRun) (name : String) (steps : List PayloadStep) : List Told :=
  (r.transcript steps).filter (·.isOf name)

/-- An own step that is not refused opens the transcript of its name. -/
theorem toldOf_own (hs : s.refused (r.play s).1 = false) (rest : List PayloadStep) :
    r.toldOf s.name (s :: rest) = ⟨s, (r.play s).1⟩ :: (r.play s).2.toldOf s.name rest := by
  apply List.filter_cons_of_pos
  show (decide (s.name = s.name) && !s.refused (r.play s).1) = true
  rw [hs, decide_eq_true rfl]
  rfl

/-- Steps of other names and refused steps stand in no transcript of the name. -/
theorem toldOf_other (hs : s.name ≠ name ∨ s.refused (r.play s).1 = true)
    (rest : List PayloadStep) : r.toldOf name (s :: rest) = (r.play s).2.toldOf name rest := by
  apply List.filter_cons_of_neg
  show ¬ (decide (s.name = name) && !s.refused (r.play s).1) = true
  rcases hs with hne | hrefused
  · simp [hne]
  · simp [hrefused]

/-- **A name is told the same, whoever else is there.** -/
theorem Dated.told_alone (steps : List PayloadStep) (hr : r.Dated n) (ho : o.Lone name m)
    (hle : m ≤ n) (hlife : o.life name = r.life name)
    (hfew : n + ((r.transcript steps).map Told.drops).sum < UInt32.size) :
    o.transcript ((r.toldOf name steps).map (·.1)) = r.toldOf name steps := by
  induction steps generalizing r o n m with
  | nil => rfl
  | cons s rest ih =>
      rw [transcript, List.map_cons, List.sum_cons, ← Nat.add_assoc] at hfew
      have hn : n + s.drops (r.play s).1 < UInt32.size :=
        Nat.lt_of_le_of_lt (Nat.le_add_right _ _) hfew
      by_cases hown : s.name = name ∧ s.refused (r.play s).1 = false
      · obtain ⟨rfl, hs⟩ := hown
        have hdrops : s.drops (o.play s).1 = s.drops (r.play s).1 := by
          rw [ho.dated.drops_life (ho.admits s), hr.drops_life hs, hlife]
        have hm : m + s.drops (o.play s).1 < UInt32.size := by omega
        -- both answer as the life of the name says, and leave it the same
        have hwhole := hr.play hs hn
        have halone := ho.dated.play (ho.admits s) hm
        have hanswer : (o.play s).1 = (r.play s).1 := by
          rw [halone.answer, hwhole.answer, hlife]
        have hnext : (o.play s).2.life s.name = (r.play s).2.life s.name := by
          rw [halone.own, hwhole.own, hlife]
        have hlone := ho.play hm
        rw [hdrops] at hlone
        rw [toldOf_own hs, List.map_cons, transcript, hanswer,
          ih hwhole.dated hlone (Nat.add_le_add_right hle _) hnext hfew]
      · have hother : s.name ≠ name ∨ s.refused (r.play s).1 = true := by
          rw [← Bool.not_eq_false, ← not_and_or]
          exact hown
        rw [toldOf_other hother]
        refine ih (hr.step hn) ho (Nat.le_add_right_of_le hle) ?_ hfew
        rw [hr.step_other hn hother, hlife]

/-- After any run with few drops, live names have payloads of their own. -/
theorem Dated.after (steps : List PayloadStep) (hr : r.Dated n)
    (hfew : n + ((r.transcript steps).map Told.drops).sum < UInt32.size) :
    ∃ m, (r.after steps).Dated m := by
  induction steps generalizing r n with
  | nil => exact ⟨n, hr⟩
  | cons s rest ih =>
      rw [transcript, List.map_cons, List.sum_cons, ← Nat.add_assoc] at hfew
      exact ih (hr.step (Nat.lt_of_le_of_lt (Nat.le_add_right _ _) hfew)) hfew

end PayloadRun

/-- **Payloads do not interfere.**

    Take any run of payload steps from the start of the process on, from any threads,
    in which fewer than 2^32 payloads are dropped.  What the payloads of a name
    answer to the steps of the name is what they answer in the run of these steps
    alone; a creation for which the registry had no place is not one of them.  And
    at every point of such a run a callback with the id of a dropped payload, or
    resolved as a payload of another kind, is refused without a handler and changes
    nothing; one from another thread is refused without a handler and parks its
    failure on its own payload, if none is parked there.

    A name may be given to one payload after the other; then its callbacks carry the
    id that it got last. -/
theorem payloads_apart (steps : List PayloadStep)
    (hfew : ((PayloadRun.empty.transcript steps).map Told.drops).sum < UInt32.size) :
    let r := PayloadRun.empty.after steps
    let refusal (call : Call) : Fired call.site.Value := .replied (.ofStatus .user)
    (∀ name, PayloadRun.empty.transcript ((PayloadRun.empty.toldOf name steps).map (·.1))
        = PayloadRun.empty.toldOf name steps)
      ∧ (∀ name kind caller call, r.life name = .dropped →
        r.fire name kind caller call = (refusal call, [], r))
      ∧ (∀ name p kind caller call, r.life name = .alive p → kind ≠ p.handlers.kind →
        r.fire name (some kind) caller call = (refusal call, [], r))
      ∧ ∀ name p kind caller call, r.life name = .alive p →
        kind.getD p.handlers.kind = p.handlers.kind → caller ≠ p.owner →
        ∃ after, r.fire name kind caller call = (refusal call, [], after)
          ∧ after.life name = .alive { p with
            deferred := p.deferred.or (some (.threadAffinity .payload p.owner caller)) }
          ∧ ∀ other, other ≠ name → after.life other = r.life other := by
  intro r refusal
  have hfew' : 0 + ((PayloadRun.empty.transcript steps).map Told.drops).sum < UInt32.size := by
    rw [Nat.zero_add]
    exact hfew
  obtain ⟨n, hr⟩ : ∃ n, r.Dated n := PayloadRun.Dated.empty.after steps hfew'
  refine ⟨?_, ?_, ?_, ?_⟩
  · intro name
    exact PayloadRun.Dated.empty.told_alone steps (.empty name) (Nat.le_refl 0) rfl hfew'
  · intro name kind caller call hlife
    exact PayloadRun.fire_dead (hr.get?_of_dropped hlife) kind caller call
  · -- the wrong kind is found out before the payload is touched
    intro name p kind caller call hlife hkind
    obtain ⟨id, hid, -, hget⟩ := hr.of_alive hlife
    rw [← PayloadRun.id_eq hid] at hget
    have hother : (some kind).getD p.handlers.kind ≠ p.handlers.kind := hkind
    exact PayloadRun.fire_mistaken hget hother caller call
  · intro name p kind caller call hlife hkind hcaller
    obtain ⟨id, hid, hlive, hget⟩ := hr.of_alive hlife
    have hown := hget
    rw [← PayloadRun.id_eq hid] at hown
    refine ⟨r.put name (p.record (.threadAffinity .payload p.owner caller)), ?_, ?_, ?_⟩
    · rw [PayloadRun.fire_alive hown hkind, Payload.fire_foreign hcaller,
        Payload.callsIn_foreign hcaller]
    · rw [PayloadRun.life_put hid hlive hget, Payload.record, Option.orElse_eq_or]
    · intro other hne
      exact hr.life_put_other hne hid _

/-- Three payloads of two threads, the third in the slot that the first has left. -/
def slotReused : List PayloadStep :=
  let tip := Call.updateTips "refs/heads/main" .zero .zero
  [.new "a" 1 failingTips, .new "b" 1 failingTips, .fire "b" none 1 tip, .drop "a",
    .new "c" 2 failingTips, .fire "a" none 1 tip, .fire "b" none 1 tip, .fire "b" none 2 tip,
    .takeError "b", .fire "c" none 2 tip]

/-- The one in the middle notices neither of the others, and a late callback of
    the first does not reach the third. -/
theorem payloads_apart_slotReused :
    let r := PayloadRun.empty.after slotReused
    PayloadRun.empty.transcript ((PayloadRun.empty.toldOf "b" slotReused).map (·.1))
        = PayloadRun.empty.toldOf "b" slotReused
      ∧ (PayloadRun.empty.toldOf "b" slotReused).length = 5
      ∧ r.id "a" = .pack 0 0 ∧ r.id "c" = .pack 0 1
      ∧ ∀ caller call, r.fire "a" none caller call = (.replied (.ofStatus .user), [], r) := by
  intro r
  have hfew : ((PayloadRun.empty.transcript slotReused).map Told.drops).sum < UInt32.size := by
    decide
  have hdropped : r.life "a" = .dropped := rfl
  obtain ⟨halone, hdead, -, -⟩ := payloads_apart slotReused hfew
  exact ⟨halone "b", rfl, rfl, rfl, fun caller call => hdead "a" none caller call hdropped⟩

end Gitwork
