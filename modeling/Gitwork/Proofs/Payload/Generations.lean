import Gitwork.Proofs.Payload.Registration

/-! # How long a removed id stays dead

    Each time a slot is emptied it gets the next generation, and nothing else
    changes the generation of a slot.  So the generation counts how often the
    slot was emptied, as far as a 32-bit word can count (`Registry.run_slot`).

    An id that was removed fits its slot again exactly when the slot has been
    emptied a multiple of 2^32 times since, its own removal included
    (`Registry.removed_id_fits_iff`).  Up to then it is dead: nothing resolves
    it, no insert returns it, and a callback that carries it reaches no
    handler.  Then it is alive again, as the id of a newer payload
    (`Registry.removed_id_returns`). -/

namespace Gitwork

namespace Registry

/-! ## One slot -/

section Slot

variable {α : Type} {r r' : Registry α} {id : PayloadId} {a : α} {i : UInt32} {slot : Slot α}

/-- An insert keeps the generation of every slot. -/
theorem insert_generation (hr : r.Sound) (h : r.insert a = .ok (id, r'))
    (hslot : r.slots[i.toNat]? = some slot) :
    ∃ entry, r'.slots[i.toNat]? = some ⟨slot.generation, entry⟩ := by
  by_cases hi : i.toNat = id.index.toNat
  · rcases insert_cases hr h with ⟨j, rest, generation, -, hempty, rfl, rfl⟩ | ⟨-, hlt, rfl, -⟩
    · rw [PayloadId.index_pack] at hi
      rw [hi, hempty] at hslot
      rw [hi, ← Option.some.inj hslot]
      exact ⟨some a, List.getElem?_set_self (lt_of_slot hempty)⟩
    · -- a new slot is behind all others
      rw [PayloadId.index_pack, UInt32.toNat_ofNat_of_lt' hlt] at hi
      exact absurd (lt_of_slot hslot) (Nat.not_lt_of_le (Nat.le_of_eq hi.symm))
  · rw [insert_slots hr h hi]
    exact ⟨slot.entry, hslot⟩

/-- A remove moves the generation of the slot that it empties, and of no other. -/
theorem remove_generation (id : PayloadId) (hslot : r.slots[i.toNat]? = some slot) :
    ∃ entry, (r.remove id).2.slots[i.toNat]? = some
      ⟨slot.generation + if id.index = i ∧ (r.get? id).isSome then 1 else 0, entry⟩ := by
  rcases remove_cases r id with ⟨a, hlive, hrem⟩ | ⟨hnone, hrem⟩
  · have hown := get?_eq_some.mp hlive
    rw [hrem, hlive]
    by_cases hi : id.index = i
    · subst hi
      rw [hown] at hslot
      rw [if_pos ⟨rfl, rfl⟩, ← Option.some.inj hslot]
      exact ⟨none, List.getElem?_set_self (lt_of_slot hown)⟩
    · rw [if_neg (fun hboth => hi hboth.1), UInt32.add_zero]
      refine ⟨slot.entry, ?_⟩
      show (r.slots.set id.index.toNat _)[i.toNat]? = _
      rw [List.getElem?_set_ne (toNat_inj_of_ne hi), hslot]
  · rw [hrem, hnone, if_neg (fun hboth => nomatch hboth.2), UInt32.add_zero]
    exact ⟨slot.entry, hslot⟩

/-- Changing an entry keeps the generation of every slot. -/
theorem modify_generation (id : PayloadId) (f : α → α) (hslot : r.slots[i.toNat]? = some slot) :
    ∃ entry, (r.modify id f).slots[i.toNat]? = some ⟨slot.generation, entry⟩ := by
  rcases modify_cases r id f with ⟨entry, hown, hmod⟩ | ⟨-, hmod⟩
  · rw [hmod]
    by_cases hi : id.index = i
    · subst hi
      rw [hown] at hslot
      rw [← Option.some.inj hslot]
      exact ⟨entry.map f, List.getElem?_set_self (lt_of_slot hown)⟩
    · refine ⟨slot.entry, ?_⟩
      show (r.slots.set id.index.toNat _)[i.toNat]? = _
      rw [List.getElem?_set_ne (toNat_inj_of_ne hi), hslot]
  · rw [hmod]
    exact ⟨slot.entry, hslot⟩

end Slot

/-! ## Runs -/

variable {payloads : Registry Payload} {id : PayloadId} {i : UInt32}

/-- How often a move empties the slot with an index: once or not at all. -/
def emptying (payloads : Registry Payload) (i : UInt32) : Move → Nat
  | .remove id => if id.index = i ∧ (payloads.get? id).isSome then 1 else 0
  | .insert _ | .fire .. => 0

/-- How often a run of moves empties the slot with an index. -/
def emptied (i : UInt32) : Registry Payload → List Move → Nat
  | _, [] => 0
  | payloads, m :: rest => payloads.emptying i m + emptied i (payloads.apply m) rest

/-- A move adds to the generation of a slot how often it empties it. -/
theorem apply_slot (hs : payloads.Sound) {slot : Slot Payload}
    (hslot : payloads.slots[i.toNat]? = some slot) (m : Move) :
    ∃ entry, (payloads.apply m).slots[i.toNat]?
      = some ⟨slot.generation + .ofNat (payloads.emptying i m), entry⟩ := by
  cases m with
  | insert p =>
      show ∃ entry, (payloads.apply (.insert p)).slots[i.toNat]?
        = some ⟨slot.generation + 0, entry⟩
      rw [UInt32.add_zero, Registry.apply]
      cases hins : payloads.insert p with
      | error e => exact ⟨slot.entry, hslot⟩
      | ok issued => exact insert_generation hs hins hslot
  | remove id =>
      obtain ⟨entry, hentry⟩ := remove_generation id hslot
      refine ⟨entry, ?_⟩
      rw [emptying]
      split
      · next hempties =>
          rw [if_pos hempties] at hentry
          exact hentry
      · next hkeeps =>
          rw [if_neg hkeeps] at hentry
          exact hentry
  | fire id kind caller call =>
      show ∃ entry, (payloads.fire id kind caller call).2.slots[i.toNat]?
        = some ⟨slot.generation + 0, entry⟩
      rw [UInt32.add_zero]
      rcases fire_modifies payloads id kind caller call with hsame | ⟨f, hmod⟩
      · rw [hsame]
        exact ⟨slot.entry, hslot⟩
      · rw [hmod]
        exact modify_generation id f hslot

/-- So does a run. -/
theorem run_slot (moves : List Move) {generation : UInt32} {entry : Option Payload}
    (hs : payloads.Sound) (hslot : payloads.slots[i.toNat]? = some ⟨generation, entry⟩) :
    ∃ entry', (moves.foldl apply payloads).slots[i.toNat]?
      = some ⟨generation + .ofNat (emptied i payloads moves), entry'⟩ := by
  induction moves generalizing payloads generation entry with
  | nil =>
      refine ⟨entry, ?_⟩
      show payloads.slots[i.toNat]? = some ⟨generation + 0, entry⟩
      rw [UInt32.add_zero, hslot]
  | cons m rest ih =>
      -- the generations of both parts add up, modulo 2^32
      obtain ⟨entry', hstep⟩ := apply_slot hs hslot m
      obtain ⟨last, hlast⟩ := ih (hs.apply m) hstep
      refine ⟨last, ?_⟩
      rw [List.foldl_cons, hlast, emptied, UInt32.ofNat_add, UInt32.add_assoc]

/-- A word counts to a multiple of 2^32 as it counts to nothing. -/
theorem add_ofNat_eq_self_iff (generation : UInt32) (n : Nat) :
    generation + .ofNat n = generation ↔ UInt32.size ∣ n := by
  rw [← UInt32.toNat_inj, UInt32.toNat_add, UInt32.toNat_ofNat', UInt32.size]
  have hlt := generation.toNat_lt
  omega

/-- **When a removed id fits its slot again.** -/
theorem removed_id_fits_iff (hs : payloads.Sound) {p : Payload}
    (hlive : payloads.get? id = some p) (after : List Move) :
    (∃ entry, ((Move.remove id :: after).foldl apply payloads).slots[id.index.toNat]?
        = some ⟨id.generation, entry⟩)
      ↔ UInt32.size ∣ emptied id.index payloads (.remove id :: after) := by
  obtain ⟨entry, hslot⟩ := run_slot (.remove id :: after) hs (get?_eq_some.mp hlive)
  rw [← add_ofNat_eq_self_iff id.generation, hslot]
  constructor
  · rintro ⟨entry', heq⟩
    exact congrArg Slot.generation (Option.some.inj heq)
  · intro hsame
    exact ⟨entry, by rw [hsame]⟩

/-- An id that does not fit its slot is dead. -/
theorem dead_of_not_fits (hs : payloads.Sound)
    (hfit : ¬ ∃ entry, payloads.slots[id.index.toNat]? = some ⟨id.generation, entry⟩)
    (hslot : ∃ slot, payloads.slots[id.index.toNat]? = some slot) :
    payloads.get? id = none ∧ ∀ q after, payloads.insert q ≠ .ok (id, after) := by
  constructor
  · cases hget : payloads.get? id with
    | none => rfl
    | some q => exact absurd ⟨some q, get?_eq_some.mp hget⟩ hfit
  · intro q after hins
    -- an insert keeps generations, and its own id fits
    obtain ⟨slot, hslot⟩ := hslot
    obtain ⟨entry, hafter⟩ := insert_generation hs hins hslot
    have hown := get?_eq_some.mp (get?_insert_self hs hins)
    rw [hown] at hafter
    have hgeneration : id.generation = slot.generation :=
      congrArg Slot.generation (Option.some.inj hafter)
    exact hfit ⟨slot.entry, by rw [hslot, hgeneration]⟩

/-- A callback whose word resolves to nothing reaches no handler. -/
theorem fire_unresolved (h : payloads.get? id = none) (kind : SetKind) (caller : ThreadId)
    (call : Call) : payloads.fire id kind caller call = (.replied (.ofStatus .user), payloads) := by
  rw [fire, h]

/-- **A removed id is dead until its slot has been emptied 2^32 times.**

    Take any run in which a registered id is removed, and count how often its
    slot is emptied from then on, the removal of the id included.  Unless the
    number is a multiple of 2^32, the id resolves to nothing, a remove of it
    does nothing, no insert returns it, and a callback with it is refused
    before any handler.  If it is one, the id fits its slot again: then the
    next insert into the slot returns it, and it resolves to what was inserted. -/
theorem removed_id_returns (before after : List Move) (id : PayloadId) (p : Payload)
    (hlive : (history before).get? id = some p) :
    let payloads := history (before ++ .remove id :: after)
    let emptied := emptied id.index (history before) (.remove id :: after)
    (¬ UInt32.size ∣ emptied →
      payloads.get? id = none ∧ payloads.remove id = (none, payloads)
        ∧ (∀ q registry, payloads.insert q ≠ .ok (id, registry))
        ∧ ∀ kind caller call,
          payloads.fire id kind caller call = (.replied (.ofStatus .user), payloads))
      ∧ (UInt32.size ∣ emptied → ∀ q rest, payloads.free = id.index :: rest →
        ∃ registry, payloads.insert q = .ok (id, registry) ∧ registry.get? id = some q) := by
  intro payloads emptied
  have hbefore : (history before).Sound := Sound.history before
  have hpayloads : payloads = (Move.remove id :: after).foldl apply (history before) :=
    List.foldl_append
  have hsound : payloads.Sound := Sound.history _
  have hfits := removed_id_fits_iff hbefore hlive after
  rw [← hpayloads] at hfits
  constructor
  · intro hcount
    obtain ⟨entry, hslot⟩ := run_slot (.remove id :: after) hbefore (get?_eq_some.mp hlive)
    rw [← hpayloads] at hslot
    obtain ⟨hget, hinsert⟩ := dead_of_not_fits hsound (fun hfit => hcount (hfits.mp hfit)) ⟨_, hslot⟩
    exact ⟨hget, remove_none hget, hinsert, fire_unresolved hget⟩
  · intro hcount q rest hfree
    obtain ⟨entry, hslot⟩ := hfits.mpr hcount
    -- the insert pops the slot of the id, whose generation is the id's again
    cases hins : payloads.insert q with
    | error e =>
        rw [insert, hfree] at hins
        simp only [hslot] at hins
        cases hins
    | ok issued =>
        obtain ⟨issued, registry⟩ := issued
        have hself := get?_insert_self hsound hins
        rcases insert_cases hsound hins with ⟨j, rest', generation, hfree', hempty, hid, -⟩
          | ⟨hnil, -⟩
        · obtain ⟨rfl, -⟩ := List.cons.inj (hfree.symm.trans hfree')
          rw [hslot] at hempty
          have hgeneration : id.generation = generation :=
            congrArg Slot.generation (Option.some.inj hempty)
          obtain rfl : issued = id := by
            rw [hid, ← hgeneration]
            exact PayloadId.ext_parts (PayloadId.index_pack _ _) (PayloadId.generation_pack _ _)
          exact ⟨registry, rfl, hself⟩
        · rw [hfree] at hnil
          cases hnil

/-- A payload without handlers, of a thread. -/
def plain (owner : ThreadId) : Payload := .new owner (.empty .remote)

/-- The slot of a removed payload is used again, and its id stays dead. -/
theorem removed_id_returns_reused :
    (history [.insert (plain 1)]).get? (.pack 0 0) = some (plain 1)
      ∧ (history [.insert (plain 1), .remove (.pack 0 0), .insert (plain 2)]).get? (.pack 0 1)
        = some (plain 2)
      ∧ (history [.insert (plain 1), .remove (.pack 0 0), .insert (plain 2)]).get? (.pack 0 0)
        = none := by
  have hlive : (history [.insert (plain 1)]).get? (.pack 0 0) = some (plain 1) := rfl
  have hdead := (removed_id_returns [.insert (plain 1)] [.insert (plain 2)] (.pack 0 0) (plain 1)
    hlive).1
  have hcount : ¬ UInt32.size ∣ emptied (PayloadId.pack 0 0).index (history [.insert (plain 1)])
      [.remove (.pack 0 0), .insert (plain 2)] := by
    show ¬ UInt32.size ∣ 1
    decide
  exact ⟨hlive, rfl, (hdead hcount).1⟩

/-! ## An id that comes back -/

/-- Empties the first slot and fills it again, a number of times. -/
def rounds (p : Payload) : UInt32 → Nat → List Move
  | _, 0 => []
  | generation, n + 1 => .remove (.pack 0 generation) :: .insert p :: rounds p (generation + 1) n

/-- `n` rounds in the only slot leave it at the generation `n` further on. -/
theorem run_rounds (p : Payload) (generation : UInt32) (n : Nat) :
    (rounds p generation n).foldl apply ⟨[⟨generation, some p⟩], []⟩
      = ⟨[⟨generation + .ofNat n, some p⟩], []⟩ := by
  induction n generalizing generation with
  | zero =>
      show (⟨[⟨generation, some p⟩], []⟩ : Registry Payload) = ⟨[⟨generation + 0, some p⟩], []⟩
      rw [UInt32.add_zero]
  | succ n ih =>
      have hround : ((⟨[⟨generation, some p⟩], []⟩ : Registry Payload).apply
          (.remove (.pack 0 generation))).apply (.insert p)
          = ⟨[⟨generation + 1, some p⟩], []⟩ := by
        simp [apply, remove, insert]
      rw [rounds, List.foldl_cons, List.foldl_cons, hround, ih, UInt32.add_assoc,
        UInt32.add_comm 1, UInt32.ofNat_add]
      rfl

/-- A payload is removed, and its slot is used again 2^32 times. -/
def fullTurn : List Move :=
  .insert (plain 1) :: .remove (.pack 0 0) :: .insert (plain 2) :: rounds (plain 2) 1 4294967295

/-- Then its id resolves to the last of the newer payloads, and callbacks with
    the id are calls of that one. -/
theorem stale_id_resolves :
    (history [.insert (plain 1)]).remove (.pack 0 0)
        = (some (plain 1), history [.insert (plain 1), .remove (.pack 0 0)])
      ∧ (history fullTurn).get? (.pack 0 0) = some (plain 2)
      ∧ ((history fullTurn).remove (.pack 0 0)).1 = some (plain 2)
      ∧ ∀ caller call, ((history fullTurn).fire (.pack 0 0) .remote caller call).1
        = ((plain 2).fire caller call).1 := by
  have hturn : history fullTurn = ⟨[⟨0, some (plain 2)⟩], []⟩ := by
    rw [history, fullTurn, List.foldl_cons, List.foldl_cons, List.foldl_cons]
    -- 2^32 - 1 rounds from generation 1 lead back to generation 0
    show (rounds (plain 2) 1 4294967295).foldl apply ⟨[⟨1, some (plain 2)⟩], []⟩ = _
    rw [run_rounds]
    rfl
  have hget : (history fullTurn).get? (.pack 0 0) = some (plain 2) := by
    rw [hturn]
    rfl
  refine ⟨rfl, hget, ?_, ?_⟩
  · rw [remove_fst, hget]
  · intro caller call
    exact (fire_registered hget caller call).1

end Registry

end Gitwork
