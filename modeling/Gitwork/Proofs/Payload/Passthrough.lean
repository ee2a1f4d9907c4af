import Mathlib.Data.List.Forall2
import Gitwork.Proofs.Payload.Steps
import Gitwork.Proofs.Payload.FirstFailure

/-! # A handler that always declines is like none

    Beside a run of payload steps goes another one, in which a payload has in
    addition handlers that always decline.  They are called, and that is all.

    * registries whose entries are related slot by slot stay so in every operation
      (`Registry.Alike`);
    * a declining handler leaves the engine with the decline of its site, as an
      empty slot does, and handlers of other sites are not shown its calls
      (`Payload.Alike.fire`);
    * so each step has the same answer in both runs but for the calls that were made
      (`PayloadRun.Alike.play`), and so has the whole run. -/

namespace Gitwork

/-! ## Registries with related entries -/

section Lists

variable {α β : Type} {R : α → β → Prop} {l : List α} {l' : List β}

/-- Related lists have related entries, and end at the same index. -/
theorem forall₂_getElem? (h : List.Forall₂ R l l') (i : Nat) : Option.Rel R l[i]? l'[i]? := by
  induction h generalizing i with
  | nil => exact .none
  | cons hab _ ih =>
      cases i with
      | zero => exact .some hab
      | succ i => exact ih i

/-- Related lists stay so when related entries are set at one index. -/
theorem forall₂_set (h : List.Forall₂ R l l') {a : α} {b : β} (hab : R a b) (i : Nat) :
    List.Forall₂ R (l.set i a) (l'.set i b) := by
  induction h generalizing i with
  | nil => exact .nil
  | cons hcd hrest ih =>
      cases i with
      | zero => exact .cons hab hrest
      | succ i => exact .cons hcd (ih i)

/-- Related optional values are both absent or both there. -/
theorem rel_cases {x : Option α} {y : Option β} (h : Option.Rel R x y) :
    (x = none ∧ y = none) ∨ ∃ a b, x = some a ∧ y = some b ∧ R a b := by
  cases h with
  | none => exact Or.inl ⟨rfl, rfl⟩
  | some hab => exact Or.inr ⟨_, _, rfl, rfl, hab⟩

end Lists

/-- Slots of one generation, with related entries. -/
def Slot.Alike {α : Type} (R : α → α → Prop) (s s' : Slot α) : Prop :=
  s.generation = s'.generation ∧ Option.Rel R s.entry s'.entry

namespace Registry

variable {α : Type} {R : α → α → Prop} {r r' : Registry α} {a b : α}

/-- The same slots are free, and the others have related entries. -/
structure Alike (R : α → α → Prop) (r r' : Registry α) : Prop where
  free : r.free = r'.free
  slots : List.Forall₂ (Slot.Alike R) r.slots r'.slots

/-- A registry is like itself. -/
theorem Alike.refl (hR : ∀ a, R a a) (r : Registry α) : Alike R r r where
  free := rfl
  slots := by
    refine List.forall₂_same.mpr fun slot _ => ⟨rfl, ?_⟩
    cases slot.entry with
    | none => exact .none
    | some a => exact .some (hR a)

/-- Where an index leads in both. -/
theorem Alike.slot (h : Alike R r r') (i : Nat) :
    (r.slots[i]? = none ∧ r'.slots[i]? = none)
      ∨ ∃ generation entry entry', r.slots[i]? = some ⟨generation, entry⟩
        ∧ r'.slots[i]? = some ⟨generation, entry'⟩ ∧ Option.Rel R entry entry' := by
  rcases rel_cases (forall₂_getElem? h.slots i) with hnone | ⟨s, s', hs, hs', hgeneration, hentry⟩
  · exact Or.inl hnone
  · obtain ⟨generation, entry⟩ := s
    obtain ⟨generation', entry'⟩ := s'
    obtain rfl : generation = generation' := hgeneration
    exact Or.inr ⟨generation, entry, entry', hs, hs', hentry⟩

/-- Setting related entries in one slot of both. -/
theorem Alike.set (h : Alike R r r') (i : Nat) (generation : UInt32) {entry entry' : Option α}
    (hentry : Option.Rel R entry entry') (free : List UInt32) :
    Alike R ⟨r.slots.set i ⟨generation, entry⟩, free⟩
      ⟨r'.slots.set i ⟨generation, entry'⟩, free⟩ where
  free := rfl
  slots := forall₂_set h.slots (by exact ⟨rfl, hentry⟩) i

/-- An id resolves in both registries, or in neither. -/
theorem Alike.get? (h : Alike R r r') (id : PayloadId) :
    Option.Rel R (r.get? id) (r'.get? id) := by
  rcases h.slot id.index.toNat with ⟨hs, hs'⟩ | ⟨generation, entry, entry', hs, hs', hentry⟩
  · simp only [Registry.get?, hs, hs']
    exact .none
  · simp only [Registry.get?, hs, hs']
    by_cases hg : generation = id.generation
    · simpa [hg] using hentry
    · simp [hg]

/-- Both grow by a slot at the same id, or both are full. -/
theorem Alike.grow (h : Alike R r r') (hab : R a b) :
    (∃ e, r.grow a = .error e ∧ r'.grow b = .error e)
      ∨ ∃ id after after', r.grow a = .ok (id, after) ∧ r'.grow b = .ok (id, after')
        ∧ Alike R after after' := by
  have hlength : r'.slots.length = r.slots.length := h.slots.length_eq.symm
  rw [Registry.grow, Registry.grow, hlength]
  by_cases hlt : r.slots.length < UInt32.size
  · rw [if_pos hlt, if_pos hlt]
    refine Or.inr ⟨_, _, _, rfl, rfl, h.free, ?_⟩
    exact List.rel_append h.slots (.cons ⟨rfl, .some hab⟩ .nil)
  · rw [if_neg hlt, if_neg hlt]
    exact Or.inl ⟨_, rfl, rfl⟩

/-- Both insert at the same id, or both are full. -/
theorem Alike.insert (h : Alike R r r') (hab : R a b) :
    (∃ e, r.insert a = .error e ∧ r'.insert b = .error e)
      ∨ ∃ id after after', r.insert a = .ok (id, after) ∧ r'.insert b = .ok (id, after')
        ∧ Alike R after after' := by
  have hfree' := h.free
  -- the free lists agree, so both pop the same slot or both grow
  cases hfree : r.free with
  | nil =>
      rw [hfree] at hfree'
      simp only [Registry.insert, hfree, ← hfree']
      exact h.grow hab
  | cons i rest =>
      rw [hfree] at hfree'
      simp only [Registry.insert, hfree, ← hfree']
      rcases h.slot i.toNat with ⟨hs, hs'⟩ | ⟨generation, entry, entry', hs, hs', -⟩
      · simp only [hs, hs']
        have hpopped : Alike R { r with free := rest } { r' with free := rest } := ⟨rfl, h.slots⟩
        exact hpopped.grow hab
      · simp only [hs, hs']
        exact Or.inr ⟨_, _, _, rfl, rfl, h.set i.toNat generation (.some hab) rest⟩

/-- A remove empties the same slot of both. -/
theorem Alike.remove (h : Alike R r r') (id : PayloadId) :
    Alike R (r.remove id).2 (r'.remove id).2 := by
  rcases h.slot id.index.toNat with ⟨hs, hs'⟩ | ⟨generation, entry, entry', hs, hs', hentry⟩
  · simp only [Registry.remove, hs, hs']
    exact h
  · simp only [Registry.remove, hs, hs']
    by_cases hg : generation = id.generation
    · rw [if_pos hg, if_pos hg]
      cases hentry with
      | none => exact h
      | some _ =>
          rw [h.free]
          exact h.set _ _ .none _
    · rw [if_neg hg, if_neg hg]
      exact h

/-- Related payloads can be written behind one id of both. -/
theorem Alike.modify (h : Alike R r r') (id : PayloadId) (hab : R a b) :
    Alike R (r.modify id fun _ => a) (r'.modify id fun _ => b) := by
  rcases h.slot id.index.toNat with ⟨hs, hs'⟩ | ⟨generation, entry, entry', hs, hs', hentry⟩
  · simp only [Registry.modify, hs, hs']
    exact h
  · simp only [Registry.modify, hs, hs']
    by_cases hg : generation = id.generation
    · rw [if_pos hg, if_pos hg]
      have hput : Option.Rel R (entry.map fun _ => a) (entry'.map fun _ => b) := by
        cases hentry with
        | none => exact .none
        | some _ => exact .some hab
      rw [h.free]
      exact h.set _ _ hput _
    · rw [if_neg hg, if_neg hg]
      exact h

end Registry

/-! ## Handlers that always decline -/

/-- The handler that asks for the default behaviour whatever it is called with. -/
def Handler.Declines {site : CallSite} (f : Handler site) : Prop :=
  ∀ earlier call, f.answer earlier call = .decline

/-- The same handlers, but that the second set may have declining ones where the
    first has none. -/
structure HandlerSet.Alike (h g : HandlerSet) : Prop where
  kind : h.kind = g.kind
  slot : ∀ site, h.slot site = g.slot site
    ∨ (h.slot site = none ∧ ∃ f, g.slot site = some f ∧ f.Declines)

theorem HandlerSet.Alike.refl (h : HandlerSet) : h.Alike h := ⟨rfl, fun _ => Or.inl rfl⟩

namespace Payload

variable {p q : Payload} {call : Call}

/-- The calls that a handler is shown. -/
def callsAt (p : Payload) (site : CallSite) : List Call := p.calls.filter (·.site = site)

/-- At a site, both have the same handler with the same memory, or the first has
    none and that of the second always declines. -/
def AlikeAt (p q : Payload) (site : CallSite) : Prop :=
  (p.handlers.handler? site = q.handlers.handler? site ∧ p.callsAt site = q.callsAt site)
    ∨ (p.handlers.handler? site = none
      ∧ ∃ f, q.handlers.handler? site = some f ∧ f.Declines)

/-- Payloads with the same thread and the same failure, alike at every site. -/
structure Alike (p q : Payload) : Prop where
  owner : p.owner = q.owner
  kind : p.handlers.kind = q.handlers.kind
  deferred : p.deferred = q.deferred
  site : ∀ site, p.AlikeAt q site

theorem Alike.refl (p : Payload) : p.Alike p := ⟨rfl, rfl, rfl, fun _ => Or.inl ⟨rfl, rfl⟩⟩

/-- New payloads with alike sets are alike: no handler was called yet. -/
theorem Alike.new {h g : HandlerSet} (hoff : h.Alike g) (owner : ThreadId) :
    (new owner h).Alike (new owner g) where
  owner := rfl
  kind := hoff.kind
  deferred := rfl
  site := by
    intro site
    show (h.handler? site = g.handler? site ∧ [] = [])
      ∨ (h.handler? site = none ∧ ∃ f, g.handler? site = some f ∧ f.Declines)
    rw [HandlerSet.handler?, HandlerSet.handler?, hoff.kind]
    -- a kind owns the same sites in both, and a site it does not own has no handler
    by_cases howns : g.kind.owns site = true
    · rw [if_pos howns, if_pos howns]
      rcases hoff.slot site with hsame | hdeclines
      · exact Or.inl ⟨hsame, rfl⟩
      · exact Or.inr hdeclines
    · rw [if_neg howns, if_neg howns]
      exact Or.inl ⟨rfl, rfl⟩

/-- The failure of a payload has no part in what its handlers are and see. -/
theorem Alike.setDeferred (h : p.Alike q) (e : Option Error) :
    Alike { p with deferred := e } { q with deferred := e } :=
  ⟨h.owner, h.kind, rfl, h.site⟩

theorem Alike.record (h : p.Alike q) (e : Error) : (p.record e).Alike (q.record e) := by
  rw [Payload.record, Payload.record, h.deferred]
  exact h.setDeferred _

/-- A payload that remembers one more call. -/
def log (p : Payload) (call : Call) : Payload := { p with calls := call :: p.calls }

/-- A logged call is seen at its own site. -/
theorem callsAt_log (p : Payload) (call : Call) (site : CallSite) :
    (p.log call).callsAt site
      = if call.site = site then call :: p.callsAt site else p.callsAt site := by
  by_cases heq : call.site = site
  · simp [callsAt, log, heq]
  · simp [callsAt, log, heq]

/-- The same call logged in both. -/
theorem Alike.log (h : p.Alike q) (call : Call) : (p.log call).Alike (q.log call) where
  owner := h.owner
  kind := h.kind
  deferred := h.deferred
  site := by
    intro site
    rcases h.site site with ⟨hhandler, hcalls⟩ | hdeclines
    · refine Or.inl ⟨hhandler, ?_⟩
      rw [callsAt_log, callsAt_log, hcalls]
    · exact Or.inr hdeclines

/-- Only a declining handler remembers a call of its site. -/
theorem Alike.log_right (h : p.Alike q) {call : Call}
    (hcall : p.handlers.handler? call.site = none
      ∧ ∃ f, q.handlers.handler? call.site = some f ∧ f.Declines) : p.Alike (q.log call) where
  owner := h.owner
  kind := h.kind
  deferred := h.deferred
  site := by
    intro site
    -- the call is of the site with the declining handler, which only the right one has
    by_cases heq : call.site = site
    · subst heq
      exact Or.inr hcall
    · rcases h.site site with ⟨hhandler, hcalls⟩ | hdeclines
      · refine Or.inl ⟨hhandler, ?_⟩
        rw [callsAt_log, if_neg heq, hcalls]
      · exact Or.inr hdeclines

/-- What a payload makes of the outcome of a handler. -/
theorem invoke_some {f : Handler call.site} (hf : p.handlers.handler? call.site = some f) :
    p.invoke call = match f.answer (p.callsAt call.site) call with
      | .value r => (.replied (.ofValue r), p.log call)
      | .decline => (.replied (.ofStatus call.site.declineStatus), p.log call)
      | .fail e => (.replied (.ofStatus .user), (p.log call).record e)
      | .panicked text => (.panicked text, p.log call) := by
  simp only [invoke, hf]
  rfl

theorem invoke_none (hnone : p.handlers.handler? call.site = none) :
    p.invoke call = (.replied (.ofStatus call.site.declineStatus), p) := by
  simp only [invoke, hnone]

/-- A handler is called alike; one that declines is called on the right only. -/
theorem Alike.invoke (h : p.Alike q) (call : Call) :
    (p.invoke call).1 = (q.invoke call).1 ∧ (p.invoke call).2.Alike (q.invoke call).2 := by
  rcases h.site call.site with ⟨hhandler, hcalls⟩ | ⟨hnone, f, hf, hdeclines⟩
  · cases hf : q.handlers.handler? call.site with
    | none =>
        rw [invoke_none hf, invoke_none (hhandler.trans hf)]
        exact ⟨rfl, h⟩
    | some f =>
        -- one handler, which has seen the same calls
        rw [invoke_some hf, invoke_some (hhandler.trans hf), hcalls]
        cases f.answer (q.callsAt call.site) call with
        | value r => exact ⟨rfl, h.log call⟩
        | decline => exact ⟨rfl, h.log call⟩
        | fail e => exact ⟨rfl, (h.log call).record e⟩
        | panicked text => exact ⟨rfl, h.log call⟩
  · rw [invoke_none hnone, invoke_some hf, hdeclines]
    exact ⟨rfl, h.log_right ⟨hnone, f, hf, hdeclines⟩⟩

/-- A callback is answered alike, after the same check of the thread. -/
theorem Alike.fire (h : p.Alike q) (caller : ThreadId) (call : Call) :
    (p.fire caller call).1 = (q.fire caller call).1
      ∧ (p.fire caller call).2.Alike (q.fire caller call).2 := by
  by_cases hcaller : caller = q.owner
  · rw [Payload.fire, Payload.fire, h.owner, if_pos hcaller, if_pos hcaller]
    exact h.invoke call
  · have hcaller' : caller ≠ p.owner := by rw [h.owner]; exact hcaller
    rw [fire_foreign hcaller, fire_foreign hcaller', h.owner]
    exact ⟨rfl, h.record _⟩

/-- What empties the slot tells the same of both. -/
theorem Alike.check {α : Type} (h : p.Alike q) (native : Except NativeError α) :
    (p.check native).1 = (q.check native).1 ∧ (p.check native).2.Alike (q.check native).2 := by
  rw [check_eq, check_eq, h.deferred]
  exact ⟨rfl, h.setDeferred none⟩

theorem Alike.takeError (h : p.Alike q) :
    p.takeError.1 = q.takeError.1 ∧ p.takeError.2.Alike q.takeError.2 :=
  ⟨h.deferred, h.setDeferred none⟩

/-- The check of a bare status reports what is parked before the status. -/
theorem checkStatus_eq (p : Payload) (s : Status) :
    p.checkStatus s = (p.deferred.elim
        (if s.isOk then .ok () else .error (.ofStatus s ("native call failed: " ++ s.text)))
        fun e => .error (.callback e), { p with deferred := none }) := by
  cases hd : p.deferred with
  | none =>
      by_cases hok : s.isOk = true
      · simp [Payload.checkStatus, Payload.takeError, hd, hok]
      · simp [Payload.checkStatus, Payload.takeError, hd, hok]
  | some e => simp [Payload.checkStatus, Payload.takeError, hd]

theorem Alike.checkStatus (h : p.Alike q) (s : Status) :
    (p.checkStatus s).1 = (q.checkStatus s).1
      ∧ (p.checkStatus s).2.Alike (q.checkStatus s).2 := by
  rw [checkStatus_eq, checkStatus_eq, h.deferred]
  exact ⟨rfl, h.setDeferred none⟩

end Payload

/-! ## Replies and runs -/

/-- What is made of a reply on its way to the engine.  The sites for credentials
    and for certificates have a form of their own. -/
structure NativeReply where
  goesOn : Bool
  plain : Except NativeError Unit
  credential : Option (Except NativeError Nat)
  certificate : Option (Except NativeError CertificateVerdict)

def Call.native : (call : Call) → Reply call.site.Value → NativeReply
  | .credentials .., r => ⟨r.goesOn, r.toNative, some r.toCredential, none⟩
  | .certificateCheck .., r => ⟨r.goesOn, r.toNative, none, some r.toCertificate⟩
  | _, r => ⟨r.goesOn, r.toNative, none, none⟩

namespace PayloadStep

/-- An answer without the calls that were made, and with what the engine is told. -/
def Heard : PayloadStep → Type
  | fire _ _ _ call => Option (Fired call.site.Value × Option NativeReply)
  | s => s.Answer

def heard : (s : PayloadStep) → s.Answer → s.Heard
  | fire _ _ _ call, answer => Option.map (fun told => (told.1, match told.1 with
    | .replied r => some (call.native r)
    | .panicked _ => none)) answer
  | new .., answer | hasError _, answer | takeError _, answer | check .., answer
  | checkStatus .., answer | drop _, answer => answer

end PayloadStep

/-- What the engine and the program hear of a step. -/
def Told.heard (e : Told) : (s : PayloadStep) × s.Heard := ⟨e.1, e.1.heard e.2⟩

namespace PayloadRun

variable {a b : PayloadRun} {name : String}

/-- Runs with the same names and ids, and payloads that are alike. -/
structure Alike (a b : PayloadRun) : Prop where
  registry : Registry.Alike Payload.Alike a.registry b.registry
  ids : a.ids = b.ids
  live : a.live = b.live

theorem Alike.refl (r : PayloadRun) : r.Alike r :=
  ⟨.refl Payload.Alike.refl r.registry, rfl, rfl⟩

theorem Alike.id (h : a.Alike b) (name : String) : a.id name = b.id name := by
  rw [PayloadRun.id, PayloadRun.id, h.ids]

theorem Alike.payload? (h : a.Alike b) (name : String) :
    Option.Rel Payload.Alike (a.payload? name) (b.payload? name) := by
  rw [PayloadRun.payload?, PayloadRun.payload?, h.live, h.id]
  split
  · exact h.registry.get? _
  · exact .none

/-- Related payloads put behind one name. -/
theorem Alike.put (h : a.Alike b) (name : String) {p q : Payload} (hpq : p.Alike q) :
    (a.put name p).Alike (b.put name q) where
  registry := by
    show Registry.Alike Payload.Alike (a.registry.modify (a.id name) fun _ => p)
      (b.registry.modify (b.id name) fun _ => q)
    rw [h.id]
    exact h.registry.modify _ hpq
  ids := h.ids
  live := h.live

/-- A name is dropped alike. -/
theorem Alike.drop (h : a.Alike b) (name : String) :
    (a.drop name).1 = (b.drop name).1 ∧ (a.drop name).2.Alike (b.drop name).2 := by
  rw [PayloadRun.drop, PayloadRun.drop, h.live]
  split
  · refine ⟨rfl, ?_, h.ids, rfl⟩
    rw [h.id]
    exact h.registry.remove _
  · exact ⟨rfl, h⟩

/-- A name adopts the same id in both. -/
theorem Alike.adopt (h : a.Alike b) (name : String) (id : PayloadId) :
    (a.adopt name id).Alike (b.adopt name id) where
  registry := h.registry
  ids := by
    show (name, id) :: a.ids.filter (·.1 != name) = (name, id) :: b.ids.filter (·.1 != name)
    rw [h.ids]
  live := by
    show name :: a.live = name :: b.live
    rw [h.live]

/-- A registration with alike sets succeeds in both, at the same id, or fails in both. -/
theorem Alike.new (h : a.Alike b) (name : String) (owner : ThreadId) {hs gs : HandlerSet}
    (hoff : hs.Alike gs) :
    (a.play (.new name owner hs)).1 = (b.play (.new name owner gs)).1
      ∧ (a.play (.new name owner hs)).2.Alike (b.play (.new name owner gs)).2 := by
  rcases h.registry.insert (Payload.Alike.new hoff owner) with ⟨e, ha, hb⟩
    | ⟨id, registry, registry', ha, hb, halike⟩
  · rw [play_new_error ha, play_new_error hb]
    exact ⟨rfl, h⟩
  · have hmid : ({ a with registry } : PayloadRun).Alike { b with registry := registry' } :=
      ⟨halike, h.ids, h.live⟩
    have hdropped : a.live.contains name = b.live.contains name := by rw [h.live]
    rw [play_new_ok ha, play_new_ok hb, hdropped]
    exact ⟨rfl, (hmid.drop name).2.adopt name id⟩

/-- A callback of a run is answered alike. -/
theorem Alike.fire (h : a.Alike b) (name : String) (kind : Option SetKind) (caller : ThreadId)
    (call : Call) :
    (a.fire name kind caller call).1 = (b.fire name kind caller call).1
      ∧ (a.fire name kind caller call).2.2.Alike (b.fire name kind caller call).2.2 := by
  have hget := h.registry.get? (a.id name)
  rw [h.id] at hget
  rcases rel_cases hget with ⟨hp, hq⟩ | ⟨p, q, hp, hq, hpq⟩
  · rw [← h.id] at hp
    rw [fire_dead hp, fire_dead hq]
    exact ⟨rfl, h⟩
  · rw [← h.id] at hp
    by_cases hkind : kind.getD q.handlers.kind = q.handlers.kind
    · rw [fire_alive hq hkind]
      rw [← hpq.kind] at hkind
      rw [fire_alive hp hkind]
      obtain ⟨hfired, hafter⟩ := hpq.fire caller call
      exact ⟨hfired, h.put name hafter⟩
    · rw [fire_mistaken hq hkind]
      rw [← hpq.kind] at hkind
      rw [fire_mistaken hp hkind]
      exact ⟨rfl, h⟩

/-- A question whose answer related payloads agree on is answered alike. -/
theorem Alike.ask {α : Type} (h : a.Alike b) (name : String) {f : Payload → α × Payload}
    (hf : ∀ p q : Payload, p.Alike q → (f p).1 = (f q).1 ∧ (f p).2.Alike (f q).2) :
    (a.ask name f).1 = (b.ask name f).1 ∧ (a.ask name f).2.Alike (b.ask name f).2 := by
  rcases rel_cases (h.payload? name) with ⟨hp, hq⟩ | ⟨p, q, hp, hq, hpq⟩
  · rw [ask_none hp, ask_none hq]
    exact ⟨rfl, h⟩
  · obtain ⟨hanswer, hafter⟩ := hf p q hpq
    rw [ask_alive hp, ask_alive hq, hanswer]
    exact ⟨rfl, h.put name hafter⟩

/-- **A step is heard the same in both.** -/
theorem Alike.play (h : a.Alike b) (s : PayloadStep) :
    s.heard (a.play s).1 = s.heard (b.play s).1 ∧ (a.play s).2.Alike (b.play s).2 := by
  cases s with
  | new name owner handlers => exact h.new name owner (.refl handlers)
  | fire name kind caller call =>
      obtain ⟨hfired, hafter⟩ := h.fire name kind caller call
      rw [PayloadRun.play, PayloadRun.play, h.ids]
      by_cases hid : (b.ids.lookup name).isSome = true
      · rw [if_pos hid, if_pos hid]
        refine ⟨?_, hafter⟩
        rw [PayloadStep.heard, PayloadStep.heard, Option.map_some, Option.map_some, hfired]
      · rw [if_neg hid, if_neg hid]
        exact ⟨rfl, h⟩
  | hasError name =>
      refine ⟨?_, h⟩
      show (a.payload? name).map (·.hasError) = (b.payload? name).map (·.hasError)
      rcases rel_cases (h.payload? name) with ⟨hp, hq⟩ | ⟨p, q, hp, hq, hpq⟩
      · rw [hp, hq]
      · rw [hp, hq, Option.map_some, Option.map_some, Payload.hasError, Payload.hasError,
          hpq.deferred]
  | takeError name => exact h.ask name fun _ _ hpq => hpq.takeError
  | check name native => exact h.ask name fun _ _ hpq => hpq.check native
  | checkStatus name status => exact h.ask name fun _ _ hpq => hpq.checkStatus status
  | drop name => exact h.drop name

theorem Alike.after (h : a.Alike b) (steps : List PayloadStep) :
    (a.after steps).Alike (b.after steps) := by
  induction steps generalizing a b with
  | nil => exact h
  | cons s rest ih => exact ih (h.play s).2

/-- The engine hears the same in both runs. -/
theorem Alike.transcript (h : a.Alike b) (steps : List PayloadStep) :
    (a.transcript steps).map Told.heard = (b.transcript steps).map Told.heard := by
  induction steps generalizing a b with
  | nil => rfl
  | cons s rest ih =>
      obtain ⟨hheard, hafter⟩ := h.play s
      rw [PayloadRun.transcript, PayloadRun.transcript, List.map_cons, List.map_cons, ih hafter,
        Told.heard, Told.heard, hheard]

theorem Alike.deferred (h : a.Alike b) (name : String) :
    (a.payload? name).map (·.deferred) = (b.payload? name).map (·.deferred) := by
  rcases rel_cases (h.payload? name) with ⟨hp, hq⟩ | ⟨p, q, hp, hq, hpq⟩
  · rw [hp, hq]
  · rw [hp, hq, Option.map_some, Option.map_some, hpq.deferred]

end PayloadRun

/-- **Passthrough is as if there were no handler.**

    At any point of a run make a payload, once with some sites empty and once with
    handlers that always decline there.  Then both creations have one outcome, and
    whatever steps come after, with this payload and with others, from any threads,
    the same is heard of each: the status, the value and the native reply of every
    callback, and the answers of all checks.  The payloads hold the same failures. -/
theorem passthrough_as_absent (r : PayloadRun) (name : String) (owner : ThreadId)
    {h g : HandlerSet} (hoff : h.Alike g) (steps : List PayloadStep) :
    let a := r.play (.new name owner h)
    let b := r.play (.new name owner g)
    a.1 = b.1
      ∧ (a.2.transcript steps).map Told.heard = (b.2.transcript steps).map Told.heard
      ∧ ∀ other, ((a.2.after steps).payload? other).map (·.deferred)
        = ((b.2.after steps).payload? other).map (·.deferred) := by
  intro a b
  obtain ⟨hanswer, halike⟩ := (PayloadRun.Alike.refl r).new name owner hoff
  refine ⟨hanswer, halike.transcript steps, ?_⟩
  intro other
  exact (halike.after steps).deferred other

/-- Asks for credentials, and tells of a reference until that fails. -/
def askedForCredentials : List PayloadStep :=
  let ask := Call.credentials "https://example.com/r.git" none (.ofBits 1)
  let tip := Call.updateTips "refs/heads/main" .zero .zero
  [.fire "p" none 1 ask, .fire "p" none 1 tip, .fire "p" none 1 tip, .fire "p" none 1 ask,
    .checkStatus "p" .ok]

/-- The handler for credentials is called, and makes no difference. -/
theorem passthrough_as_absent_credentials :
    let a := (PayloadRun.empty.play (.new "p" 1 failingTips)).2
    let b := (PayloadRun.empty.play
      (.new "p" 1 (failingTips.install .credentials .declining))).2
    (a.transcript askedForCredentials).map Told.heard
        = (b.transcript askedForCredentials).map Told.heard
      ∧ ((a.after askedForCredentials).payload? "p").map (·.calls.length) = some 2
      ∧ ((b.after askedForCredentials).payload? "p").map (·.calls.length) = some 4 := by
  have hoff : failingTips.Alike (failingTips.install .credentials .declining) := by
    refine ⟨rfl, ?_⟩
    intro site
    by_cases heq : site = .credentials
    · subst heq
      exact Or.inr ⟨rfl, .declining, rfl, fun _ _ => rfl⟩
    · left
      show failingTips.slot site = if e : site = .credentials then _ else failingTips.slot site
      rw [dif_neg heq]
  exact ⟨(passthrough_as_absent .empty "p" 1 hoff askedForCredentials).2.1, rfl, rfl⟩

end Gitwork
