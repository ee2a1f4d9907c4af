import Gitwork.Proofs.Error
import Gitwork.Repo.Basic

/-! # What the readers of references say

    From a name the disk leads to an id, or to a name of which there is nothing
    (`RefStore.Leads`).  Resolving finds out which, if no more symbolic
    references are passed than it may follow (`RefStore.resolve_tells`).

    The readers take the first step on their own and resolve what they have read
    (`RefStore.Reaches`).  They agree on what is found; what they make of a chain
    that ends in a missing name depends on the reader. -/

namespace Gitwork

namespace RefStore

variable {s : RefStore} {name next : String} {v : RefValue} {n : Nat} {stop : Option Oid}

/-- There is no reference of the name, and the disk can tell. -/
structure Missing (s : RefStore) (name : String) : Prop where
  nothing : s.get? name = none
  readable : s.unreadable.get? name = none

theorem find_valid (hname : RefName.isValid name = true) : s.find name = s.read name :=
  if_pos hname

theorem read_missing (h : s.Missing name) : s.read name = .error .notFound := by
  rw [read, h.readable, h.nothing]

/-- Only a missing name is not found. -/
theorem read_error_iff : (∃ e, s.read name = .error e ∧ e.code = -3) ↔ s.Missing name := by
  constructor
  · rintro ⟨e, hread, hcode⟩
    rw [read] at hread
    -- an entry that cannot be read is reported with a code of its own
    cases hunreadable : s.unreadable.get? name with
    | some failure =>
        rw [hunreadable] at hread
        rw [← Except.error.inj hread] at hcode
        exact absurd hcode failure.found
    | none =>
        rw [hunreadable] at hread
        refine ⟨?_, hunreadable⟩
        cases hget : s.get? name with
        | none => rfl
        | some v =>
            simp only [hget] at hread
            split at hread
            · next heq => cases heq
            · next heq =>
                rw [← Except.error.inj hread] at hcode
                exact absurd hcode (by decide)
            · cases hread
  · exact fun h => ⟨_, read_missing h, rfl⟩

/-! ## Chains -/

/-- A name leads to an id, or to nothing, past a number of symbolic references. -/
inductive Leads (s : RefStore) : Nat → String → Option Oid → Prop
  | object {name : String} {id : Oid} : s.read name = .ok (.direct id) → Leads s 0 name (some id)
  | missing {name : String} : s.Missing name → Leads s 0 name none
  | link {name next : String} {n : Nat} {stop : Option Oid} :
      s.read name = .ok (.symbolic next) → Leads s n next stop → Leads s (n + 1) name stop

/-! What a name holds says where it leads. -/

/-- A direct reference leads to its object at once. -/
theorem leads_direct {id : Oid} (hread : s.read name = .ok (.direct id)) :
    s.Leads n name stop ↔ n = 0 ∧ stop = some id := by
  constructor
  · intro h
    cases h with
    | object hread' =>
        rw [hread] at hread'
        cases hread'
        exact ⟨rfl, rfl⟩
    | missing hmissing =>
        rw [read_missing hmissing] at hread
        cases hread
    | link hread' _ =>
        rw [hread] at hread'
        cases hread'
  · rintro ⟨rfl, rfl⟩
    exact .object hread

/-- A symbolic reference leads on, one link further. -/
theorem leads_symbolic (hread : s.read name = .ok (.symbolic next)) :
    s.Leads n name stop ↔ ∃ m, n = m + 1 ∧ s.Leads m next stop := by
  constructor
  · intro h
    cases h with
    | object hread' =>
        rw [hread] at hread'
        cases hread'
    | missing hmissing =>
        rw [read_missing hmissing] at hread
        cases hread
    | link hread' hrest =>
        rw [hread] at hread'
        cases hread'
        exact ⟨_, rfl, hrest⟩
  · rintro ⟨m, rfl, hrest⟩
    exact .link hread hrest

/-- A name that cannot be read leads somewhere only if it is missing. -/
theorem leads_error {e : NativeError} (hread : s.read name = .error e) :
    s.Leads n name stop ↔ e.code = -3 ∧ n = 0 ∧ stop = none := by
  have hmissing : e.code = -3 ↔ s.Missing name := by
    rw [← read_error_iff, hread]
    simp
  rw [hmissing]
  constructor
  · intro h
    cases h with
    | object hread' | link hread' _ =>
        rw [hread] at hread'
        cases hread'
    | missing hmissing => exact ⟨hmissing, rfl, rfl⟩
  · rintro ⟨hmissing, rfl, rfl⟩
    exact .missing hmissing

/-- A chain has one end. -/
theorem Leads.unique {m : Nat} {stop' : Option Oid} (h : s.Leads n name stop)
    (h' : s.Leads m name stop') : n = m ∧ stop = stop' := by
  induction h generalizing m with
  | object hread =>
      obtain ⟨rfl, rfl⟩ := (leads_direct hread).mp h'
      exact ⟨rfl, rfl⟩
  | missing hmissing =>
      obtain ⟨-, rfl, rfl⟩ := (leads_error (read_missing hmissing)).mp h'
      exact ⟨rfl, rfl⟩
  | link hread _ ih =>
      obtain ⟨m, rfl, hrest⟩ := (leads_symbolic hread).mp h'
      obtain ⟨rfl, rfl⟩ := ih hrest
      exact ⟨rfl, rfl⟩

/-- A name leads somewhere past so many symbolic references at most. -/
def LeadsWithin (s : RefStore) (most : Nat) (name : String) (stop : Option Oid) : Prop :=
  ∃ n ≤ most, s.Leads n name stop

/-- A chain has one end. -/
theorem LeadsWithin.unique {most : Nat} {stop' : Option Oid} (h : s.LeadsWithin most name stop)
    (h' : s.LeadsWithin most name stop') : stop = stop' := by
  obtain ⟨n, -, h⟩ := h
  obtain ⟨m, -, h'⟩ := h'
  exact (h.unique h').2

/-- A symbolic reference leads where the name leads that it holds. -/
theorem leadsWithin_link {most : Nat} (hread : s.read name = .ok (.symbolic next)) :
    s.LeadsWithin (most + 1) name stop ↔ s.LeadsWithin most next stop := by
  constructor
  · rintro ⟨n, hn, h⟩
    obtain ⟨m, rfl, hrest⟩ := (leads_symbolic hread).mp h
    exact ⟨m, Nat.le_of_succ_le_succ hn, hrest⟩
  · rintro ⟨n, hn, h⟩
    exact ⟨n + 1, Nat.succ_le_succ hn, .link hread h⟩

/-! ## Resolving -/

/-- A result tells where something leads: to an id, to a missing name, or neither
    can be said. -/
inductive Tells (leads : Option Oid → Prop) : Except NativeError Oid → Prop
  | found {id : Oid} : leads (some id) → Tells leads (.ok id)
  | missing : leads none → Tells leads (.error .notFound)
  | failed {e : NativeError} : e.code ≠ -3 → (∀ stop, ¬ leads stop) → Tells leads (.error e)

namespace Tells

variable {leads leads' : Option Oid → Prop} {result : Except NativeError Oid}

/-- A result tells of any chain that leads to the same places. -/
theorem congr (h : Tells leads result) (hsame : ∀ stop, leads stop ↔ leads' stop) :
    Tells leads' result := by
  cases h with
  | found hfound => exact .found ((hsame _).mp hfound)
  | missing hmissing => exact .missing ((hsame _).mp hmissing)
  | failed he hnowhere => exact .failed he fun stop h => hnowhere stop ((hsame _).mpr h)

/-- A result is an id exactly if the chain leads to it. -/
theorem ok_iff (h : Tells leads result) (hunique : ∀ a b, leads a → leads b → a = b) {id : Oid} :
    result = .ok id ↔ leads (some id) := by
  cases h with
  | @found id' hfound =>
      constructor
      · intro heq
        rwa [← Except.ok.inj heq]
      · intro hleads
        rw [Option.some.inj (hunique _ _ hfound hleads)]
  | missing hmissing =>
      constructor
      · intro heq
        cases heq
      · intro hleads
        cases hunique _ _ hmissing hleads
  | failed _ hnowhere =>
      constructor
      · intro heq
        cases heq
      · exact fun hleads => absurd hleads (hnowhere _)

/-- A result is not found exactly if the chain leads to a missing name. -/
theorem notFound_iff (h : Tells leads result) (hunique : ∀ a b, leads a → leads b → a = b) :
    (∃ e, result = .error e ∧ e.code = -3) ↔ leads none := by
  cases h with
  | found hfound =>
      constructor
      · rintro ⟨e, heq, -⟩
        cases heq
      · intro hleads
        cases hunique _ _ hfound hleads
  | missing hmissing => exact ⟨fun _ => hmissing, fun _ => ⟨_, rfl, rfl⟩⟩
  | failed he hnowhere =>
      -- other failures say nothing about the end of the chain
      constructor
      · rintro ⟨e, heq, hcode⟩
        rw [← Except.error.inj heq] at hcode
        exact absurd hcode he
      · exact fun hleads => absurd hleads (hnowhere _)

end Tells

end RefStore

/-- The id that a value has, which is the last one of a chain. -/
def RefValue.end : RefValue → Except NativeError Oid
  | .direct id => .ok id
  | .symbolic _ => .error .notFound

namespace RefStore

variable {s : RefStore} {name next : String} {v : RefValue} {n : Nat} {stop : Option Oid}

/-- What cannot be read leads nowhere, unless it is missing. -/
theorem error_tells {e : NativeError} (most : Nat) (hread : s.read name = .error e) :
    Tells (s.LeadsWithin most name) (.error e) := by
  by_cases hcode : e.code = -3
  · have hmissing := read_error_iff.mp ⟨e, hread, hcode⟩
    rw [read_missing hmissing] at hread
    rw [← Except.error.inj hread]
    exact .missing ⟨0, Nat.zero_le _, .missing hmissing⟩
  · refine .failed hcode ?_
    rintro stop ⟨n, -, h⟩
    exact hcode ((leads_error hread).mp h).1

/-- Chasing a chain tells where it leads within the nesting that is left. -/
theorem chase_tells (most : Nat) (hread : s.read name = .ok v) :
    Tells (s.LeadsWithin most name) (s.chase most name v >>= fun last => last.2.end) := by
  induction most generalizing name v with
  | zero =>
      cases v with
      | direct id => exact .found ⟨0, Nat.le_refl _, .object hread⟩
      -- there is no link left to follow, so the chain leads nowhere within the nesting
      | symbolic next =>
          refine .failed (by decide) ?_
          rintro stop ⟨n, hn, h⟩
          obtain ⟨m, rfl, -⟩ := (leads_symbolic hread).mp h
          exact absurd hn (Nat.not_succ_le_zero m)
  | succ most ih =>
      cases v with
      | direct id => exact .found ⟨0, Nat.zero_le _, .object hread⟩
      | symbolic next =>
          refine Tells.congr ?_ fun stop => (leadsWithin_link hread).symm
          rw [chase]
          cases hnext : s.read next with
          | ok v' => exact ih hnext
          -- the next name is missing, which ends the chain, or it cannot be read at all
          | error e =>
              by_cases hcode : e.code = -3
              · have hmissing := read_error_iff.mp ⟨e, hnext, hcode⟩
                simp only [if_pos hcode]
                exact .missing ⟨0, Nat.zero_le _, .missing hmissing⟩
              · simp only [if_neg hcode]
                exact error_tells most hnext

/-- **Resolving tells where a name leads, within its bound.** -/
theorem resolve_tells (hname : RefName.isValid name = true) :
    Tells (s.LeadsWithin maxNesting name) (s.resolve name) := by
  -- the name that is reported beside the id plays no part in the result
  have hresolve : s.resolve name = (s.find name >>= fun v =>
      s.chase maxNesting name v >>= fun last => last.2.end) := by
    rw [resolve, resolveName]
    cases s.find name with
    | error e => rfl
    | ok v =>
        show Except.map _ (s.chase maxNesting name v >>= _) = s.chase maxNesting name v >>= _
        cases s.chase maxNesting name v with
        | error e => rfl
        | ok last =>
            obtain ⟨last, v'⟩ := last
            cases v' with
            | direct id => rfl
            | symbolic next => rfl
  rw [hresolve, find_valid hname]
  cases hread : s.read name with
  | ok v => exact chase_tells maxNesting hread
  | error e => exact error_tells maxNesting hread

/-- A reader gets from a name to where it leads: the first name that it is led to is
    well formed, and from there resolving is within its bound. -/
structure Reaches (s : RefStore) (name : String) (stop : Option Oid) : Prop where
  leads : s.LeadsWithin (maxNesting + 1) name stop
  valid : ∀ next, s.read name = .ok (.symbolic next) → RefName.isValid next = true

theorem Reaches.unique {stop' : Option Oid} (h : s.Reaches name stop)
    (h' : s.Reaches name stop') : stop = stop' := h.leads.unique h'.leads

/-- There is a reference of the name, but it leads to a name of which there is
    nothing. -/
structure Dangling (s : RefStore) (name : String) : Prop where
  reaches : s.Reaches name none
  there : ¬ s.Missing name

theorem Reaches.of_missing (h : s.Missing name) : s.Reaches name none := by
  refine ⟨⟨0, Nat.zero_le _, .missing h⟩, ?_⟩
  intro next hread
  rw [read_missing h] at hread
  cases hread

/-- What a name holds tells where a reader gets. -/
theorem target_tells (hread : s.read name = .ok v) : Tells (s.Reaches name) (s.target v) := by
  cases v with
  | direct id =>
      refine .found ⟨⟨0, Nat.zero_le _, .object hread⟩, ?_⟩
      intro next hread'
      rw [hread] at hread'
      cases hread'
  | symbolic next =>
      by_cases hnext : RefName.isValid next = true
      · refine (resolve_tells hnext).congr fun stop => ?_
        rw [← leadsWithin_link hread]
        constructor
        · intro hleads
          refine ⟨hleads, fun next' hread' => ?_⟩
          rw [hread] at hread'
          cases hread'
          exact hnext
        · exact Reaches.leads
      · -- the target is no name of a reference, so it reaches nothing
        have hresolve : s.resolve next = .error .invalidSpec := by
          rw [resolve, resolveName, find, if_neg hnext]
          rfl
        show Tells _ (s.resolve next)
        rw [hresolve]
        exact .failed (by decide) fun stop h => hnext (h.valid next hread)

/-- The target of a name tells what the name reaches. -/
theorem find_tells (hname : RefName.isValid name = true) :
    Tells (s.Reaches name) (s.find name >>= s.target) := by
  rw [find_valid hname]
  cases hread : s.read name with
  | ok v => exact target_tells hread
  | error e =>
      refine (error_tells (maxNesting + 1) hread).congr fun stop => ?_
      constructor
      · intro hleads
        refine ⟨hleads, fun next hread' => ?_⟩
        rw [hread] at hread'
        cases hread'
      · exact Reaches.leads

end RefStore

/-! ## The readers -/

/-- Something that was looked for is missing. -/
def Error.NotFound {α : Type} (result : Except Error α) : Prop :=
  ∃ e, result = .error e ∧ e.nativeKind? = some .notFound

/-- An error is of the kind not-found exactly if its native code says so. -/
theorem Error.notFound_mapError {α : Type} (x : Except NativeError α) :
    NotFound (x.mapError ofNative) ↔ ∃ e, x = .error e ∧ e.code = -3 := by
  cases x with
  | ok v =>
      constructor
      · rintro ⟨e, h, -⟩
        cases h
      · rintro ⟨e, h, -⟩
        cases h
  | error e =>
      constructor
      · rintro ⟨e', h, hkind⟩
        rw [← Except.error.inj h] at hkind
        exact ⟨e, rfl, nativeKind?_ofNative.mp hkind⟩
      · rintro ⟨e', h, hcode⟩
        rw [← Except.error.inj h] at hcode
        exact ⟨_, rfl, nativeKind?_ofNative.mpr hcode⟩

/-- A commit peels to itself. -/
theorem ObjectStore.peel_commit {objects : ObjectStore} {id : Oid} {c : Commit}
    (h : objects.find id = .ok (.commit c)) : objects.peel .commit id = .ok id := by
  rw [peel, h]
  show (objects.peelFrom .commit 1 id).mapError _ = _
  rw [peelFrom, h]
  rfl

namespace Repo

variable {r : Repo} {name : String} {id : Oid}

/-- An object does not lead to a commit because one that it names is not there. -/
def Lost (r : Repo) (id : Oid) : Prop := ∃ e, r.peel .commit id = .error e ∧ e.code = -3

/-! ### The id of a reference -/

/-- A missing reference has no target, and that is no error. -/
theorem referenceTarget_missing (hname : RefName.isValid name = true)
    (h : r.refs.Missing name) : r.referenceTarget name = .ok none := by
  rw [referenceTarget, RefStore.find_valid hname, RefStore.read_missing h]
  rfl

/-- The target of a reference that is there. -/
theorem referenceTarget_there (hname : RefName.isValid name = true)
    (h : ¬ r.refs.Missing name) : r.referenceTarget name
      = ((r.refs.find name >>= r.refs.target).map some).mapError .ofNative := by
  rw [← RefStore.read_error_iff] at h
  rw [referenceTarget, RefStore.find_valid hname]
  cases hread : r.refs.read name with
  | ok v => rfl
  | error e =>
      have hcode : e.code ≠ -3 := fun hcode => h ⟨e, hread, hcode⟩
      simp only [if_neg hcode]
      rfl

/-- A reference has no target exactly if it is missing. -/
theorem referenceTarget_eq_none (hname : RefName.isValid name = true) :
    r.referenceTarget name = .ok none ↔ r.refs.Missing name := by
  refine ⟨fun h => ?_, referenceTarget_missing hname⟩
  by_cases hmissing : r.refs.Missing name
  · exact hmissing
  · rw [referenceTarget_there hname hmissing, Error.mapError_eq_ok, map_some_eq_ok] at h
    obtain ⟨id, -, hsome⟩ := h
    cases hsome

/-- The target of a reference is the id it reaches. -/
theorem referenceTarget_eq_some (hname : RefName.isValid name = true) :
    r.referenceTarget name = .ok (some id) ↔ r.refs.Reaches name (some id) := by
  by_cases hmissing : r.refs.Missing name
  · rw [referenceTarget_missing hname hmissing]
    constructor
    · intro h
      cases h
    · intro hreaches
      cases hreaches.unique (.of_missing hmissing)
  · have htells := r.refs.find_tells hname
    rw [referenceTarget_there hname hmissing, Error.mapError_eq_ok, map_some_eq_ok,
      ← htells.ok_iff fun _ _ => RefStore.Reaches.unique]
    constructor
    · rintro ⟨id', hfound, hsame⟩
      rw [hfound, Option.some.inj hsame]
    · exact fun hfound => ⟨id, hfound, rfl⟩

/-- A reference that leads to a missing name is told as a failure. -/
theorem referenceTarget_notFound (hname : RefName.isValid name = true) :
    Error.NotFound (r.referenceTarget name) ↔ r.refs.Dangling name := by
  by_cases hmissing : r.refs.Missing name
  · rw [referenceTarget_missing hname hmissing]
    constructor
    · rintro ⟨e, h, -⟩
      cases h
    · exact fun h => absurd hmissing h.there
  · have hdangling : r.refs.Dangling name ↔ r.refs.Reaches name none :=
      ⟨RefStore.Dangling.reaches, fun h => ⟨h, hmissing⟩⟩
    have htells := r.refs.find_tells hname
    rw [referenceTarget_there hname hmissing, Error.notFound_mapError, hdangling,
      ← htells.notFound_iff fun _ _ => RefStore.Reaches.unique]
    cases r.refs.find name >>= r.refs.target with
    | ok id => simp [Except.map]
    | error e => simp [Except.map]

/-! ### The commit of a reference -/

/-- Resolving a reference peels its target to a commit. -/
theorem resolveRef_eq : r.resolveRef name
    = ((r.refs.find name >>= r.refs.target) >>= r.peel .commit).mapError .ofNative := by
  rw [resolveRef]
  cases r.refs.find name with
  | error e => rfl
  | ok v =>
      show ((r.refs.target v).mapError Error.ofNative >>= _)
        = (r.refs.target v >>= r.peel .commit).mapError .ofNative
      cases r.refs.target v with
      | error e => rfl
      | ok id => rfl

/-- A reference resolves to the commit that what it reaches peels to. -/
theorem resolveRef_eq_ok (hname : RefName.isValid name = true) : r.resolveRef name = .ok id
    ↔ ∃ last, r.refs.Reaches name (some last) ∧ r.peel .commit last = .ok id := by
  have htells := r.refs.find_tells hname
  rw [resolveRef_eq, Error.mapError_eq_ok]
  simp only [← htells.ok_iff fun _ _ => RefStore.Reaches.unique]
  constructor
  · exact bind_eq_ok_iff.mp
  · rintro ⟨last, hlast, hpeel⟩
    rw [hlast]
    exact hpeel

/-- Resolving reports not-found for a chain that ends in nothing, or in a lost object. -/
theorem resolveRef_notFound (hname : RefName.isValid name = true) :
    Error.NotFound (r.resolveRef name) ↔ r.refs.Reaches name none
      ∨ ∃ last, r.refs.Reaches name (some last) ∧ r.Lost last := by
  have htells := r.refs.find_tells hname
  have hunique := fun a b => @RefStore.Reaches.unique r.refs name a b
  rw [resolveRef_eq, Error.notFound_mapError, ← htells.notFound_iff hunique]
  simp only [← htells.ok_iff hunique]
  cases r.refs.find name >>= r.refs.target with
  | error e =>
      show (∃ e', Except.error e = _ ∧ _) ↔ _
      constructor
      · exact Or.inl
      · rintro (h | ⟨last, h, -⟩)
        · exact h
        · cases h
  | ok last =>
      show r.Lost last ↔ _
      constructor
      · exact fun hlost => Or.inr ⟨last, rfl, hlost⟩
      · rintro (⟨e, h, -⟩ | ⟨last', h, hlost⟩)
        · cases h
        · rwa [Except.ok.inj h]

/-- The optional reader finds what the other one does. -/
theorem tryResolveRef_eq_some :
    r.tryResolveRef name = .ok (some id) ↔ r.resolveRef name = .ok id := by
  rw [tryResolveRef]
  cases r.resolveRef name with
  | ok id' =>
      show Except.ok (some id') = _ ↔ _
      rw [Except.ok.injEq, Option.some_inj, Except.ok.injEq]
  | error e =>
      show (if e.nativeKind? = some .notFound then _ else _) = _ ↔ _
      split
      · simp
      · simp

/-- The optional reader also takes a dangling chain and a lost object for a missing reference. -/
theorem tryResolveRef_eq_none (hname : RefName.isValid name = true) :
    r.tryResolveRef name = .ok none ↔ r.refs.Missing name ∨ r.refs.Dangling name
      ∨ ∃ last, r.refs.Reaches name (some last) ∧ r.Lost last := by
  -- the chain of a missing name ends there at once
  have hnone : r.refs.Missing name ∨ r.refs.Dangling name ↔ r.refs.Reaches name none := by
    constructor
    · rintro (hmissing | hdangling)
      · exact .of_missing hmissing
      · exact hdangling.reaches
    · intro hreaches
      by_cases hmissing : r.refs.Missing name
      · exact Or.inl hmissing
      · exact Or.inr ⟨hreaches, hmissing⟩
  rw [← or_assoc, hnone, ← resolveRef_notFound hname, tryResolveRef]
  cases r.resolveRef name with
  | ok id =>
      constructor
      · intro h
        cases h
      · rintro ⟨e, h, -⟩
        cases h
  | error e =>
      show (if e.nativeKind? = some .notFound then _ else _) = _ ↔ _
      split
      · next hkind => exact ⟨fun _ => ⟨e, rfl, hkind⟩, fun _ => rfl⟩
      · next hkind =>
          constructor
          · intro h
            cases h
          · rintro ⟨e', h, hkind'⟩
            rw [← Except.error.inj h] at hkind'
            exact absurd hkind' hkind

/-! ### The name that a reference holds -/

/-- The symbolic target of a reference is what it is read as. -/
theorem symbolicTarget_eq_some (hname : RefName.isValid name = true) {next : String} :
    r.symbolicTarget name = .ok (some next) ↔ r.refs.read name = .ok (.symbolic next) := by
  rw [symbolicTarget, RefStore.find_valid hname]
  cases r.refs.read name with
  | ok v =>
      cases v with
      | direct id => simp
      | symbolic next' => simp
  | error e =>
      show (if e.code = -3 then _ else _) = _ ↔ _
      split
      · simp
      · simp

end Repo

/-- **The readers of references agree, except about references that lead nowhere.**

    In any repository and for any well-formed name, the id of a reference is none
    exactly if there is no reference of the name.  The commit that is tried for is
    none then, too; but it is also none for a reference that leads to a missing name,
    which is told as a failure where its id is read, and for one whose object is
    lost.  These are all the names about which the two disagree.

    A reference tells another name exactly if it is symbolic.  If a name leads to a
    commit, all readers that give ids give the id of that commit.  How far a name
    can lead is bounded (`RefStore.Reaches`). -/
theorem readers_agree (r : Repo) {name : String} (hname : RefName.isValid name = true) :
    (r.referenceTarget name = .ok none ↔ r.refs.Missing name)
      ∧ (r.tryResolveRef name = .ok none ↔ r.refs.Missing name ∨ r.refs.Dangling name
        ∨ ∃ last, r.refs.Reaches name (some last) ∧ r.Lost last)
      ∧ (Error.NotFound (r.referenceTarget name) ↔ r.refs.Dangling name)
      ∧ ((r.tryResolveRef name = .ok none ↔ r.referenceTarget name = .ok none)
        ↔ ¬ r.refs.Dangling name ∧ ∀ last, r.refs.Reaches name (some last) → ¬ r.Lost last)
      ∧ (∀ next, r.symbolicTarget name = .ok (some next)
        ↔ r.refs.read name = .ok (.symbolic next))
      ∧ (∀ id, r.referenceTarget name = .ok (some id) ↔ r.refs.Reaches name (some id))
      ∧ (∀ id, r.tryResolveRef name = .ok (some id) ↔ r.resolveRef name = .ok id)
      ∧ ∀ id c, r.refs.Reaches name (some id) → r.objects.find id = .ok (.commit c) →
        r.resolveRef name = .ok id ∧ r.tryResolveRef name = .ok (some id)
          ∧ r.referenceTarget name = .ok (some id) := by
  refine ⟨Repo.referenceTarget_eq_none hname, Repo.tryResolveRef_eq_none hname,
    Repo.referenceTarget_notFound hname, ?_, fun next => Repo.symbolicTarget_eq_some hname,
    fun id => Repo.referenceTarget_eq_some hname, fun id => Repo.tryResolveRef_eq_some, ?_⟩
  · rw [Repo.tryResolveRef_eq_none hname, Repo.referenceTarget_eq_none hname, or_iff_left_iff_imp]
    constructor
    · -- what is missing neither dangles nor leads to an id
      intro himp
      refine ⟨fun hdangling => hdangling.there (himp (Or.inl hdangling)), ?_⟩
      intro last hreaches hlost
      have hmissing := himp (Or.inr ⟨last, hreaches, hlost⟩)
      cases hreaches.unique (.of_missing hmissing)
    · rintro ⟨hnot, hkept⟩ (hdangling | ⟨last, hreaches, hlost⟩)
      · exact absurd hdangling hnot
      · exact absurd hlost (hkept last hreaches)
  · intro id c hreaches hcommit
    have hresolve : r.resolveRef name = .ok id :=
      (Repo.resolveRef_eq_ok hname).mpr ⟨id, hreaches, ObjectStore.peel_commit hcommit⟩
    exact ⟨hresolve, Repo.tryResolveRef_eq_some.mpr hresolve,
      (Repo.referenceTarget_eq_some hname).mpr hreaches⟩

/-! ### A branch and a reference to a branch that is gone -/

namespace Links

def tip : Oid := ⟨"1111111111111111111111111111111111111111"⟩

def first : Commit := ⟨[], [], default, "first"⟩

def repo : Repo :=
  { Repo.init "/r" true default "refs/heads/main" with
    objects := [(tip, .commit first)]
    refs := { RefStore.empty true default with
      values := [("HEAD", .symbolic "refs/heads/main"),
        ("refs/heads/link", .symbolic "refs/heads/gone"), ("refs/heads/main", .direct tip)] } }

theorem read_head : repo.refs.read "HEAD" = .ok (.symbolic "refs/heads/main") := rfl

theorem read_link : repo.refs.read "refs/heads/link" = .ok (.symbolic "refs/heads/gone") := rfl

theorem missing_gone : repo.refs.Missing "refs/heads/gone" := by
  constructor
  · rfl
  · rfl

theorem find_tip : repo.objects.find tip = .ok (.commit first) := by
  have hid : tip.isZero = false := by decide
  rw [ObjectStore.find, ObjectStore.get?, hid]
  rfl

/-- HEAD reaches the commit. -/
theorem reaches_head : repo.refs.Reaches "HEAD" (some tip) := by
  have hmain : repo.refs.read "refs/heads/main" = .ok (.direct tip) := rfl
  refine ⟨⟨1, by decide, .link read_head (.object hmain)⟩, ?_⟩
  intro next hread
  rw [read_head] at hread
  cases hread
  rfl

/-- The link dangles. -/
theorem dangling_link : repo.refs.Dangling "refs/heads/link" := by
  refine ⟨⟨⟨1, by decide, .link read_link (.missing missing_gone)⟩, ?_⟩, ?_⟩
  · intro next hread
    rw [read_link] at hread
    cases hread
    rfl
  · intro hmissing
    have hread := RefStore.read_missing hmissing
    rw [read_link] at hread
    cases hread

end Links

/-- `HEAD` is a chain that leads to a commit. -/
theorem readers_agree_head :
    RefName.isValid "HEAD" = true ∧ Links.repo.tryResolveRef "HEAD" = .ok (some Links.tip)
      ∧ Links.repo.referenceTarget "HEAD" = .ok (some Links.tip)
      ∧ Links.repo.symbolicTarget "HEAD" = .ok (some "refs/heads/main") := by
  have hname : RefName.isValid "HEAD" = true := rfl
  obtain ⟨-, -, -, -, hsymbolic, -, -, hcommit⟩ := readers_agree Links.repo hname
  obtain ⟨-, htried, htarget⟩ := hcommit _ _ Links.reaches_head Links.find_tip
  exact ⟨hname, htried, htarget, (hsymbolic _).mpr Links.read_head⟩

/-- A reference to a branch that is gone is there, but it is read as if it were not. -/
theorem dangling_reference_overlooked :
    RefName.isValid "refs/heads/link" = true
      ∧ ¬ Links.repo.refs.Missing "refs/heads/link"
      ∧ Links.repo.symbolicTarget "refs/heads/link" = .ok (some "refs/heads/gone")
      ∧ Links.repo.tryResolveRef "refs/heads/link" = .ok none
      ∧ Links.repo.referenceTarget "refs/heads/link" = .error (.ofNative .notFound) := by
  refine ⟨?_, Links.dangling_link.there, ?_, ?_, ?_⟩
  · rfl
  · rfl
  · rfl
  · rfl

end Gitwork
