import Gitwork.Proofs.Ref.Exclusion
import Gitwork.Proofs.Ref.Progress

/-! # A failed commit leaves no trace

    Here nobody disturbs the commit.  `Transaction.Obstacle` lists all that can
    make it fail, wherever in its loops that is.  A batch on a store is the
    store with the locks of the batch on top (`RefBatch.On`), and each loop
    keeps it so; to drop the batch therefore gives back the store as it was,
    with the locks that others have (`On.drop`).

    Hence a commit fails exactly if there is an obstacle, and then the store is
    the one before the call; without one it writes all changes
    (`Transaction.apply_cases`). -/

namespace Gitwork

/-! ## Locks on disk -/

namespace RefStore

variable {refs : RefStore} {name : String}

/-- Whether the lock of a name can be taken depends on the locks through this
    name only. -/
theorem lockError?_setLocked {locked : List String} (h : name ∈ locked ↔ name ∈ refs.locked) :
    lockError? { refs with locked } name = refs.lockError? name := by
  have hcontains : locked.contains name = refs.locked.contains name := by
    rw [Bool.eq_iff_iff, List.contains_iff_mem, List.contains_iff_mem, h]
  simp only [lockError?, hcontains]

theorem lockError?_none (h : refs.lockError? name = none) : name ∉ refs.locked := by
  intro hmem
  rw [lockError?, if_pos (List.contains_iff_mem.mpr hmem)] at h
  exact nomatch h

/-- A write touches no lock file. -/
theorem locked_write (refs : RefStore) (name : String) (value : RefValue) (who : Signature)
    (message : String) : (refs.write name value who message).locked = refs.locked := by
  rw [write]
  split
  · rfl
  · obtain ⟨logs, hlog⟩ := refs.logChange_frame name value who message
    rw [hlog]
    rfl

end RefStore

/-! ## Batches -/

namespace RefBatch

/-- A batch on a store: it has added its own locks, which nobody had. -/
structure On (b : RefBatch) (refs : RefStore) : Prop where
  added : b.refs = { refs with locked := b.taken ++ refs.locked }
  free : ∀ name ∈ b.taken, name ∉ refs.locked

variable {b : RefBatch} {refs : RefStore} {name : String}

theorem On.new (refs : RefStore) : On ⟨refs, [], []⟩ refs :=
  ⟨rfl, fun _ hmem => absurd hmem List.not_mem_nil⟩

/-- The locks of a batch change neither what the disk refuses nor what it reads. -/
theorem On.attempt (h : b.On refs) (step : RefStep) : b.refs.attempt step = refs.attempt step := by
  rw [h.added]
  rfl

theorem On.get? (h : b.On refs) (name : String) : b.refs.get? name = refs.get? name := by
  rw [h.added]
  rfl

theorem On.find? (h : b.On refs) (name : String) : b.refs.find? name = refs.find? name := by
  rw [h.added]
  rfl

/-- To drop a batch gives back the store, with the locks of others. -/
theorem On.drop (h : b.On refs) : b.drop = refs := by
  have hown : b.taken.filter (fun name => !b.taken.contains name) = [] := by
    rw [List.filter_eq_nil_iff]
    intro name hmem
    simp [hmem]
  have hothers : refs.locked.filter (fun name => !b.taken.contains name) = refs.locked := by
    rw [List.filter_eq_self]
    intro name hmem
    have hfree : name ∉ b.taken := fun htaken => h.free name htaken hmem
    simp [hfree]
  rw [RefBatch.drop, h.added, List.filter_append, hown, hothers, List.nil_append]

/-- The disk refuses the lock, or somebody has it, or the place of the name is
    not free; otherwise the lock is taken. -/
theorem On.lock_cases (h : b.On refs) (hnew : name ∉ b.taken) :
    (∃ e e', b.lock name = .error e
      ∧ (refs.attempt (.lock name) = .error e' ∨ refs.lockError? name = some e'))
    ∨ ∃ b', b.lock name = .ok b' ∧ b'.On refs ∧ b'.taken = name :: b.taken
      ∧ b'.changes = b.changes
      ∧ refs.attempt (.lock name) = .ok () ∧ refs.lockError? name = none := by
  have hlockError : b.refs.lockError? name = refs.lockError? name := by
    rw [h.added]
    apply RefStore.lockError?_setLocked
    rw [List.mem_append, or_iff_right hnew]
  rw [RefBatch.lock, h.attempt, hlockError]
  cases ha : refs.attempt (.lock name) with
  | error e => exact Or.inl ⟨e, e, rfl, Or.inl rfl⟩
  | ok u =>
      cases hl : refs.lockError? name with
      | some e => exact Or.inl ⟨e, e, rfl, Or.inr rfl⟩
      | none =>
          refine Or.inr ⟨_, rfl, ⟨?_, ?_⟩, rfl, rfl, rfl, rfl⟩
          · rw [h.added]
            rfl
          · intro other hother
            rcases List.mem_cons.mp hother with rfl | hold
            · exact RefStore.lockError?_none hl
            · exact h.free other hold

/-- The disk refuses the change, or it is added to those of the batch. -/
theorem On.queue_cases (h : b.On refs) (name : String) (change : RefChange) :
    (∃ e, b.queue name change = .error e ∧ refs.attempt (.queue name) = .error e)
    ∨ b.queue name change = .ok { b with changes := (name, change) :: b.changes }
      ∧ On { b with changes := (name, change) :: b.changes } refs
      ∧ refs.attempt (.queue name) = .ok () := by
  rw [RefBatch.queue, h.attempt]
  cases refs.attempt (.queue name) with
  | error e => exact Or.inl ⟨e, rfl, rfl⟩
  | ok u => exact Or.inr ⟨rfl, ⟨h.added, h.free⟩, rfl⟩

/-- To write changes takes no lock and gives none back. -/
theorem locked_writeAll (changes : List (String × RefChange)) :
    ∀ refs : RefStore, (writeAll refs changes).locked = refs.locked := by
  induction changes with
  | nil => exact fun _ => rfl
  | cons c rest ih =>
      intro refs
      show (writeAll (perform refs c.1 c.2) rest).locked = _
      rw [ih]
      cases c.2 with
      | delete => rfl
      | put value who message => exact RefStore.locked_write refs c.1 value who message

/-- A batch fails as a whole if the disk refuses to write, or if one name is
    the directory of another one; otherwise it writes all of its changes. -/
theorem On.commit_cases (h : b.On refs) :
    (∃ e, b.commit = .error e ∧ (refs.attempt .write = .error e
      ∨ ∃ c ∈ b.changes, ∃ d ∈ b.changes, Files.isBelow c.1 d.1 = true))
    ∨ b.commit = .ok (writeAll refs b.changes.reverse) ∧ refs.attempt .write = .ok ()
      ∧ ∀ c ∈ b.changes, ∀ d ∈ b.changes, ¬ Files.isBelow c.1 d.1 = true := by
  have hnested : ((b.changes.map (·.1)).any fun name =>
      (b.changes.map (·.1)).any fun other => Files.isBelow name other) = true
      ↔ ∃ c ∈ b.changes, ∃ d ∈ b.changes, Files.isBelow c.1 d.1 = true := by
    simp only [List.any_map, List.any_eq_true, Function.comp]
  rw [RefBatch.commit, h.attempt, h.drop]
  cases refs.attempt .write with
  | error e => exact Or.inl ⟨e, rfl, Or.inl rfl⟩
  | ok u =>
      by_cases hbelow : ((b.changes.map (·.1)).any fun name =>
          (b.changes.map (·.1)).any fun other => Files.isBelow name other) = true
      · left
        refine ⟨.generic "the name is a directory of references", ?_, Or.inr (hnested.mp hbelow)⟩
        show (if _ then _ else _) = _
        rw [if_pos hbelow]
        rfl
      · right
        refine ⟨?_, rfl, ?_⟩
        · show (if _ then _ else _) = _
          rw [if_neg hbelow]
          rfl
        · intro c hc d hd hcd
          exact hbelow (hnested.mpr ⟨c, hc, d, hd, hcd⟩)

end RefBatch

/-! ## Commits -/

/-- The texts that an update hands to the engine. -/
def Update.texts (u : Update) (defaultMessage : String) : List String :=
  let message := u.message.getD defaultMessage
  match u.mutation with
  | .remove => []
  | .target _ => [message]
  | .symbolic name => [message, name]

namespace Transaction

variable {t : Transaction} {refs : RefStore} {b : RefBatch}

/-- What can make a commit fail, on a disk that nobody else touches. -/
inductive Obstacle (t : Transaction) (refs : RefStore) : Prop
  | unopened (e : NativeError) : t.pending ≠ [] → refs.attempt .begin = .error e → Obstacle t refs
  /-- The lock of a name cannot be taken on disk. -/
  | unlockable (p : Pending) (e : NativeError) : p ∈ t.pending →
      refs.attempt (.lock p.1) = .error e ∨ refs.lockError? p.1 = some e → Obstacle t refs
  | unreadable (p : Pending) (e : NativeError) : p ∈ t.pending →
      refs.find? p.1 = .error e → Obstacle t refs
  /-- A name is not what it was when it was locked. -/
  | changed (p : Pending) (v : Option RefValue) : p ∈ t.pending →
      refs.find? p.1 = .ok v → v ≠ p.2.1.observed → Obstacle t refs
  /-- A signature cannot be made anew. -/
  | unsigned (p : Pending) (s : Signature) (e : NativeError) : p ∈ t.pending →
      p.2.2.signature = some s → s.remake = .error e → Obstacle t refs
  /-- A text has a NUL character. -/
  | unpassable (p : Pending) (text : String) : p ∈ t.pending →
      text ∈ p.2.2.texts t.defaultMessage → Credential.passable text = false → Obstacle t refs
  | unqueued (p : Pending) (e : NativeError) : p ∈ t.pending →
      refs.attempt (.queue p.1) = .error e → Obstacle t refs
  | unwritten (e : NativeError) : t.pending ≠ [] → refs.attempt .write = .error e → Obstacle t refs
  /-- One name is the directory of another one. -/
  | nested (p q : Pending) : p ∈ t.pending → q ∈ t.pending → Files.isBelow p.1 q.1 = true →
      Obstacle t refs

/-! ### The loops -/

/-- All names are locked, or one of them cannot be. -/
theorem lockAll_cases (names : List String) :
    ∀ b : RefBatch, b.On refs → names.Nodup → (∀ name ∈ names, name ∉ b.taken) →
      (∃ e b', lockAll b names = (.error e, b') ∧ b'.On refs
        ∧ ∃ name ∈ names, ∃ e', refs.attempt (.lock name) = .error e'
          ∨ refs.lockError? name = some e')
      ∨ ∃ b', lockAll b names = (.ok (), b') ∧ b'.On refs ∧ b'.changes = b.changes
        ∧ ∀ name ∈ names, refs.attempt (.lock name) = .ok () ∧ refs.lockError? name = none := by
  induction names with
  | nil => exact fun b h _ _ => Or.inr ⟨b, rfl, h, rfl, fun _ hmem => absurd hmem List.not_mem_nil⟩
  | cons name rest ih =>
      intro b h hnodup hnew
      obtain ⟨hname, hrest⟩ := List.nodup_cons.mp hnodup
      rcases h.lock_cases (hnew name List.mem_cons_self)
        with ⟨e, e', hlock, hwhy⟩ | ⟨c, hlock, hc, htaken, hchanges, hfree⟩
      · left
        refine ⟨lockError e name, b, ?_, h, name, List.mem_cons_self, e', hwhy⟩
        rw [lockAll, hlock]
      · -- the names are different, so the lock of this one is in the way of no later one
        have hlater : ∀ other ∈ rest, other ∉ c.taken := by
          intro other hother hmem
          rw [htaken] at hmem
          rcases List.mem_cons.mp hmem with rfl | hold
          · exact hname hother
          · exact hnew other (List.mem_cons_of_mem _ hother) hold
        have hstep : lockAll b (name :: rest) = lockAll c rest := by rw [lockAll, hlock]
        rw [hstep]
        rcases ih c hc hrest hlater
          with ⟨e, b', hall, hb', other, hother, hwhy⟩ | ⟨b', hall, hb', hsame, hothers⟩
        · exact Or.inl ⟨e, b', hall, hb', other, List.mem_cons_of_mem _ hother, hwhy⟩
        · refine Or.inr ⟨b', hall, hb', hsame.trans hchanges, ?_⟩
          intro other hother
          rcases List.mem_cons.mp hother with rfl | hlater
          · exact hfree
          · exact hothers other hlater

/-- All names are as they were, or one of them cannot be read or is not. -/
theorem compareAll_cases (h : b.On refs) (rest : List Pending) :
    (∃ e, compareAll b.refs rest = .error e ∧ ∃ p ∈ rest, (∃ e', refs.find? p.1 = .error e')
      ∨ ∃ v, refs.find? p.1 = .ok v ∧ v ≠ p.2.1.observed)
    ∨ compareAll b.refs rest = .ok () ∧ ∀ p ∈ rest, refs.find? p.1 = .ok p.2.1.observed := by
  induction rest with
  | nil => exact Or.inr ⟨rfl, fun _ hmem => absurd hmem List.not_mem_nil⟩
  | cons p rest ih =>
      obtain ⟨name, locked, u⟩ := p
      cases hfind : refs.find? name with
      | error e =>
          left
          refine ⟨.ofNative e, ?_, (name, locked, u), List.mem_cons_self, Or.inl ⟨e, hfind⟩⟩
          rw [compareAll, h.find?, hfind]
          rfl
      | ok v =>
          have hstep : compareAll b.refs ((name, locked, u) :: rest)
              = if v = locked.observed then compareAll b.refs rest
                else .error (.refChanged name) := by
            rw [compareAll, h.find?, hfind]
            rfl
          rw [hstep]
          by_cases hsame : v = locked.observed
          · rw [if_pos hsame]
            rcases ih with ⟨e, hall, q, hq, hwhy⟩ | ⟨hall, hrest⟩
            · exact Or.inl ⟨e, hall, q, List.mem_cons_of_mem _ hq, hwhy⟩
            · refine Or.inr ⟨hall, ?_⟩
              intro q hq
              rcases List.mem_cons.mp hq with rfl | hq
              · rw [hfind, hsame]
              · exact hrest q hq
          · rw [if_neg hsame]
            exact Or.inl ⟨_, rfl, _, List.mem_cons_self, Or.inr ⟨v, hfind, hsame⟩⟩

/-- A change that nobody in particular signs is made if its texts have no NUL
    character. -/
theorem changeOf_unsigned (refs : RefStore) (message : String) (mutation : Mutation)
    (own : Option String) :
    let u : Update := ⟨mutation, none, own⟩
    (∃ e, changeOf refs message u = .error e
      ∧ ∃ text ∈ u.texts message, Credential.passable text = false)
    ∨ ∃ change, changeOf refs message u = .ok change
      ∧ ∀ text ∈ u.texts message, Credential.passable text = true := by
  cases mutation with
  | remove => exact Or.inr ⟨_, rfl, fun _ hmem => absurd hmem List.not_mem_nil⟩
  | target id =>
      -- the message has to pass, and with a symbolic target the target as well
      by_cases hpass : Credential.passable (own.getD message) = true
      · refine Or.inr ⟨_, if_pos hpass, ?_⟩
        simpa [Update.texts] using hpass
      · refine Or.inl ⟨_, if_neg hpass, own.getD message, ?_, by simpa using hpass⟩
        simp [Update.texts]
  | symbolic name =>
      by_cases hpass : (Credential.passable (own.getD message) && Credential.passable name) = true
      · refine Or.inr ⟨_, if_pos hpass, ?_⟩
        simpa [Update.texts] using hpass
      · refine Or.inl ⟨_, if_neg hpass, ?_⟩
        rw [Bool.and_eq_true, Decidable.not_and_iff_or_not, Bool.not_eq_true, Bool.not_eq_true]
          at hpass
        simpa [Update.texts] using hpass

/-- A change is made if its signature can be made anew and its texts have no NUL
    character. -/
theorem changeOf_cases (refs : RefStore) (message : String) (u : Update) :
    (∃ e, changeOf refs message u = .error e
      ∧ ((∃ s e', u.signature = some s ∧ s.remake = .error e')
        ∨ ∃ text ∈ u.texts message, Credential.passable text = false))
    ∨ ∃ change, changeOf refs message u = .ok change
      ∧ (∀ s, u.signature = some s → ∃ who, s.remake = .ok who)
      ∧ ∀ text ∈ u.texts message, Credential.passable text = true := by
  obtain ⟨mutation, signature, own⟩ := u
  cases signature with
  | none =>
      rcases changeOf_unsigned refs message mutation own
        with ⟨e, hchange, htext⟩ | ⟨change, hchange, htexts⟩
      · exact Or.inl ⟨e, hchange, Or.inr htext⟩
      · exact Or.inr ⟨change, hchange, nofun, htexts⟩
  | some s =>
      cases hs : s.remake with
      | error e =>
          refine Or.inl ⟨e, ?_, Or.inl ⟨s, e, rfl, hs⟩⟩
          simp only [changeOf, hs]
          rfl
      | ok who =>
          -- to sign is to be the identity of the store for once
          have hsame : changeOf refs message ⟨mutation, some s, own⟩
              = changeOf { refs with identity := who } message ⟨mutation, none, own⟩ := by
            simp only [changeOf, hs]
            rfl
          rw [hsame]
          rcases changeOf_unsigned { refs with identity := who } message mutation own
            with ⟨e, hchange, htext⟩ | ⟨change, hchange, htexts⟩
          · exact Or.inl ⟨e, hchange, Or.inr htext⟩
          · refine Or.inr ⟨change, hchange, ?_, htexts⟩
            rintro s' heq
            obtain rfl := Option.some.inj heq
            exact ⟨who, hs⟩

/-- All changes are queued, or one of them cannot be made or is refused. -/
theorem queueAll_cases (message : String) (rest : List Pending) :
    ∀ (b : RefBatch) (done : List Pending), b.On refs → Queued b done →
      (∃ e, queueAll message b rest = .error e ∧ ∃ p ∈ rest,
        (∃ s e', p.2.2.signature = some s ∧ s.remake = .error e')
        ∨ (∃ text ∈ p.2.2.texts message, Credential.passable text = false)
        ∨ ∃ e', refs.attempt (.queue p.1) = .error e')
      ∨ ∃ b', queueAll message b rest = .ok b' ∧ b'.On refs ∧ Queued b' (done ++ rest)
        ∧ ∀ p ∈ rest, (∀ s, p.2.2.signature = some s → ∃ who, s.remake = .ok who)
          ∧ (∀ text ∈ p.2.2.texts message, Credential.passable text = true)
          ∧ refs.attempt (.queue p.1) = .ok () := by
  induction rest with
  | nil =>
      intro b done h hqueued
      rw [List.append_nil]
      exact Or.inr ⟨b, rfl, h, hqueued, fun _ hmem => absurd hmem List.not_mem_nil⟩
  | cons p rest ih =>
      obtain ⟨name, locked, u⟩ := p
      intro b done h hqueued
      rcases changeOf_cases b.refs message u
        with ⟨e, hchange, hwhy⟩ | ⟨change, hchange, hsigned, htexts⟩
      · left
        refine ⟨e, ?_, (name, locked, u), List.mem_cons_self, ?_⟩
        · rw [queueAll, hchange]
          rfl
        · rcases hwhy with hsignature | htext
          · exact Or.inl hsignature
          · exact Or.inr (Or.inl htext)
      · rcases h.queue_cases name change with ⟨e, hqueue, ha⟩ | ⟨hqueue, hadded, ha⟩
        · left
          refine ⟨e, ?_, (name, locked, u), List.mem_cons_self, Or.inr (Or.inr ⟨e, ha⟩)⟩
          rw [queueAll, hchange]
          show (b.queue name change >>= _) = _
          rw [hqueue]
          rfl
        · have hstep : queueAll message b ((name, locked, u) :: rest)
              = queueAll message { b with changes := (name, change) :: b.changes } rest := by
            rw [queueAll, hchange]
            show (b.queue name change >>= _) = _
            rw [hqueue]
            rfl
          rw [hstep]
          rcases ih _ _ hadded (hqueued.push (name, locked, u) (changeOf_value? hchange))
            with ⟨e, hall, q, hq, hwhy⟩ | ⟨b', hall, hb', hqueued', hrest⟩
          · exact Or.inl ⟨e, hall, q, List.mem_cons_of_mem _ hq, hwhy⟩
          · rw [List.append_assoc] at hqueued'
            refine Or.inr ⟨b', hall, hb', hqueued', ?_⟩
            intro q hq
            rcases List.mem_cons.mp hq with rfl | hq
            · exact ⟨hsigned, htexts, ha⟩
            · exact hrest q hq

/-! ### The whole commit -/

/-- The names of the changes of a complete batch. -/
theorem Queued.mem {b : RefBatch} {done : List Pending} (h : Queued b done) {name : String} :
    (∃ c ∈ b.changes, c.1 = name) ↔ ∃ p ∈ done, p.1 = name := by
  rw [← List.mem_map, ← List.mem_map, ← h.names, List.map_reverse, List.mem_reverse]

/-- What the loops look for at every name rules all obstacles out. -/
theorem not_obstacle (hbegin : refs.attempt .begin = .ok ())
    (hlocks : ∀ name ∈ t.pending.map (·.1),
      refs.attempt (.lock name) = .ok () ∧ refs.lockError? name = none)
    (hsame : ∀ p ∈ t.pending, refs.find? p.1 = .ok p.2.1.observed)
    (hready : ∀ p ∈ t.pending, (∀ s, p.2.2.signature = some s → ∃ who, s.remake = .ok who)
      ∧ (∀ text ∈ p.2.2.texts t.defaultMessage, Credential.passable text = true)
      ∧ refs.attempt (.queue p.1) = .ok ())
    (hwrite : refs.attempt .write = .ok ())
    (hapart : ∀ p ∈ t.pending, ∀ q ∈ t.pending, ¬ Files.isBelow p.1 q.1 = true) :
    ¬ t.Obstacle refs := by
  intro hobstacle
  -- each obstacle is denied by what one of the passes has found
  cases hobstacle with
  | unopened e _ hrefused =>
      rw [hbegin] at hrefused
      cases hrefused
  | unlockable p e hp hwhy =>
      obtain ⟨hattempt, hfree⟩ := hlocks p.1 (List.mem_map.mpr ⟨p, hp, rfl⟩)
      rw [hattempt, hfree] at hwhy
      rcases hwhy with hrefused | htaken
      · cases hrefused
      · cases htaken
  | unreadable p e hp hfind =>
      rw [hsame p hp] at hfind
      cases hfind
  | changed p v hp hfind hne =>
      rw [hsame p hp] at hfind
      exact hne (Except.ok.inj hfind).symm
  | unsigned p s e hp hs hremake =>
      obtain ⟨who, hwho⟩ := (hready p hp).1 s hs
      rw [hwho] at hremake
      cases hremake
  | unpassable p text hp htext hnul =>
      rw [(hready p hp).2.1 text htext] at hnul
      cases hnul
  | unqueued p e hp hrefused =>
      rw [(hready p hp).2.2] at hrefused
      cases hrefused
  | unwritten e _ hrefused =>
      rw [hwrite] at hrefused
      cases hrefused
  | nested p q hp hq hbelow => exact hapart p hp q hq hbelow

/-- **All changes or none.**

    A commit that fails has met an obstacle, and leaves the store as it was, with the
    locks that others have.  One that succeeds has met none; it has made each
    change, and left alone all other names and all locks. -/
theorem apply_cases (t : Transaction) (ho : t.refs.Ordered) (refs : RefStore) :
    (∃ e, t.apply refs = (.error e, refs) ∧ t.Obstacle refs)
    ∨ ∃ after, t.apply refs = (.ok (), after) ∧ ¬ t.Obstacle refs
      ∧ (∀ p ∈ t.pending,
        after.get? p.1 = RefStore.settled (refs.get? p.1) p.2.2.mutation.value?)
      ∧ (∀ name, name ∉ t.pending.map (·.1) → after.get? name = refs.get? name)
      ∧ after.locked = refs.locked := by
  by_cases hsome : t.pending = []
  · -- every obstacle is one of a change
    right
    have hnone : ∀ p, p ∉ t.pending := by
      intro p
      rw [hsome]
      exact List.not_mem_nil
    refine ⟨refs, by simp only [apply, hsome], ?_, fun p hp => absurd hp (hnone p), fun _ _ => rfl,
      rfl⟩
    intro hobstacle
    cases hobstacle with
    | unopened _ hpending | unwritten _ hpending => exact hpending hsome
    | unlockable p _ hp | unreadable p _ hp | changed p _ hp | unsigned p _ _ hp
    | unpassable p _ hp | unqueued p _ hp | nested p _ hp => exact hnone p hp
  rw [apply_pending hsome]
  cases hbegin : refs.attempt .begin with
  | error e =>
      left
      refine ⟨.ofNative e, ?_, .unopened e hsome hbegin⟩
      simp only [RefBatch.begin, hbegin, Except.map]
  | ok u =>
      simp only [RefBatch.begin, hbegin, Except.map]
      rcases lockAll_cases _ _ (.new refs) (pending_nodup ho) (fun _ _ => List.not_mem_nil)
        with ⟨e, b, hlock, hb, name, hname, e', hwhy⟩ | ⟨b, hlock, hb, hchanges, hlocks⟩
      · simp only [hlock, hb.drop]
        obtain ⟨p, hp, rfl⟩ := List.mem_map.mp hname
        exact Or.inl ⟨e, rfl, .unlockable p e' hp hwhy⟩
      simp only [hlock]
      rcases compareAll_cases hb t.pending with ⟨e, hall, p, hp, hwhy⟩ | ⟨hall, hsame⟩
      · simp only [hall, hb.drop]
        refine Or.inl ⟨e, rfl, ?_⟩
        rcases hwhy with ⟨e', hfind⟩ | ⟨v, hfind, hne⟩
        · exact .unreadable p e' hp hfind
        · exact .changed p v hp hfind hne
      simp only [hall]
      have hnothing : Queued b [] := by
        rw [Queued, hchanges]
        rfl
      rcases queueAll_cases t.defaultMessage t.pending b [] hb hnothing
        with ⟨e, hall, p, hp, hwhy⟩ | ⟨c, hall, hc, hqueued, hready⟩
      · simp only [hall, hb.drop]
        refine Or.inl ⟨_, rfl, ?_⟩
        rcases hwhy with ⟨s, e', hs, hremake⟩ | ⟨text, htext, hnul⟩ | ⟨e', hrefused⟩
        · exact .unsigned p s e' hp hs hremake
        · exact .unpassable p text hp htext hnul
        · exact .unqueued p e' hp hrefused
      simp only [hall]
      rw [List.nil_append] at hqueued
      rcases hc.commit_cases with ⟨e, hcommit, hwhy⟩ | ⟨hcommit, hwrite, hapart⟩
      · simp only [hcommit, hc.drop]
        refine Or.inl ⟨_, rfl, ?_⟩
        rcases hwhy with hrefused | ⟨x, hx, y, hy, hbelow⟩
        · exact .unwritten e hsome hrefused
        · obtain ⟨p, hp, hpx⟩ := hqueued.mem.mp ⟨x, hx, rfl⟩
          obtain ⟨q, hq, hqy⟩ := hqueued.mem.mp ⟨y, hy, rfl⟩
          rw [← hpx, ← hqy] at hbelow
          exact .nested p q hp hq hbelow
      simp only [hcommit]
      obtain ⟨hwritten, hother⟩ := hqueued.written ho
      rw [hc.drop] at hwritten hother
      refine Or.inr ⟨_, rfl, ?_, ?_, ?_, RefBatch.locked_writeAll _ refs⟩
      · apply not_obstacle hbegin hlocks hsame hready hwrite
        intro p hp q hq hbelow
        obtain ⟨x, hx, hxp⟩ := hqueued.mem.mpr ⟨p, hp, rfl⟩
        obtain ⟨y, hy, hyq⟩ := hqueued.mem.mpr ⟨q, hq, rfl⟩
        rw [← hxp, ← hyq] at hbelow
        exact hapart x hx y hy hbelow
      · intro p hp
        rw [hwritten p hp, hc.get?]
      · intro name hname
        rw [hother name hname, hc.get?]

/-- A name that is not to be changed has no change queued, or the removal of nothing. -/
theorem not_mem_pending (ho : t.refs.Ordered) {name : String}
    (h : (t.refs.get? name).bind (·.update) = none) : name ∉ t.pending.map (·.1) := by
  intro hmem
  obtain ⟨p, hp, rfl⟩ := List.mem_map.mp hmem
  obtain ⟨hrefs, hupdate, -⟩ := mem_pending.mp hp
  rw [ho.mem_iff.mp hrefs, Option.bind_some, hupdate] at h
  exact nomatch h

end Transaction

/-! ## Sessions -/

namespace Session

variable {s : Session} {refs : RefStore}

theorem commit_failed (hopen : s.txn.state = .opened) {e : Error}
    (happly : s.txn.apply s.refs = (.error e, refs)) :
    s.commit s.txn.owner = (.error e, { s with refs }.close .failed) := by
  rw [Session.commit, Transaction.check_owner hopen]
  simp only [happly]

theorem commit_committed (hopen : s.txn.state = .opened)
    (happly : s.txn.apply s.refs = (.ok (), refs)) :
    s.commit s.txn.owner = (.ok (), { s with refs }.close .committed) := by
  rw [Session.commit, Transaction.check_owner hopen]
  simp only [happly]

/-- The end of a transaction frees the keys of its names. -/
theorem Accounts.close_frees {others : List LockKey} (h : s.Accounts others)
    (state : TransactionState) (hover : state ≠ .opened) {name : String}
    (hmem : name ∈ s.txn.lockedNames) : LockKey.of s.txn.gitDir name ∉ (s.close state).held := by
  obtain ⟨⟨_, locked⟩, hentry, rfl⟩ := List.mem_map.mp hmem
  have hguard := h.wellFormed.guard _ _ (h.wellFormed.ordered.mem_iff.mp hentry)
  have hkey : LockKey.of s.txn.gitDir _ ∈ s.txn.keys :=
    List.mem_map.mpr ⟨_, hentry, congrArg RefLock.key hguard⟩
  -- the key was in the table once, as one of this transaction
  have hnodup := h.held.nodup_iff.mp h.nodup
  rw [((h.close state).ended hover).mem_iff]
  exact fun hothers => (List.nodup_append.mp hnodup).2.2 _ hkey _ hothers rfl

end Session

/-! ## Transactions on a workbench -/

namespace Workbench

/-- What a call of the owner to commit comes to, given what the session makes of it. -/
theorem callTransaction_commit {w : Workbench} {name : String} {t : OpenTransaction} {r : Repo}
    (ht : w.txns.get? name = some t) (hr : w.disk.repo? t.dir = some r)
    {result : Except Error Unit} {s : Session}
    (hs : (Session.mk t.txn w.held r.refs).commit t.txn.owner = (result, s)) :
    ∃ w', w.callTransaction name t.txn.owner .commit = some (result, s.txn, w')
      ∧ w'.held = s.held ∧ ∀ dir, w'.disk.repo? dir
        = if dir = t.dir then some { r with refs := s.refs } else w.disk.repo? dir := by
  refine ⟨{ w with held := s.held, txns := w.txns.insert name ⟨t.dir, s.txn⟩ }.setRefs t.dir r
    s.refs, ?_, rfl, fun dir => ?_⟩
  · simp only [callTransaction, ht, hr, Option.bind_eq_bind, Option.bind_some, Session.call, hs]
    rfl
  · exact Table.get?_insert w.disk.repos t.dir dir { r with refs := s.refs }

/-- **A failed commit changes nothing.**

    After any run, let the owner of an open transaction commit it.  The commit fails
    exactly if there is an obstacle; then the references, their logs and their locks
    on disk are as before the call, and the transaction has failed.  Otherwise the
    transaction is committed, each change is made, and a name without one has what
    it had.  In both cases none of the names is locked any more, neither in the
    table nor, by the commit, on disk, and no other repository is touched. -/
theorem commit_all_or_nothing (actions : List Action) (name : String) (t : OpenTransaction)
    (r : Repo) (ht : (run actions).txns.get? name = some t) (hopen : t.txn.state = .opened)
    (hr : (run actions).disk.repo? t.dir = some r) :
    let w := run actions
    ∃ result txn after w', w.callTransaction name t.txn.owner .commit = some (result, txn, w')
      ∧ (∀ dir, w'.disk.repo? dir
        = if dir = t.dir then some { r with refs := after } else w.disk.repo? dir)
      ∧ ((∃ e, result = .error e) ↔ t.txn.Obstacle r.refs)
      ∧ ((∃ e, result = .error e) → txn.state = .failed ∧ after = r.refs)
      ∧ (result = .ok () → txn.state = .committed
        ∧ (∀ p ∈ t.txn.pending,
          after.get? p.1 = RefStore.settled (r.refs.get? p.1) p.2.2.mutation.value?)
        ∧ ∀ refname, (t.txn.refs.get? refname).bind (·.update) = none →
          after.get? refname = r.refs.get? refname)
      ∧ txn.refs = []
      ∧ (∀ refname ∈ t.txn.lockedNames, LockKey.of t.txn.gitDir refname ∉ w'.held)
      ∧ after.locked = r.refs.locked := by
  intro w
  have haccounts := (Exclusive.run actions).accounts ht r.refs
  have ho : t.txn.refs.Ordered := haccounts.wellFormed.ordered
  rcases t.txn.apply_cases ho r.refs with
    ⟨e, happly, hobstacle⟩ | ⟨after, happly, hnone, hmade, hothers, hlocked⟩
  · have hs := Session.commit_failed (s := ⟨t.txn, w.held, r.refs⟩) hopen happly
    obtain ⟨w', hcall, hheld, hdisk⟩ := callTransaction_commit ht hr hs
    refine ⟨.error e, _, r.refs, w', hcall, hdisk, ⟨fun _ => hobstacle, fun _ => ⟨e, rfl⟩⟩,
      fun _ => ⟨rfl, rfl⟩, ?_, rfl, ?_, rfl⟩
    · intro hok
      cases hok
    · intro refname hmem
      rw [hheld]
      exact haccounts.close_frees .failed nofun hmem
  · have hs := Session.commit_committed (s := ⟨t.txn, w.held, r.refs⟩) hopen happly
    obtain ⟨w', hcall, hheld, hdisk⟩ := callTransaction_commit ht hr hs
    have hok : ¬ ∃ e, Except.ok () = (Except.error e : Except Error Unit) := nofun
    refine ⟨.ok (), _, after, w', hcall, hdisk, ⟨fun h => absurd h hok, fun h => absurd h hnone⟩,
      fun h => absurd h hok, fun _ => ⟨rfl, hmade, ?_⟩, rfl, ?_, hlocked⟩
    · intro refname hunqueued
      exact hothers refname (Transaction.not_mem_pending ho hunqueued)
    · intro refname hmem
      rw [hheld]
      exact (haccounts.setRefs after).close_frees .committed nofun hmem

/-- A repository in which another program has the lock of `HEAD`. -/
def headLocked : Repo :=
  { Repo.init "/r" true default "refs/heads/main" with
    refs := { RefStore.empty true default with
      values := [("HEAD", .symbolic "refs/heads/main")], locked := ["HEAD"] } }

/-- A transaction there changes `A`, whose lock is free, and `HEAD`. -/
def changeBoth : List Action :=
  [.disk ⟨[("r", headLocked)], []⟩, .openTransaction "t" "r" 1 none,
    .callTransaction "t" 1 (.lock "A"), .callTransaction "t" 1 (.lock "HEAD"),
    .callTransaction "t" 1 (.set "A" .zero none none),
    .callTransaction "t" 1 (.symbolic "HEAD" "A" none none)]

/-- The commit fails after it has taken the first lock; nothing is changed, and that
    lock is given back. -/
theorem commit_all_or_nothing_changeBoth :
    ∃ e txn w', (run changeBoth).callTransaction "t" 1 .commit = some (.error e, txn, w')
      ∧ txn.state = .failed ∧ txn.refs = []
      ∧ w'.disk.repo? "r" = some headLocked
      ∧ LockKey.of "/r" "A" ∉ w'.held ∧ LockKey.of "/r" "HEAD" ∉ w'.held := by
  let setA : Transaction.Pending :=
    ("A", ⟨⟨"/r", "A"⟩, none, some ⟨.target .zero, none, none⟩⟩, ⟨.target .zero, none, none⟩)
  let setHead : Transaction.Pending :=
    ("HEAD", ⟨⟨"/r", "HEAD"⟩, some (.symbolic "refs/heads/main"), some ⟨.symbolic "A", none, none⟩⟩,
      ⟨.symbolic "A", none, none⟩)
  let t : OpenTransaction := ⟨"r", ⟨"/r", 1, [(setA.1, setA.2.1), (setHead.1, setHead.2.1)],
    .opened, Config.defaultReflogMessage⟩⟩
  have htxns : (run changeBoth).txns = [("t", t)] := rfl
  have hdisk : (run changeBoth).disk.repo? "r" = some headLocked := rfl
  have hget : (run changeBoth).txns.get? "t" = some t := by
    rw [htxns]
    rfl
  have hpending : t.txn.pending = [setA, setHead] := rfl
  have htaken : headLocked.refs.lockError? setHead.1 = some .locked := rfl
  obtain ⟨result, txn, after, w', hcall, hrepo, hiff, hfailed, -, hreleased, hheld, -⟩ :=
    commit_all_or_nothing changeBoth "t" t headLocked hget rfl hdisk
  have hobstacle : ∃ e, result = .error e := by
    refine hiff.mpr (.unlockable setHead .locked ?_ (Or.inr htaken))
    rw [hpending]
    exact List.mem_cons_of_mem _ List.mem_cons_self
  obtain ⟨hstate, hafter⟩ := hfailed hobstacle
  obtain ⟨e, rfl⟩ := hobstacle
  refine ⟨e, txn, w', hcall, hstate, hreleased, ?_, hheld "A" List.mem_cons_self,
    hheld "HEAD" (List.mem_cons_of_mem _ List.mem_cons_self)⟩
  rw [hrepo, if_pos rfl, hafter]

end Workbench

end Gitwork
