import Gitwork.Ref.Batch

/-! # What a store has, and what a batch makes of it

    Reading is honest: what a look-up finds is what is stored, and "nothing"
    means that nothing is stored.  Writing is not always exact: a null id is
    not written where there was nothing, and a symbolic value loses the blanks
    at its end (`RefStore.settled`).  A batch changes the names it was given
    changes for, and no other (`RefBatch.get?_writeAll`). -/

namespace Gitwork

namespace RefStore

variable {s s' : RefStore} {name : String}

/-- Two stores with the same references and logs. -/
def Same (s s' : RefStore) : Prop := s.values = s'.values ∧ s.logs = s'.logs

/-- A look-up that does not fail finds what is stored. -/
theorem find?_ok {v : Option RefValue} (h : s.find? name = .ok v) : v = s.get? name := by
  simp only [find?, find] at h
  by_cases hvalid : RefName.isValid name = true
  · rw [if_pos hvalid, read] at h
    -- a failure to read is never taken for an absence
    cases hunreadable : s.unreadable.get? name with
    | some failure =>
        simp only [hunreadable, if_neg failure.found] at h
        exact nomatch h
    | none =>
        simp only [hunreadable] at h
        cases hget : s.get? name with
        | none =>
            rw [hget] at h
            exact (Except.ok.inj h).symm
        | some stored =>
            rw [hget] at h
            split at h
            · next found hread =>
                rw [← Except.ok.inj h]
                split at hread
                · next heq => exact nomatch heq
                · exact nomatch hread
                · next heq => rw [← Except.ok.inj hread, Option.some.inj heq]
            · next e hread =>
                split at hread
                · next heq => exact nomatch heq
                · rw [← Except.error.inj hread] at h
                  exact nomatch h
                · exact nomatch hread
  · rw [if_neg hvalid] at h
    exact nomatch h

/-- What is put under a name is found there. -/
theorem get?_put (s : RefStore) (name other : String) (value : Option RefValue) :
    (s.put name value).get? other = if other = name then value else s.get? other := by
  cases value with
  | none => exact Table.get?_erase s.values name other
  | some v => exact Table.get?_insert s.values name other v

/-- To log a change touches the logs only. -/
theorem logChange_frame (s : RefStore) (name : String) (value : RefValue) (who : Signature)
    (message : String) : ∃ logs, s.logChange name value who message = { s with logs } := by
  simp only [logChange]
  split
  · split
    · split
      · exact ⟨_, rfl⟩
      · exact ⟨_, rfl⟩
    · split
      · split
        · exact ⟨_, rfl⟩
        · exact ⟨s.logs, rfl⟩
      · exact ⟨s.logs, rfl⟩
  · exact ⟨s.logs, rfl⟩

/-- What there is after a value was asked for; none asks for nothing to be there. -/
def settled (current : Option RefValue) : Option RefValue → Option RefValue
  | none => none
  | some v => if current = some v ∨ (current = none ∧ v = .direct .zero) then current else some v.kept

/-- Whether a value that is asked for is what there will be. -/
def Lands (current : Option RefValue) : Option RefValue → Prop
  | none => True
  | some (.direct id) => current = none → id ≠ .zero
  | some (.symbolic target) =>
    current = some (.symbolic target) ∨ (RefValue.symbolic target).kept = .symbolic target

/-- A value settles as asked exactly if it is one that lands. -/
theorem settled_eq_iff (current asked : Option RefValue) :
    settled current asked = asked ↔ Lands current asked := by
  cases asked with
  | none => exact ⟨fun _ => trivial, fun _ => rfl⟩
  | some v =>
      cases v with
      | direct id =>
          simp only [settled, Lands]
          -- the null id under a name that is absent writes nothing
          by_cases hnull : current = none ∧ id = .zero
          · obtain ⟨rfl, rfl⟩ := hnull
            simp
          · constructor
            · intro _ hnone hzero
              exact hnull ⟨hnone, hzero⟩
            · intro _
              split
              · next hsame =>
                  rcases hsame with hsame | ⟨hnone, hzero⟩
                  · exact hsame
                  · exact absurd ⟨hnone, RefValue.direct.inj hzero⟩ hnull
              · rfl
      | symbolic target =>
          simp only [settled, Lands]
          by_cases hsame : current = some (.symbolic target)
          · simp [hsame]
          · have hwritten : ¬ (current = some (.symbolic target)
                ∨ (current = none ∧ RefValue.symbolic target = .direct .zero)) := by
              rintro (h | ⟨-, h⟩)
              · exact hsame h
              · exact nomatch h
            rw [if_neg hwritten, Option.some.injEq]
            exact ⟨Or.inr, fun h => h.resolve_left hsame⟩

/-- A write changes its own name only, and settles its value there. -/
theorem get?_write (s : RefStore) (name : String) (value : RefValue) (who : Signature)
    (message other : String) : (s.write name value who message).get? other
      = if other = name then settled (s.get? name) (some value) else s.get? other := by
  rw [write]
  split
  · next hsame =>
      split
      · next heq =>
          subst heq
          rw [settled, if_pos hsame]
      · rfl
  · next hother =>
      obtain ⟨logs, hlog⟩ := s.logChange_frame name value who message
      rw [get?_put, hlog]
      split
      · rw [settled, if_neg hother]
      · rfl

end RefStore

/-! ## Batches -/

/-- The value that a change asks for. -/
def RefChange.value? : RefChange → Option RefValue
  | .put value _ _ => some value
  | .delete => none

namespace RefBatch

variable {b : RefBatch} {name : String}

/-- A change that is performed settles under its own name. -/
theorem get?_perform (refs : RefStore) (name : String) (change : RefChange) (other : String) :
    (perform refs name change).get? other
      = if other = name then RefStore.settled (refs.get? name) change.value?
        else refs.get? other := by
  cases change with
  | put value who message => exact RefStore.get?_write refs name value who message other
  | delete => exact RefStore.get?_put refs name other none

/-- Makes changes one after the other. -/
def writeAll (refs : RefStore) (changes : List (String × RefChange)) : RefStore :=
  changes.foldl (fun refs c => perform refs c.1 c.2) refs

/-- A name without a change stays as it is. -/
theorem get?_writeAll_other (changes : List (String × RefChange)) :
    ∀ refs : RefStore, name ∉ changes.map Prod.fst →
      (writeAll refs changes).get? name = refs.get? name := by
  induction changes with
  | nil => exact fun _ _ => rfl
  | cons c rest ih =>
      intro refs hname
      rw [List.map_cons, List.mem_cons, not_or] at hname
      show (writeAll (perform refs c.1 c.2) rest).get? name = _
      rw [ih _ hname.2, get?_perform, if_neg hname.1]

/-- A name with one change has what comes of it. -/
theorem get?_writeAll (changes : List (String × RefChange)) {change : RefChange} :
    ∀ refs : RefStore, (changes.map Prod.fst).Nodup → (name, change) ∈ changes →
      (writeAll refs changes).get? name = RefStore.settled (refs.get? name) change.value? := by
  induction changes with
  | nil => exact fun _ _ hmem => nomatch hmem
  | cons c rest ih =>
      intro refs hnodup hmem
      obtain ⟨hc, hrest⟩ := List.nodup_cons.mp hnodup
      show (writeAll (perform refs c.1 c.2) rest).get? name = _
      -- the first change of a name is its only one: the later ones are of others
      rcases List.mem_cons.mp hmem with rfl | hmem
      · rw [get?_writeAll_other rest _ hc, get?_perform, if_pos rfl]
      · have hne : name ≠ c.1 := by
          rintro rfl
          exact hc (List.mem_map.mpr ⟨(_, change), hmem, rfl⟩)
        rw [ih _ hrest hmem, get?_perform, if_neg hne]

/-- A lock is refused, or it is added to those of the batch. -/
theorem lock_cases (b : RefBatch) (name : String) :
    (∃ e, b.lock name = .error e)
    ∨ b.lock name = .ok { b with
        refs := { b.refs with locked := name :: b.refs.locked }, taken := name :: b.taken } := by
  rw [lock]
  cases b.refs.attempt (.lock name) with
  | error e => exact Or.inl ⟨e, rfl⟩
  | ok u =>
      cases b.refs.lockError? name with
      | some e => exact Or.inl ⟨e, rfl⟩
      | none => exact Or.inr rfl

/-- A change is refused, or it is added to those of the batch. -/
theorem queue_cases (b : RefBatch) (name : String) (change : RefChange) :
    (∃ e, b.queue name change = .error e)
    ∨ b.queue name change = .ok { b with changes := (name, change) :: b.changes } := by
  rw [queue]
  cases b.refs.attempt (.queue name) with
  | error e => exact Or.inl ⟨e, rfl⟩
  | ok u => exact Or.inr rfl

/-- A batch fails as a whole, or it writes all of its changes. -/
theorem commit_cases (b : RefBatch) :
    (∃ e, b.commit = .error e) ∨ b.commit = .ok (writeAll b.drop b.changes.reverse) := by
  rw [commit]
  cases b.refs.attempt .write with
  | error e => exact Or.inl ⟨e, rfl⟩
  | ok u =>
      by_cases hbelow : ((b.changes.map (·.1)).any fun name =>
          (b.changes.map (·.1)).any fun other => Files.isBelow name other) = true
      · left
        refine ⟨.generic "the name is a directory of references", ?_⟩
        show (if _ then _ else _) = _
        rw [if_pos hbelow]
        rfl
      · right
        show (if _ then _ else _) = _
        rw [if_neg hbelow]
        rfl

end RefBatch

end Gitwork
