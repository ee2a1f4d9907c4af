import Gitwork.Checkout.Change

/-! # Plans

    What a checkout does with each path, decided before anything is written.
    Three states count: the baseline, which is what the working directory is
    supposed to hold; the target; and what the working directory does hold.

    A file that has neither the content of the baseline nor that of the target
    was changed locally; only force overwrites or deletes it. -/

namespace Gitwork

/-- What a checkout is asked to do. -/
structure CheckoutTask where
  baseline : Files
  target : Files
  /-- Conflicts that are checked out as files with both sides. -/
  conflicts : Table (IndexConflict × Option Bytes)
  force : Bool
  /-- Whether missing files are made anew. -/
  recreate : Bool
  /-- Whether a file of another size than in the baseline is known to have
      been changed, whatever it holds. -/
  sizesKnown : Bool
  removeUntracked : Bool
  updateIndex : Bool
  paths : List String
deriving Inhabited

/-- What stands at a path of the working directory. -/
inductive Standing
  | nothing
  | file (content : Bytes)
  | directory
  /-- A file stands where a directory above the path would be. -/
  | blocked
deriving DecidableEq, Repr, Inhabited

def Files.standing (fs : Files) (path : String) : Standing :=
  match fs.get? path with
  | some content => .file content
  | none =>
    if fs.hasDir path then .directory
    else if (Files.parents path).any fs.has then .blocked
    else .nothing

inductive CheckoutAction
  | keep
  | write
  /-- What is in the way goes first. -/
  | replace
  | remove
  /-- The checkout as a whole cannot be done. -/
  | refuse
deriving DecidableEq, Repr, Inhabited

/-- One thing to tell the handler. -/
abbrev Notice := NotifyKind × String

/-- What to tell, and what to do. -/
structure Decision where
  notices : List Notice
  action : CheckoutAction
deriving DecidableEq, Repr, Inhabited

namespace CheckoutTask

/-- Whether a file was changed locally. -/
def isChanged (t : CheckoutTask) (c : FileChange) (content : Bytes) : Bool :=
  let otherSize := t.sizesKnown &&
    c.old.elim false fun old => !old.isEmpty && old.length != content.length
  otherSize || (c.old != some content && c.new != some content)

/-- What to do at the path of a change, and whether it is dirty on its own. -/
def actionFor (t : CheckoutTask) (c : FileChange) : Standing → Bool × CheckoutAction
  | .nothing =>
    match c.status with
    | .added => (false, .write)
    | .deleted => (false, .remove)
    | .modified => (false, if t.recreate then .write else .refuse)
    | _ => (true, if t.recreate then .write else .keep)
  | .file content =>
    match c.status with
    | .added => (false, if t.force then .write else .refuse)
    | .deleted => (false, if t.isChanged c content && !t.force then .refuse else .remove)
    | .modified => (false, if t.isChanged c content && !t.force then .refuse else .write)
    | _ =>
      if t.isChanged c content then (true, if t.force then .write else .keep) else (false, .keep)
  | .directory | .blocked =>
    match c.status with
    | .deleted => (false, .keep)
    | .added | .modified => (false, if t.force then .replace else .refuse)
    | _ => (true, if t.force then .replace else .keep)

/-- The decision on a change.  A directory in the place of a file that is not
    to be written is told of as untracked. -/
def decide (t : CheckoutTask) (c : FileChange) (s : Standing) : Decision :=
  let (dirty, action) := t.actionFor c s
  let before := if dirty then [(NotifyKind.dirty, c.path)] else []
  let stray :=
    if s = .directory && (c.status = .unmodified || c.status = .deleted) then
      [(NotifyKind.untracked, c.path ++ "/")]
    else []
  let own := match action with
    | .write | .replace => [(NotifyKind.updated, c.path)]
    | .refuse => [(NotifyKind.conflict, c.path)]
    | .keep | .remove => []
  ⟨before ++ stray ++ own, action⟩

end CheckoutTask

/-- One entry of a plan. -/
inductive CheckoutItem
  | change (path : String) (new : Option Bytes) (decision : Decision)
  /-- A file, or a whole directory with a slash at its end, that neither
      state knows. -/
  | stray (path : String) (kind : NotifyKind) (removed : Bool)
deriving DecidableEq, Repr, Inhabited

namespace CheckoutItem

def path : CheckoutItem → String
  | change p .. => p
  | stray p .. => p

def notices : CheckoutItem → List Notice
  | change _ _ d => d.notices
  | stray p kind _ => [(kind, p)]

def refuses : CheckoutItem → Bool
  | change _ _ d => d.action = .refuse
  | stray .. => false

end CheckoutItem

/-- One thing that is written. -/
inductive CheckoutStep
  | remove (path : String)
  | write (path : String) (content : Bytes)
  /-- A conflict, with the file that shows it. -/
  | conflict (path : String) (sides : IndexConflict) (shown : Option Bytes)
deriving DecidableEq, Repr, Inhabited

def CheckoutStep.path : CheckoutStep → String
  | remove p => p
  | write p _ => p
  | conflict p .. => p

namespace CheckoutTask

/-- The changes of the paths that the task is about. -/
def changes (t : CheckoutTask) : List FileChange :=
  (Files.pairs t.baseline t.target).filter fun c => selectsPath t.paths c.path

/-- How a file that neither state knows is told of: by the outermost
    directory that nothing else is in, or by itself. -/
def strayOf (t : CheckoutTask) (index : Index) (cs : List FileChange) (path : String) :
    Option CheckoutItem :=
  let whole := (Files.parents path).find? fun dir =>
    !(cs.any fun c => Files.isBelow c.path dir) && selectsPath t.paths (dir ++ "/")
      && !(index.entries.hasDir dir || index.conflicts.any fun c => Files.isBelow c.1 dir)
  match whole with
  | some dir => some (.stray (dir ++ "/") .untracked t.removeUntracked)
  | none =>
    if !selectsPath t.paths path then none
    else if index.has path then some (.stray path .dirty t.force)
    else some (.stray path .untracked t.removeUntracked)

/-- The plan: all changes and all strays, in the order of paths. -/
def plan (t : CheckoutTask) (index : Index) (files : Files) : List CheckoutItem :=
  let cs := t.changes
  let covered (p : String) := cs.any fun c => c.path = p || Files.isBelow p c.path
    || (Files.isBelow c.path p && !files.has c.path)
  let strays := (files.keys.filter fun p => !covered p).filterMap (t.strayOf index cs)
  let items := (cs.map fun c => .change c.path c.new (t.decide c (files.standing c.path)))
    ++ strays.eraseDups
  items.mergeSort fun a b => !Decidable.decide (b.path < a.path)

/-- What the plan writes: removals first, those of strays after the others;
    then files, then conflicts. -/
def steps (t : CheckoutTask) (items : List CheckoutItem) : List CheckoutStep :=
  let removals := items.filterMap fun
    | .change p _ d => if d.action = .remove ∨ d.action = .replace then some (.remove p) else none
    | .stray .. => none
  let strays := items.filterMap fun
    | .stray p _ true => some (.remove p)
    | _ => none
  let writes := items.filterMap fun
    | .change p new d =>
      if d.action = .write ∨ d.action = .replace then new.map (.write p) else none
    | .stray .. => none
  let conflicts := (t.conflicts.filter fun c => selectsPath t.paths c.1).map fun (p, sides, shown) =>
    .conflict p sides shown
  removals ++ strays ++ writes ++ conflicts

end CheckoutTask

end Gitwork
