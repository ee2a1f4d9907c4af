import Gitwork.Checkout.Plan
import Gitwork.Operation.Basic

/-! # Checking out

    The plan is told to the handler first, notice by notice.  If a notice
    fails, or the plan refuses, nothing is written.  Then the steps are done
    one after the other, each reported by its number; what the progress
    handler says does not matter to the engine.

    The preview of a checkout tells what would be done from two comparisons
    and writes nothing. -/

namespace Gitwork

/-- Local changes are in the way. -/
def NativeError.conflict : NativeError := ⟨-13, "conflicts prevent checkout"⟩

namespace Repo

/-- Removes a file, or all that is below a directory, with the files that are
    in the way of the path. -/
def clearPath (r : Repo) (path : String) : Repo :=
  let gone (p : String) : Bool :=
    p = path || Files.isBelow p path || path.isPrefixOf p && path.endsWith "/"
      || Files.isBelow path p
  { r with files := r.files.filter fun f => !gone f.1 }

/-- Removes a path, or all that is below one with a slash at its end, from
    what is staged. -/
def unstage (r : Repo) (path : String) : Repo :=
  let gone (p : String) : Bool := p = path || path.endsWith "/" && path.isPrefixOf p
  { r with index := { r.index with entries := r.index.entries.filter fun f => !gone f.1 } }

/-- Does one step. -/
def checkoutStep (updateIndex : Bool) (r : Repo) : CheckoutStep → Repo
  | .remove path =>
    let r := r.clearPath path
    if updateIndex then r.unstage path else r
  | .write path content =>
    let r := { r with files := r.files.insert path content }
    if updateIndex then { r with index := r.index.add path content } else r
  | .conflict path sides shown =>
    let r := { r with files := r.files.put path (shown.or (r.files.get? path)) }
    if updateIndex then { r with index := r.index.addConflict path sides } else r

end Repo

namespace Checkout

/-- Tells what the handler wants to know, as long as it agrees. -/
def notify (wanted : List NotifyKind) : List Notice → Engine Repo Unit
  | [] => pure ()
  | (kind, path) :: rest => do
    if wanted.contains kind then Engine.tell (.checkoutNotify kind (some path))
    notify wanted rest

/-- Does the steps, the first of them being the one after `done`. -/
def perform (updateIndex : Bool) (total : Nat) : Nat → List CheckoutStep → Engine Repo Unit
  | _, [] => pure ()
  | done, step :: rest => do
    modify fun r => r.checkoutStep updateIndex step
    Engine.inform (.checkoutProgress (some step.path) (done + 1) total)
    perform updateIndex total (done + 1) rest

/-- Checks a task out. -/
def run (wanted : List NotifyKind) (t : CheckoutTask) : Engine Repo Unit := do
  let r ← get
  let items := t.plan r.index r.files
  notify wanted (items.flatMap (·.notices))
  if items.any (·.refuses) then throw .conflict
  let steps := t.steps items
  Engine.inform (.checkoutProgress none 0 steps.length)
  perform t.updateIndex steps.length 0 steps

/-- What the working directory is supposed to hold: the files of `HEAD`, or
    none before the first commit. -/
def baseline (r : Repo) : Except NativeError Files :=
  match r.headTree with
  | .error e => if e.code = -9 then .ok [] else .error e
  | files => files

/-- Checks the files of a tree out. -/
def files (wanted : List NotifyKind) (s : CheckoutSettings) (target : Files) :
    Engine Repo Unit := do
  let r ← get
  if r.isBare then throw .bare
  let force : Bool := s.strategy = .force
  if !force && !r.index.conflicts.isEmpty then throw .conflict
  run wanted {
    baseline := ← Engine.ofExcept (baseline r)
    target
    conflicts := []
    force
    recreate := force
    sizesKnown := false
    removeUntracked := s.removeUntracked
    updateIndex := true
    paths := s.paths }

/-- Checks an object out, if it leads to a tree. -/
def object (wanted : List NotifyKind) (s : CheckoutSettings) (id : Oid) : Engine Repo Unit := do
  match (← get).objects.treeOf id with
  | .ok target => files wanted s target
  | .error _ => throw (.generic "the object does not lead to a tree")

/-- Checks out what `HEAD` leads to. -/
def head (wanted : List NotifyKind) (s : CheckoutSettings) : Engine Repo Unit := do
  files wanted s (← Engine.ofExcept (← get).headTree)

end Checkout

end Gitwork
