import Gitwork.Checkout.Engine
import Gitwork.Path

/-! # Previews

    What a checkout would do, told without doing it.  A path that would be
    written is updated, or in conflict if it was changed locally as well; a
    path that would not be written is dirty or untracked.  Each path is told
    of once, in the order of paths, component by component. -/

namespace Gitwork

namespace Preview

/-- Lines about paths, in the order of paths. -/
abbrev Report := List (String × NotifyKind)

/-- Adds a path, or gives a path that is there already a new kind if that is
    asked for. -/
def Report.add (again : Bool) (r : Report) (path : String) (kind : NotifyKind) : Report :=
  match r with
  | [] => [(path, kind)]
  | (p, k) :: rest =>
    match Path.compare path p with
    | .lt => (path, kind) :: (p, k) :: rest
    | .eq => (p, if again then kind else k) :: rest
    | .gt => (p, k) :: Report.add again rest path kind

/-- Whether a local line says that a path was changed. -/
def isDirty (d : Delta) : Bool :=
  d.status ≠ .untracked && d.status ≠ .ignored && d.status ≠ .unmodified

/-- The paths of the lines that have a property. -/
def pathsOf (p : Delta → Bool) (ds : List Delta) : List String :=
  (ds.filter p).filterMap Delta.path?

/-- The report on what comes in and what was changed locally. -/
def report (incoming changed : List Delta) : Report :=
  let dirty := pathsOf isDirty changed
  let untracked := pathsOf (·.status = .untracked) changed
  let local? (p : String) : Bool := (dirty ++ untracked).any (Path.same p)
  let r := (pathsOf (fun _ => true) incoming).foldl
    (fun r p => Report.add true r p (if local? p then .conflict else .updated)) []
  let r := dirty.foldl (fun r p => Report.add false r p .dirty) r
  untracked.foldl (fun r p => Report.add false r p .untracked) r

/-- Tells the lines that are wanted, until the handler fails. -/
def tell {σ : Type} (wanted : List NotifyKind) : Report → Engine σ Unit
  | [] => pure ()
  | (path, kind) :: rest =>
    if wanted.contains kind then do
      let reply ← Engine.ask (.checkoutNotify kind (some path))
      if reply.goesOn then tell wanted rest else pure ()
    else tell wanted rest

/-- The files of `HEAD`, or none if it leads to nothing. -/
def headFiles (r : Repo) : Except NativeError Files :=
  match r.refs.head with
  | .ok (_, id) => r.objects.treeOf id
  | .error e => if e.code = -9 ∨ e.code = -3 then .ok [] else .error e

/-- What comes in with a tree and what was changed locally, both against
    `HEAD`. -/
def comparisons (paths : List String) (target : Files) (r : Repo) :
    Except NativeError (List Delta × List Delta) := do
  let head ← headFiles r
  if r.isBare then throw .bare
  return (Files.deltas paths head target, r.localDeltas head paths)

/-- Tells what a checkout would do, from the comparisons that show it.  They
    are not made if nothing is wanted. -/
def run {σ : Type} (wanted : List NotifyKind)
    (compared : σ → Except NativeError (List Delta × List Delta)) : Engine σ Unit := do
  if wanted.isEmpty then return
  let (incoming, changed) ← Engine.ofExcept (compared (← get))
  tell wanted (report incoming changed)

end Preview

end Gitwork
