import Gitwork.Checkout.Preview
import Gitwork.Ref.Batch
import Gitwork.Revision

/-! # Checkouts

    The checkout of a revision, with or without moving `HEAD` to it, and that
    of `HEAD` itself.  `HEAD` moves last, and only if neither the engine nor a
    handler failed: to a branch if the revision names one, otherwise to the
    commit. -/

namespace Gitwork

namespace RefName

/-- A name without the place that it is in. -/
def shorthand (name : String) : String :=
  match [branchPlace, tagPlace, remotePlace, "refs/"].find? (·.isPrefixOf name) with
  | some place => (name.drop place.length).toString
  | none => name

end RefName

namespace Repo

/-- What the log says when `HEAD` moves. -/
def headMessage (old : RefValue) (new : String) : String :=
  let left := match old with
    | .symbolic target => RefName.shorthand target
    | .direct id => id.hex
  let entered := if RefName.isBranch new || RefName.isTag new || RefName.remotePlace.isPrefixOf new
    then RefName.shorthand new else new
  "checkout: moving from " ++ left ++ " to " ++ entered

/-- Gives `HEAD` a value. -/
def putHead (r : Repo) (value : RefValue) (shown : String) : Except NativeError Repo := do
  let old ← r.refs.find RefName.head
  r.refs.checkTarget value
  if r.refs.locked.contains RefName.head then throw .locked
  return { r with refs := r.refs.write RefName.head value r.refs.identity (headMessage old shown) }

/-- Moves `HEAD` to what a revision names. -/
def moveHead (r : Repo) (d : Designated) : Except NativeError Repo := do
  match d.refname with
  | some name =>
    if RefName.isBranch name then r.putHead (.symbolic name) name
    else detach
  | none => detach
where
  detach : Except NativeError Repo := do
    let id ← r.peel .commit d.id
    r.putHead (.direct id) id.hex

/-- Tells what checking out an object would do. -/
def preview (r : Repo) (caller : ThreadId) (handlers : HandlerSet) (s : CheckoutSettings)
    (target : Except NativeError Files) : Operated Repo Unit :=
  match target with
  | .error e => .refused caller handlers r e
  | .ok files => operate caller handlers
    (Preview.run handlers.wanted (Preview.comparisons s.paths files)) r

/-- Checks the tree of a revision out; `HEAD` stays. -/
def checkoutTree (r : Repo) (caller : ThreadId) (rev : String) (handlers : HandlerSet)
    (s : CheckoutSettings) : Operated Repo Unit :=
  match r.revision rev with
  | .error e => .refused caller handlers r e
  | .ok d =>
    if s.strategy = .dryRun then r.preview caller handlers s (r.objects.treeOf d.id)
    else operate caller handlers (Checkout.object handlers.wanted s d.id) r

/-- Checks a revision out as an engine does it, and moves `HEAD` to it. -/
def checkoutBy (engine : Oid → Engine Repo Unit) (r : Repo) (caller : ThreadId) (rev : String)
    (handlers : HandlerSet) (s : CheckoutSettings) : Operated Repo Unit :=
  match r.revision rev with
  | .error e => .refused caller handlers r e
  | .ok d =>
    if s.strategy = .dryRun then r.preview caller handlers s (r.objects.treeOf d.id)
    else
      let done := operate caller handlers (engine d.id) r
      match done.result with
      | .error _ => done
      | .ok _ =>
        match done.state.moveHead d with
        | .ok moved => { done with state := moved }
        | .error e => { done with result := .error (.ofNative e) }

/-- Checks a revision out and moves `HEAD` to it. -/
def checkout (r : Repo) (caller : ThreadId) (rev : String) (handlers : HandlerSet)
    (s : CheckoutSettings) : Operated Repo Unit :=
  r.checkoutBy (Checkout.object handlers.wanted s) caller rev handlers s

/-- Makes the working directory match `HEAD`. -/
def checkoutHead (r : Repo) (caller : ThreadId) (handlers : HandlerSet) (s : CheckoutSettings) :
    Operated Repo Unit :=
  if s.strategy = .dryRun then r.preview caller handlers s r.headTree
  else operate caller handlers (Checkout.head handlers.wanted s) r

end Repo

end Gitwork
