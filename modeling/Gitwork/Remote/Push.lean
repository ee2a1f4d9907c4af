import Gitwork.Remote.Peer
import Gitwork.Revision

/-! # Pushes

    A push copies objects to a peer and moves the references of the peer.
    The host may call it off once it is known which references are to move.
    Then each move is checked, the objects are copied, and the peer accepts
    or rejects each reference on its own.

    After that the host hears of every reference, and what is known here of
    the peer's references follows those that were accepted. -/

namespace Gitwork

/-- One reference of a peer that is to move. -/
structure PushItem where
  force : Bool
  /-- The revision that was named, empty to delete. -/
  source : String
  target : String
  /-- What the peer shows. -/
  old : Oid
  /-- What is pushed; zero to delete. -/
  new : Oid
deriving DecidableEq, Repr, Inhabited

namespace PushItem

/-- How the host is told of it before it happens. -/
def toUpdate (i : PushItem) : RefUpdate := ⟨some i.source, some i.target, i.old, i.new⟩

/-- Whether objects have to be copied. -/
def carries (i : PushItem) : Bool := !i.new.isZero && i.new ≠ i.old

end PushItem

/-- The push would lose commits of the peer. -/
def NativeError.notFastForward : NativeError := ⟨-11, "cannot push non-fastforwardable reference"⟩

namespace Push

/-! ## What is pushed -/

/-- Reads one refspec: the revision has to name an object, and the target has
    to be a full name. -/
def item (r : Repo) (shown : List Advertised) (text : String) : Except NativeError PushItem :=
  match Refspec.parsePush? text with
  | none => .error (.generic ("invalid refspec " ++ text))
  | some spec =>
    let target := spec.target.getD spec.source
    if !target.startsWith "refs/" then
      .error (.generic ("not a valid reference '" ++ target ++ "'"))
    else
      let old := ((shown.find? (·.name = target)).map (·.id)).getD .zero
      if spec.source = "" then .ok ⟨spec.force, "", target, old, .zero⟩
      else match r.revision spec.source with
        | .ok d => .ok ⟨spec.force, spec.source, target, old, d.id⟩
        | .error _ =>
          .error (.generic ("src refspec '" ++ spec.source
            ++ "' does not match any existing object"))

/-- Checks that an item may go ahead.  It has to be a commit or a tag; without
    force, the peer's commit has to be here, among the ancestors of the new
    one. -/
def check (s : ObjectStore) (i : PushItem) : Except NativeError Unit :=
  if !i.carries then .ok ()
  else
    let guarded := !i.force && !i.old.isZero
    match s.get? i.new, s.get? i.old with
    | none, _ => .error .notFound
    | some (.blob _), _ | some (.tree _), _ => .error .invalidSpec
    | some _, none => if guarded then .error .notFastForward else .ok ()
    | some (.commit _), some (.commit _) =>
      if guarded && !s.descends i.new i.old then .error .notFastForward else .ok ()
    | some _, some _ =>
      if guarded then .error (.generic "what is pushed is no commit") else .ok ()

/-- The objects to copy: all that the items lead to, but neither the commits
    that what the peer shows leads to nor the files of what it shows. -/
def pack (s : ObjectStore) (shown : List Advertised) (items : List PushItem) : ObjectStore :=
  let known := shown.filterMap fun a =>
    match s.get? a.id with
    | some _ => (s.untag (s.length + 1) a.id).toOption
    | none => none
  let old := s.reachable known
  let kept := (known.filterMap s.get?).flatMap Object.withParts |>.map Object.id
  let new := (s.reachable ((items.filter (·.carries)).map (·.new))).filter (!old.contains ·)
  let objects := (new.filterMap s.get?).flatMap Object.withParts
  (objects.foldl ObjectStore.insert []).filter fun e => !kept.contains e.1

/-! ## At the peer -/

/-- How far the copying of a number of objects is, step by step. -/
def steps (count : Nat) : List PushTransferProgress :=
  (List.range (count + 1)).map fun n => ⟨n, count, 0⟩

/-- Moves one reference of the peer.  Deleting what is not there succeeds. -/
def moveRef (r : Repo) (i : PushItem) : Except NativeError Repo :=
  if i.new.isZero then
    if r.refs.has i.target then (r.refs.remove i.target).map fun refs => { r with refs }
    else .ok r
  else (r.refs.create i.target i.new (!i.old.isZero) "").map fun refs => { r with refs }

/-- Why the peer rejects a reference, in its words. -/
def rejection (r : Repo) (i : PushItem) (e : NativeError) : String :=
  if e.code = -12 then "funny refname"
  else if e.code = -3 then "Remote branch not found to delete"
  else if e.code = -14 then
    "failed to lock file '" ++ r.path ++ i.target ++ ".lock' for writing"
  else if (r.refs.lockError? i.target).any (·.code = -1) then
    "could not remove directory '" ++ r.path ++ i.target ++ "': parent is not directory"
  else e.message

/-- Moves the references of the peer, each on its own; says why if one is
    rejected. -/
def moveAll (there : String) : List PushItem → Engine Disk (List (PushItem × Option String))
  | [] => pure []
  | i :: rest => do
    let r ← Engine.repoIn there
    let status ← match moveRef r i with
      | .ok r => do
        Engine.putRepo there r
        pure none
      | .error e => pure (some (rejection r i e))
    return (i, status) :: (← moveAll there rest)

/-! ## What is known here of the peer -/

/-- Updates what is known of one reference that the peer accepted.  If several
    items have the same target, the first of them counts. -/
def track (here : String) (p : Peer) (i : PushItem) : Engine Disk Unit := do
  match (p.specs.find? (·.covers i.target)).bind (·.image? i.target) with
  | none => pure ()
  | some name =>
    if i.new.isZero then
      let r ← Engine.repoIn here
      if !r.refs.has name then return
      Engine.dropRef here name
    else Engine.putRef here name i.new true "update by push"
    Engine.tell (.updateTips name i.old i.new)

/-! ## The whole -/

/-- Pushes refspecs from the repository in a directory to a peer. -/
def run (start here : String) (p : Peer) (refspecs : List String) : Engine Disk Unit := do
  let there ← Engine.ofExcept ((← get).connect start p.url)
  let peer ← Engine.repoIn there
  let shown ← Engine.ofExcept (peer.advertised false)
  let r ← Engine.repoIn here
  let items ← Engine.ofExcept (refspecs.mapM (item r shown))
  Engine.tell (.pushNegotiation (items.map (·.toUpdate)))
  items.forM fun i => Engine.ofExcept (check r.objects i)
  if !peer.isBare then throw .bare
  let objects := pack r.objects shown items
  (steps objects.length).forM fun n => Engine.inform (.pushTransferProgress n)
  Engine.putRepo there { peer with objects := peer.objects.merge objects }
  let moved ← moveAll there items
  moved.forM fun (i, status) => Engine.tell (.pushUpdateReference i.target status)
  (moved.filter (·.2.isNone)).forM fun (i, _) =>
    track here p ((items.find? (·.target = i.target)).getD i)

end Push

/-- Pushes to a remote or an address from the repository in a directory.
    Addresses that are paths start from `start`. -/
def Disk.push (d : Disk) (caller : ThreadId) (start here nameOrUrl : String)
    (refspecs : List String) (handlers : HandlerSet) : Operated Disk Unit :=
  match (d.repo? here).elim (.error .notFound) (·.peer nameOrUrl) with
  | .error e => .refused caller handlers d e
  | .ok p => operate caller handlers (Push.run start here p refspecs) d

end Gitwork
