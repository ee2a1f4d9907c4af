import Gitwork.Checkout.Basic
import Gitwork.Remote.Fetch

/-! # Clones

    A clone makes a repository in a new or empty directory, copies all
    objects of a repository on the same disk into it and fetches its
    references.  Then `HEAD` and one branch follow the peer's `HEAD`, or the
    branch that was asked for, and the files of `HEAD` are written.

    If any of this fails, the directory is as it was before. -/

namespace Gitwork

structure CloneSettings where
  fetch : FetchSettings
  bare : Bool
  /-- The branch to check out instead of the peer's own. -/
  branch : Option String
deriving DecidableEq, Repr, Inhabited

namespace Disk

/-- Whether a directory is there with nothing in it. -/
def isEmptyDir (d : Disk) (path : String) : Bool :=
  d.dirs.contains path && !d.dirs.any (Files.isBelow · path)
    && !d.repos.any fun (dir, _) => dir = path || Files.isBelow dir path

end Disk

namespace Clone

/-- The name of the remote that a clone has. -/
def origin : String := "origin"

/-- Who is logged in a repository without settings. -/
def nobody : Signature := ⟨"unknown", "unknown", none⟩

/-- The branch of a repository without commits. -/
def firstBranch : String := RefName.branchPlace ++ "master"

/-- A fresh repository that has the peer as its remote. -/
def fresh (dest url : String) (bare : Bool) : Repo :=
  { Repo.init dest bare nobody firstBranch with
    remotes := [(origin, ⟨url, [Refspec.ofRemote origin]⟩)] }

/-- The branch that the peer's `HEAD` names; for a detached one, a branch with
    the same object, preferably the first branch of all. -/
def headBranch? (shown : List Advertised) : Option String :=
  match shown with
  | head :: rest =>
    if head.name ≠ RefName.head then none
    else match head.target with
      | some name => some name
      | none =>
        let same := (rest.filter fun a => a.id = head.id && RefName.isBranch a.name).map (·.name)
        if same.contains firstBranch then some firstBranch else same.head?
  | [] => none

/-- Remembers which branch the peer's `HEAD` names. -/
def recordHead (f : FetchPlan) (branch : String) : Engine Disk Unit := do
  match (f.active.find? (·.covers branch)).bind (·.image? branch) with
  | none => throw .invalidSpec
  | some known =>
    let r ← Engine.repoIn f.here
    let name := RefName.remotePlace ++ origin ++ "/" ++ RefName.head
    Engine.putRepo f.here
      { r with refs := r.refs.write name (.symbolic known) r.refs.identity f.message }

/-- Makes a branch and points `HEAD` at it. -/
def startBranch (f : FetchPlan) (name : String) (id : Oid) : Engine Disk Unit := do
  let full := if RefName.isBranch name then name else RefName.branchPlace ++ name
  Engine.putRef f.here full id false f.message
  let r ← Engine.repoIn f.here
  Engine.putRepo f.here (← Engine.ofExcept (r.putHead (.symbolic full) full))

/-- Points `HEAD` at the branch that was asked for. -/
def followBranch (f : FetchPlan) (branch : String) : Engine Disk Unit := do
  let r ← Engine.repoIn f.here
  match ← Engine.ofExcept (r.refs.find (RefName.remotePlace ++ origin ++ "/" ++ branch)) with
  | .symbolic _ => throw .notFound
  | .direct id =>
    startBranch f branch id
    if let some name := headBranch? f.shown then recordHead f name

/-- Points `HEAD` where the peer's points. -/
def followHead (f : FetchPlan) : Engine Disk Unit := do
  match f.shown with
  | head :: _ =>
    if head.name ≠ RefName.head then return
    match headBranch? f.shown with
    | some name =>
      recordHead f name
      startBranch f name head.id
    | none =>
      let r ← Engine.repoIn f.here
      let id ← Engine.ofExcept (r.peel .commit head.id)
      Engine.putRepo f.here (← Engine.ofExcept (r.putHead (.direct id) id.hex))
  | [] => return

/-- Writes the files of `HEAD`, if it leads to a commit. -/
def checkOut (dest : String) : Engine Disk Unit := do
  let r ← Engine.repoIn dest
  if r.isBare || !r.refs.head.isOk then return
  let files ← Engine.ofExcept r.headTree
  Engine.putRepo dest { r with files, index := ⟨files, []⟩ }

/-- Clones the repository at an address into a directory. -/
def run (start dest url : String) (s : CloneSettings) : Engine Disk Unit := do
  let d ← get
  if d.present dest && !d.isEmptyDir dest then
    throw ⟨-4, "'" ++ dest ++ "' exists and is not an empty directory"⟩
  if url = "" then throw .invalidSpec
  let r := fresh dest url s.bare
  if d.isDir (Path.join start url) && !url.contains ':' then
    let peer ← Engine.repoIn (← Engine.ofExcept (d.openAt (Path.join start url)))
    Engine.putRepo dest { r with objects := peer.objects }
  else throw (.generic "unsupported URL protocol")
  let p ← Engine.ofExcept (r.peer origin)
  let tags := if 0 < s.fetch.depth.getD 0 then TagPolicy.follow else .all
  let f ← Fetch.plan start dest p [] tags ("clone: from " ++ url)
  Fetch.run f s.fetch
  match s.branch with
  | some branch => followBranch f branch
  | none => followHead f
  checkOut dest

end Clone

/-- Clones the repository at an address into a directory.  Paths start from
    `start`. -/
def Disk.clone (d : Disk) (caller : ThreadId) (start url into : String) (handlers : HandlerSet)
    (s : CloneSettings) : Operated Disk Repo :=
  let dest := Path.normalize (Path.join start into)
  let made := operate caller handlers
    (do Clone.run start dest url s; Engine.repoIn dest) d
  match made.result with
  | .ok _ => made
  | .error _ => { made with state := d }

end Gitwork
