import Gitwork.Operation.Basic
import Gitwork.Remote.Refspec
import Gitwork.Repo.Disk

/-! # Peers

    The other repository of a fetch or a push.  It is named by a configured
    remote or by an address, and reached if the address is a directory that
    holds a repository.  What it shows are its references, each with the
    object that it leads to. -/

namespace Gitwork

/-- One reference that a repository shows to another. -/
structure Advertised where
  name : String
  id : Oid
  /-- The reference that it names, if it is symbolic. -/
  target : Option String
deriving DecidableEq, Repr, Inhabited

namespace Repo

/-- Stands behind the name of a tag for what the tag is about. -/
def peeledMark : String := "^\x7b\x7d"

/-- What is shown of one reference.  To one that fetches, an annotated tag is
    shown with what it is about. -/
def advertise (r : Repo) (fetching : Bool) (name : String) :
    Except NativeError (List Advertised) := do
  let value ← r.refs.find name
  let id ← match r.refs.resolve name with
    | .ok id => pure id
    | .error e => if name = RefName.head && e.code = -3 then return [] else throw e
  let shown : Advertised := ⟨name, id, match value with
    | .symbolic target => some target
    | .direct _ => none⟩
  if !RefName.isTag name then return [shown]
  match ← r.objects.find id with
  | .tag _ =>
    if fetching then
      let about ← r.objects.untag (r.objects.length + 1) id
      return [shown, ⟨name ++ peeledMark, about, none⟩]
    else return [shown]
  | _ => return [shown]

/-- All that a repository shows, in the order of names; `HEAD` only to one
    that fetches.  A reference that leads nowhere spoils it all. -/
def advertised (r : Repo) (fetching : Bool) : Except NativeError (List Advertised) :=
  let names := (r.refs.values.keys.filter fun name => name.startsWith "refs/")
  let wanted := if fetching then RefName.head :: names else names
  match wanted.mapM (r.advertise fetching) with
  | .ok shown => .ok shown.flatten
  | .error _ => .error (.generic "the references cannot be listed")

end Repo

/-- The other repository, as it is named. -/
structure Peer where
  /-- The name of the remote, if it is a configured one. -/
  name : Option String
  url : String
  /-- What is fetched from it when nothing is named. -/
  specs : List Refspec
deriving DecidableEq, Repr, Inhabited

namespace Peer

/-- How the peer goes by in logs. -/
def shown (p : Peer) : String := p.name.getD p.url

/-- Whether a text may name a remote: its place has to be one of references. -/
def isName (text : String) : Bool :=
  (Refspec.parseFetch? ("refs/heads/x:refs/remotes/" ++ text ++ "/x")).isSome

/-- The peer at an address, which may not be empty. -/
def anonymous (url : String) : Except NativeError Peer :=
  if url = "" then .error .invalidSpec else .ok ⟨none, url, []⟩

end Peer

/-- The configured remote of a name, or else the peer at an address. -/
def Repo.peer (r : Repo) (nameOrUrl : String) : Except NativeError Peer :=
  match r.remotes.get? nameOrUrl with
  | some remote =>
    if Peer.isName nameOrUrl then
      .ok ⟨some nameOrUrl, remote.url, remote.fetch.filterMap Refspec.parseFetch?⟩
    else Peer.anonymous nameOrUrl
  | none => Peer.anonymous nameOrUrl

namespace Disk

/-- Whether a path is that of a directory. -/
def isDir (d : Disk) (path : String) : Bool :=
  let path := Path.normalize path
  d.present path && !d.repos.any fun (dir, r) =>
    (Path.below? dir path).any fun inner => r.files.has inner

/-- The directory of the repository at an address.  Paths start from a
    directory; no other kind of address can be reached. -/
def connect (d : Disk) (start url : String) : Except NativeError String :=
  if url.contains ':' then .error (.generic "unsupported URL protocol")
  else
    let path := Path.join start url
    if d.isDir path then
      (d.openAt path).mapError fun _ => .generic "there is no repository at this path"
    else .error (.generic "unsupported URL protocol")

end Disk

namespace Engine

/-- The repository in a directory. -/
def repoIn (dir : String) : Engine Disk Repo := do
  match (← get).repo? dir with
  | some r => pure r
  | none => throw .notFound

/-- Puts a repository into a directory. -/
def putRepo (dir : String) (r : Repo) : Engine Disk Unit := modify fun d => d.setRepo dir r

/-- Points a reference of a repository at an object that it has. -/
def putRef (dir name : String) (id : Oid) (force : Bool) (message : String) :
    Engine Disk Unit := do
  let r ← repoIn dir
  if !RefName.isValid name then throw .invalidSpec
  if !r.objects.has id then throw (.generic "the object of the reference is not there")
  putRepo dir { r with refs := ← ofExcept (r.refs.create name id force message) }

/-- Deletes a reference of a repository. -/
def dropRef (dir name : String) : Engine Disk Unit := do
  let r ← repoIn dir
  putRepo dir { r with refs := ← ofExcept (r.refs.remove name) }

/-- The id that a reference of a repository leads to, if there is one. -/
def refId? (dir name : String) : Engine Disk (Option Oid) := do
  let r ← repoIn dir
  match r.refs.resolve name with
  | .ok id => pure (some id)
  | .error e => if e.code = -3 then pure none else throw e

end Engine

end Gitwork
