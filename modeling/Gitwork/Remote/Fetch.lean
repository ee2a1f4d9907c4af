import Gitwork.Remote.Peer

/-! # Fetches

    A fetch copies objects from a peer and then updates references.  What is
    wanted are the references that an active refspec covers; if one of them
    is not here yet, everything that the peer shows is copied.

    References move one by one, in the order of refspecs and, for each of
    them, in the order in which the peer shows its own.  A failure stops the
    fetch and leaves what moved before. -/

namespace Gitwork

/-- Which tags come along with other references. -/
inductive TagPolicy
  | none
  /-- Those whose objects are here, unless the tag is here too. -/
  | follow
  | all
deriving DecidableEq, Repr, Inhabited

/-- A fetch, once the peer is reached. -/
structure FetchPlan where
  /-- The directory of the repository that fetches. -/
  here : String
  /-- The directory of the peer. -/
  there : String
  /-- What the peer shows. -/
  shown : List Advertised
  /-- What is fetched. -/
  active : List Refspec
  /-- What is updated as well if it is fetched anyway. -/
  passive : List Refspec
  tags : TagPolicy
  /-- What the logs say. -/
  message : String
deriving DecidableEq, Repr, Inhabited

namespace FetchPlan

/-- Where what is shown of a reference is stored, and whether it is stored
    only as a tag that follows.  Names that no reference can have, such as
    those for what tags are about, are not stored. -/
def place? (f : FetchPlan) (spec : Refspec) (a : Advertised) : Option (String × Bool) :=
  if !RefName.isValid a.name then none
  else if RefName.isTag a.name && f.tags = .follow then some (a.name, true)
  else if spec.covers a.name && !f.active.any (·.excludes a.name) then
    (spec.image? a.name).map (·, false)
  else if RefName.isTag a.name && f.tags = .all then some (a.name, false)
  else none

/-- Whether a reference of the peer is wanted. -/
def wants (f : FetchPlan) (a : Advertised) : Bool :=
  RefName.isValid a.name
    && ((RefName.isTag a.name && f.tags = .all)
      || (f.active.any (·.covers a.name) && !f.active.any (·.excludes a.name)))

/-- The ids that are wanted, those that refspecs spell out included. -/
def wanted (f : FetchPlan) : List Oid :=
  (f.shown.filter f.wants).map (·.id) ++ f.active.filterMap fun s => Oid.ofHex? s.source

end FetchPlan

/-- Whether nothing is lost by moving a reference from one object to another.
    Only commits that are both here are compared. -/
def ObjectStore.forwards (s : ObjectStore) (old new : Oid) : Bool :=
  match s.get? old, s.get? new with
  | some (.commit _), some (.commit _) => s.descends new old
  | _, _ => true

/-- A reference that is not what it has to be. -/
def NativeError.modified : NativeError := ⟨-15, "old reference value does not match"⟩

namespace Fetch

/-! ## Copying objects -/

def sideband (text : String) : Engine Disk Unit :=
  Engine.tell (.sidebandProgress (Text.encodeUtf8 text))

/-- What the peer says while it packs a number of objects. -/
def sidebandTexts (count : Nat) : List String :=
  let n := toString count
  ["Counting objects 1\r", "Counting objects " ++ n ++ "\r", "Counting objects " ++ n ++ "\r\n",
    "Compressing objects: 0% (0/" ++ n ++ ")\r",
    "Compressing objects: 100% (" ++ n ++ "/" ++ n ++ "), done\n"]

/-- How far the copying of a number of objects is, step by step. -/
def steps (count : Nat) : List TransferProgress :=
  (List.range (count + 1)).map fun n => ⟨count, n, n, 0, 0, 0, 0⟩

/-- Copies all that the peer shows. -/
def download (f : FetchPlan) : Engine Disk Unit := do
  let peer ← Engine.repoIn f.there
  if f.shown.any fun a => !peer.objects.has a.id then throw .notFound
  let objects := peer.objects.closure (f.shown.map (·.id))
  (sidebandTexts objects.length).forM sideband
  (steps objects.length).forM fun p => Engine.tell (.transferProgress p)
  let r ← Engine.repoIn f.here
  Engine.putRepo f.here { r with objects := r.objects.merge objects }

/-! ## Updating references -/

/-- Tells that a reference moved. -/
def told (name : String) (old : Option Oid) (new : Oid) : Engine Disk Unit :=
  Engine.tell (.updateTips name (old.getD .zero) new)

/-- Stores what is shown of one reference, by one refspec. -/
def storeOne (f : FetchPlan) (spec : Refspec) (a : Advertised) : Engine Disk Unit := do
  match f.place? spec a with
  | none => pure ()
  | some (name, follows) =>
    let r ← Engine.repoIn f.here
    if follows && !r.objects.has a.id then return
    let old ← Engine.refId? f.here name
    if let some id := old then
      if follows || id = a.id || (!spec.force && !r.objects.forwards id a.id) then return
    else if follows && r.refs.has name then return
    Engine.putRef f.here name a.id (!follows) f.message
    told name old a.id

/-- Moves a reference to an object, whatever was there.  A symbolic reference
    is not moved. -/
def moveRef (f : FetchPlan) (name : String) (id : Oid) : Engine Disk Unit := do
  let old ← Engine.refId? f.here name
  if old = some id then return
  let r ← Engine.repoIn f.here
  match old, r.refs.get? name with
  | some _, some (.symbolic _) => throw .modified
  | _, _ => pure ()
  Engine.putRef f.here name id true f.message
  told name old id

/-- Stores all that one refspec asks for. -/
def storeAll (f : FetchPlan) (spec : Refspec) : Engine Disk Unit := do
  f.shown.forM (storeOne f spec)
  match Oid.ofHex? spec.source, spec.target with
  | some id, some name => moveRef f name id
  | _, _ => pure ()

/-- What passive refspecs make of the references that were fetched. -/
def alongside (f : FetchPlan) : List (String × Oid) :=
  (f.shown.filter fun a => RefName.isValid a.name && !f.active.any (·.excludes a.name)).flatMap
    fun a => (f.active.filter (·.covers a.name)).flatMap fun _ =>
      f.passive.filterMap fun s => (s.image? a.name).map (·, a.id)

/-- Updates all references of a fetch. -/
def update (f : FetchPlan) : Engine Disk Unit := do
  if f.tags = .all then storeAll f .allTags
  f.active.forM (storeAll f)
  (alongside f).forM fun (name, id) => moveRef f name id

/-- The references that have no counterpart at the peer any more. -/
def stale (f : FetchPlan) (refs : RefStore) : List (String × Oid) :=
  refs.all.filterMap fun (name, value) =>
    let sources := f.active.filterMap fun s => s.preimage? name
    match value with
    | .symbolic _ => none
    | .direct id =>
      if sources.isEmpty || sources.any fun s => f.shown.any (·.name = s) then none
      else some (name, id)

/-- Deletes references without a counterpart. -/
def prune (f : FetchPlan) : Engine Disk Unit := do
  let r ← Engine.repoIn f.here
  (stale f r.refs).forM fun (name, id) => do
    Engine.dropRef f.here name
    Engine.tell (.updateTips name id .zero)

/-! ## The whole -/

/-- Runs a planned fetch.  A peer on this disk cannot cut its history short. -/
def run (f : FetchPlan) (s : FetchSettings) : Engine Disk Unit := do
  let r ← Engine.repoIn f.here
  if 0 < s.depth.getD 0 && !f.wanted.isEmpty then
    throw (.generic "shallow fetch is not supported by the local transport")
  if f.wanted.any fun id => !r.objects.has id then download f
  update f
  if s.prune then prune f

/-- Reaches a peer and plans a fetch of some refspecs, or of its own if none
    are named; without any, of `HEAD` alone. -/
def plan (start here : String) (p : Peer) (refspecs : List String) (tags : TagPolicy)
    (message : String) : Engine Disk FetchPlan := do
  let there ← Engine.ofExcept ((← get).connect start p.url)
  let peer ← Engine.repoIn there
  let shown ← Engine.ofExcept (peer.advertised true)
  let names := shown.map (·.name)
  let own := p.specs.map (·.complete names)
  match refspecs.mapM Refspec.parseFetch? with
  | none => throw (.generic "invalid refspec")
  | some passed =>
    let active := if refspecs.isEmpty then own else passed.map (·.complete names)
    let active := if active.isEmpty then [⟨false, RefName.head, none⟩] else active
    return ⟨here, there, shown, active, if refspecs.isEmpty then [] else own, tags, message⟩

end Fetch

/-- Fetches from a remote or an address into the repository in a directory.
    Addresses that are paths start from `start`. -/
def Disk.fetch (d : Disk) (caller : ThreadId) (start here nameOrUrl : String)
    (refspecs : List String) (handlers : HandlerSet) (s : FetchSettings) : Operated Disk Unit :=
  match (d.repo? here).elim (.error .notFound) (·.peer nameOrUrl) with
  | .error e => .refused caller handlers d e
  | .ok p =>
    let tags := if p.name.isSome then TagPolicy.follow else .none
    operate caller handlers
      (do Fetch.run (← Fetch.plan start here p refspecs tags ("fetch " ++ p.shown)) s) d

end Gitwork
