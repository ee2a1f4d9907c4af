import Gitwork.Repo.Basic

/-! # Revisions

    An expression that names an object: a base, and steps that lead from
    there to another object.  The base is an id, a short name of a reference
    or the beginning of an id; it is empty only in front of a path.

    `Revision.parse` takes an expression apart, and `Repo.revision` walks the
    steps.  A step that has no meaning ends the walk when it is reached, so
    what is wrong earlier in the expression is reported first. -/

namespace Gitwork

/-- One step from an object to another. -/
inductive RevisionStep
  /-- `^n`: the n-th parent; the commit itself for zero. -/
  | parent (n : Nat)
  /-- `~n`: n times the first parent. -/
  | ancestor (n : Nat)
  /-- `^{kind}` -/
  | peel (kind : ObjectKind)
  /-- `^{}`: what a tag is about. -/
  | untag
  /-- `^{/text}`: a commit whose message has the text in it. -/
  | search (text : String)
  /-- `:path` -/
  | path (path : String)
  /-- `@{n}`: what a reference held n changes ago. -/
  | earlier (n : Nat)
  /-- `@{-n}`: what was checked out n times ago. -/
  | visited (n : Nat)
  | meaningless
deriving DecidableEq, Repr, Inhabited

/-- An expression that was taken apart. -/
structure Revision where
  base : String
  steps : List RevisionStep
deriving DecidableEq, Repr, Inhabited

namespace Revision

/-- Counts have to be smaller than this. -/
def countLimit : Nat := 2147483648

/-- The number that decimal digits spell. -/
def numeral (digits : List Char) : Nat :=
  digits.foldl (fun n c => n * 10 + (c.toNat - '0'.toNat)) 0

/-- The text in braces behind a sign, and what follows it. -/
def braced? (cs : List Char) : Option (String × List Char) :=
  match cs.dropWhile (· != '}') with
  | [] => none
  | _ :: rest => some (String.ofList (cs.takeWhile (· != '}')), rest)

/-- What `^{...}` asks for. -/
def bracedStep (content : String) : RevisionStep :=
  if content = "" then .untag
  else if content.startsWith "/" then .search (content.drop 1).toString
  else match ObjectKind.ofName? content with
    | some kind => .peel kind
    | none => .meaningless

/-- What `@{...}` asks for. -/
def logStep (content : String) : RevisionStep :=
  let count (cs : List Char) : Option Nat :=
    if cs ≠ [] ∧ cs.all Char.isDigit ∧ numeral cs < countLimit then some (numeral cs) else none
  match content.toList with
  | '-' :: cs =>
    match count cs with
    | some (n + 1) => .visited (n + 1)
    | _ => .meaningless
  | cs => (count cs).elim .meaningless .earlier

/-- The number of steps that a run of `~` with numbers stands for, given that
    one was read already. -/
def generations : Nat → List Char → Nat × List Char
  | 0, cs => (0, cs)
  | fuel + 1, cs =>
    let digits := cs.takeWhile Char.isDigit
    let rest := cs.dropWhile Char.isDigit
    let n := if digits = [] then 1 else numeral digits
    match rest with
    | '~' :: rest =>
      let (m, rest) := generations fuel rest
      (n + m, rest)
    | _ => (n, rest)

/-- The steps behind the base; `fuel` bounds their number. -/
def parseSteps : Nat → List Char → List RevisionStep
  | 0, _ => []
  | _, [] => []
  | fuel + 1, '^' :: '{' :: cs =>
    match braced? cs with
    | some (content, rest) => bracedStep content :: parseSteps fuel rest
    | none => [.meaningless]
  | fuel + 1, '^' :: cs =>
    let digits := cs.takeWhile Char.isDigit
    let n := if digits = [] then 1 else numeral digits
    if n < countLimit then .parent n :: parseSteps fuel (cs.dropWhile Char.isDigit)
    else [.meaningless]
  | fuel + 1, '~' :: cs =>
    let (n, rest) := generations (cs.length + 1) cs
    if n < countLimit then .ancestor n :: parseSteps fuel rest else [.meaningless]
  | fuel + 1, '@' :: '{' :: cs =>
    match braced? cs with
    | some (content, rest) => logStep content :: parseSteps fuel rest
    | none => [.meaningless]
  | _, ':' :: cs => [.path (String.ofList cs)]
  | _, _ => [.meaningless]

/-- The characters of the base: all up to the first step. -/
def baseChars : List Char → List Char
  | [] => []
  | '@' :: '{' :: _ => []
  | c :: cs => if c = '^' || c = '~' || c = ':' then [] else c :: baseChars cs

/-- Takes an expression apart.  A lone `@` is `HEAD`. -/
def parse (spec : String) : Revision :=
  if spec = "@" then ⟨RefName.head, []⟩
  else
    let cs := spec.toList
    let base := baseChars cs
    ⟨String.ofList base, parseSteps (cs.length + 1) (cs.drop base.length)⟩

end Revision

/-- The object that an expression names, and the reference that it names it
    by, if it is no more than a base. -/
structure Designated where
  id : Oid
  refname : Option String
deriving DecidableEq, Repr, Inhabited

namespace Repo

/-- The places where a short name of a reference is looked for. -/
def shortNamePlaces (name : String) : List String :=
  [name, "refs/" ++ name, "refs/tags/" ++ name, "refs/heads/" ++ name, "refs/remotes/" ++ name,
    "refs/remotes/" ++ name ++ "/HEAD"]

/-- The first of some places whose reference resolves.  A place that is no
    well-formed name counts as one without a reference. -/
def firstName (r : Repo) : List String → NativeError → Except NativeError (String × Oid)
  | [], e => .error e
  | place :: rest, _ =>
    if RefName.isValid place then
      match r.refs.resolveName place with
      | .ok found => .ok found
      | .error e => if e.code = -3 then firstName r rest e else .error e
    else firstName r rest .invalidSpec

/-- The reference of a short name; no name at all stands for `HEAD`. -/
def expandName (r : Repo) (name : String) : Except NativeError (String × Oid) :=
  r.firstName (if name = "" then [RefName.head] else shortNamePlaces name) .invalidSpec

/-- More than one thing has the name that was asked for. -/
def ambiguous : NativeError := ⟨-5, "ambiguous"⟩

/-- The object whose id begins with a text. -/
def abbreviated (r : Repo) (start : String) : Except NativeError Oid :=
  if start.all Oid.isHexDigit && start.length ≤ Oid.digits then
    if start.length < 4 then .error ambiguous
    else
      match r.objects.filter fun e => (start.map Char.toLower).isPrefixOf e.1.hex with
      | [] => .error .notFound
      | [e] => .ok e.1
      | _ => .error ambiguous
  else .error .notFound

/-- The object of a base. -/
def baseObject (r : Repo) (base : String) : Except NativeError Designated := do
  let byId := (Oid.ofHex? base).bind fun id => if r.objects.has id then some id else none
  match byId with
  | some id => return ⟨id, none⟩
  | none =>
    match r.expandName base with
    | .ok (name, id) =>
      let _ ← r.objects.find id
      return ⟨id, some name⟩
    | .error e => if e.code = -3 then return ⟨← r.abbreviated base, none⟩ else throw e

/-- The commit of a step; an object that leads to none has no such step. -/
def stepCommit (r : Repo) (id : Oid) : Except NativeError (Oid × Commit) :=
  (r.objects.commitOf id).mapError fun e => if e.code = -3 then e else .invalidSpec

def parentOf (r : Repo) (id : Oid) (n : Nat) : Except NativeError Oid := do
  let (id, c) ← r.stepCommit id
  match n with
  | 0 => return id
  | n + 1 => (c.parents[n]?).elim (throw .notFound) pure

/-- Follows first parents. -/
def ancestorOf (r : Repo) : Nat → Oid → Except NativeError Oid
  | 0, id => (r.stepCommit id).map (·.1)
  | n + 1, id => do ancestorOf r n (← r.parentOf id 1)

/-- The object at a path below a tree; a slash at the end asks for a tree. -/
def entryAt (files : Files) (path : String) : Except NativeError Object :=
  let wantsTree := path.endsWith "/"
  let place := if wantsTree then (path.dropEnd 1).toString else path
  if place = "" ∨ (place.splitOn "/").contains "" then .error .notFound
  else if files.hasDir place then .ok (.tree (files.under place))
  else
    match files.get? place with
    | some content => if wantsTree then .error .notFound else .ok (.blob content)
    | none => .error .notFound

/-- A commit, reached from some ids, whose message has a text in it. -/
def searchMessage (r : Repo) (starts : List Oid) (text : String) : Except NativeError Oid :=
  let hit := (r.objects.reachable starts).find? fun id =>
    match r.objects.get? id with
    | some (.commit c) => 1 < (c.message.splitOn text).length
    | _ => false
  hit.elim (.error .notFound) .ok

/-- What was left at the n-th last time that `HEAD` moved to something else. -/
def visitedName (r : Repo) (n : Nat) : Except NativeError String :=
  let left := ((r.refs.logs.get? RefName.head).getD []).filterMap fun e => do
    let message ← e.message
    if message.startsWith "checkout: moving from " then
      ((message.drop 22).toString.splitOn " to ").head?
    else none
  (left[n - 1]?).elim (.error .notFound) .ok

/-- Walks one step.  Only what a reference held, or what was checked out, is
    asked of a base. -/
def revisionStep (r : Repo) (base : String) (first : Bool) (from? : Except NativeError Designated)
    (step : RevisionStep) : Except NativeError Designated := do
  let plain (id : Oid) : Designated := ⟨id, none⟩
  match step with
  | .earlier n =>
    if !first then throw .invalidSpec
    let (name, id) ← r.expandName base
    let id ← if n = 0 then pure id
      else match ((r.refs.logs.get? name).getD [])[n]? with
        | some e => pure e.new
        | none => throw .notFound
    let _ ← r.objects.find id
    return ⟨id, some name⟩
  | .visited n =>
    if !first ∨ base ≠ "" then throw .invalidSpec
    r.baseObject (← r.visitedName n)
  | .path place =>
    if first ∧ base = "" then
      if place.startsWith "/" then
        return plain (← r.searchMessage (r.refs.all.filterMap fun e => (r.refs.target e.2).toOption)
          (place.drop 1).toString)
      else throw (.generic "paths of the index are not read")
    else
      let files ← (r.objects.treeOf (← from?).id).mapError fun e =>
        if e.code = -3 then .invalidSpec else e
      if place = "" then return plain (Object.treeId files)
      else return plain (← entryAt files place).id
  | .parent n => return plain (← r.parentOf (← from?).id n)
  | .ancestor n => return plain (← r.ancestorOf n (← from?).id)
  | .peel kind => return plain (← r.objects.peel kind (← from?).id)
  | .untag => return plain (← r.objects.untag (r.objects.length + 1) (← from?).id)
  | .search text => return plain (← r.searchMessage [(← from?).id] text)
  | .meaningless => let _ ← from?; throw .invalidSpec

/-- The object that an expression names; it has to be there. -/
def revision (r : Repo) (spec : String) : Except NativeError Designated := do
  let rev := Revision.parse spec
  let base : Except NativeError Designated :=
    if rev.base = "" then .error .invalidSpec else r.baseObject rev.base
  let designated ← (rev.steps.foldl
    (fun (first, at?) step => (false, r.revisionStep rev.base first at? step)) (true, base)).2
  let _ ← r.objects.find designated.id
  return designated

/-- The object at a path in the tree of a revision. -/
def blobAt (r : Repo) (spec path : String) : Except NativeError Oid := do
  let at? ← r.revision spec
  let files ← r.objects.treeOf at?.id
  match Path.steps path with
  | .name _ :: _ => return (← entryAt files path).id
  | _ => throw (.generic "the path is not one inside of a tree")

end Repo

end Gitwork
