import Gitwork.Workbench.Basic

/-! # Descriptions

    Repositories from a description: the commits that exist, and for each
    repository what it has.  A designator names an object: by the name of a
    commit or a tag, by its content, or by its id. -/

namespace Gitwork

structure CommitDescription where
  name : String
  parents : List String
  files : Files

structure RepoDescription where
  bare : Bool
  /-- The commits that the repository has; all of them if none are named. -/
  has : Option (List String)
  /-- Annotated tags by name, with designators. -/
  tags : List (String × String)
  /-- References by name, with designators or `ref:` and a name. -/
  refs : List (String × String)
  head : Option String
  settings : List (String × String)
  /-- Files to write, or to delete, in the working directory. -/
  files : List (String × Option Bytes)
  remotes : List (String × String)

/-- Who makes everything in a description, and what the logs say of it. -/
structure Maker where
  who : Signature
  message : String

namespace Workbench

/-- The object of a designator, with its content if it is spelled out. -/
def designate? (w : Workbench) (s : String) : Option (Oid × Option Object) :=
  match w.names.lookup s with
  | some id => some (id, none)
  | none =>
    if s = "zero" then some (.zero, none)
    else if s.startsWith "blob:" then
      let o := Object.blob (Text.encodeUtf8 (s.drop 5).toString)
      some (o.id, some o)
    else if s.startsWith "tree:" then
      match (w.names.lookup (s.drop 5).toString).bind w.made.get? with
      | some (.commit c) => some ((Object.tree c.tree).id, some (.tree c.tree))
      | _ => none
    else (Oid.ofHex? s).map fun id => (id, none)

/-- The object of a designator, and the repository with it if it is spelled
    out. -/
def resolve? (w : Workbench) (r : Repo) (s : String) : Option (Oid × Repo) :=
  (w.designate? s).map fun (id, o) => (id, o.elim r r.addObject)

/-- The value of a reference in a description. -/
def value? (w : Workbench) (r : Repo) (s : String) : Option (RefValue × Repo) :=
  if s.startsWith "ref:" then some (.symbolic (s.drop 4).toString, r)
  else (w.resolve? r s).map fun (id, r) => (.direct id, r)

/-- Gives a reference its first value. -/
def placeRef (m : Maker) (r : Repo) (name : String) (v : RefValue) : Repo :=
  let refs := r.refs.put name (some v)
  match v with
  | .direct id =>
    { r with refs := refs.appendLog name ⟨.zero, id, m.who, some m.message⟩ }
  | .symbolic _ => { r with refs }

/-- Adds a commit to the named objects. -/
def describeCommit (m : Maker) (w : Workbench) (d : CommitDescription) : Option Workbench := do
  let parents ← d.parents.mapM fun p => w.names.lookup p
  let o := Object.commit ⟨d.files, parents, m.who, d.name⟩
  return { w with names := w.names ++ [(d.name, o.id)], made := w.made ++ [(o.id, o)] }

/-- Adds an annotated tag to a repository and to the named objects. -/
def describeTag (m : Maker) (w : Workbench) (r : Repo) (name designator : String) :
    Option (Repo × Workbench) := do
  let (id, r) ← w.resolve? r designator
  let kind := ((r.objects.get? id).map (·.kind)).getD .commit
  let o := Object.tag ⟨id, kind, name, m.who, name⟩
  return (placeRef m (r.addObject o) (RefName.tagPlace ++ name) (.direct o.id),
    { w with names := w.names ++ [("tag:" ++ name, o.id)], made := w.made ++ [(o.id, o)] })

/-- The commits that a repository starts with. -/
def startObjects (w : Workbench) (wanted : Option (List String)) : List Object :=
  w.names.filterMap fun (name, id) =>
    match w.made.get? id with
    | some (.commit c) =>
      if wanted.elim true (·.contains name) then some (.commit c) else none
    | _ => none

/-- Points `HEAD` at a branch or at an object. -/
def describeHead (w : Workbench) (r : Repo) (head : String) : Option Repo :=
  if "refs/".isPrefixOf head then
    some { r with refs := r.refs.put RefName.head (some (.symbolic head)) }
  else
    (w.resolve? r head).map fun (id, r) =>
      { r with refs := r.refs.put RefName.head (some (.direct id)) }

/-- Makes one repository. -/
def describeRepo (m : Maker) (w : Workbench) (dir : String) (d : RepoDescription) : Option Workbench := do
  let bare := Repo.init dir d.bare m.who "refs/heads/main"
  let r := (w.startObjects d.has).foldl Repo.addObject bare
  let (r, w) ← d.tags.foldlM (fun (r, w) t => describeTag m w r t.1 t.2) (r, w)
  let r ← d.refs.foldlM (fun r (name, s) => do
    let (v, r) ← w.value? r s
    return placeRef m r name v) r
  let r ← d.head.elim (some r) (w.describeHead r)
  let tree := if d.bare then [] else r.headTree.toOption.getD []
  let r := { r with
    files := tree
    index := ⟨tree, []⟩
    settings := Table.ofList d.settings
    remotes := Table.ofList (d.remotes.map fun (name, url) =>
      (name, ⟨url, ["+refs/heads/*:refs/remotes/" ++ name ++ "/*"]⟩)) }
  return w.setRepo dir (← r.writeFiles d.files)

/-- Makes everything. -/
def describe (m : Maker) (commits : List CommitDescription) (repos : List (String × RepoDescription)) :
    Option Workbench := do
  let w ← commits.foldlM (describeCommit m) empty
  repos.foldlM (fun w r => describeRepo m w r.1 r.2) w

end Workbench

end Gitwork
