import Gitwork.Checkout.Basic
import Gitwork.Merge.Index

/-! # Stashes

    A stash keeps what is staged and what is in the working directory as
    commits on top of `HEAD`, newest first in the log of one reference, and
    sets both back to `HEAD`.  Applying a stash merges its changes into what
    is there now. -/

namespace Gitwork

/-- Something is staged that an operation would lose. -/
def NativeError.uncommitted : NativeError := ⟨-22, "uncommitted changes exist in the index"⟩

structure StashSettings where
  /-- Whether what was staged is staged again. -/
  reinstateIndex : Bool
  checkout : CheckoutSettings
deriving DecidableEq, Repr, Inhabited

namespace Stash

/-- The reference whose log lists the stashes. -/
def place : String := "refs/stash"

/-- The labels of the two sides of a conflict. -/
def ourLabel : String := "Updated upstream"

def theirLabel : String := "Stashed changes"

/-! ## Saving -/

/-- The branch or the lack of one, in front of the commit. -/
def branchText (name : String) : String :=
  if name = RefName.head then "(no branch)" else (name.drop RefName.branchPlace.length).toString

/-- The first line of a message. -/
def summary (message : String) : String := (message.splitOn "\n").headD ""

/-- The message of a stash. -/
def messageOf (branch : String) (id : Oid) (c : Commit) (message : Option String) : String :=
  match message with
  | some text =>
    if text ≠ "" then "On " ++ branch ++ ": " ++ text ++ "\n"
    else "WIP on " ++ branch ++ ": " ++ id.short ++ " " ++ summary c.message ++ "\n"
  | none => "WIP on " ++ branch ++ ": " ++ id.short ++ " " ++ summary c.message ++ "\n"

/-- The files that are neither staged nor in `HEAD`. -/
def untracked (r : Repo) (head : Files) : Files :=
  r.files.filter fun f => !r.index.has f.1 && !head.has f.1

/-- The staged paths as they are in the working directory. -/
def worktree (r : Repo) : Files :=
  r.index.entries.filterMap fun (p, _) => (r.files.get? p).map fun content => (p, content)

/-- Takes everything that was changed away and keeps it as a stash; there has
    to be something. -/
def save (r : Repo) (message : Option String) (withUntracked : Bool) : Except NativeError Repo := do
  if r.isBare then throw .bare
  let (name, target) ← r.refs.head
  let (id, c) ← r.objects.commitOf target
  let strays := untracked r c.tree
  let kept := worktree r
  let stray := withUntracked && !strays.isEmpty
  if c.tree = r.index.entries && r.index.entries = kept && !stray then throw .notFound
  let branch := branchText name
  let who := r.refs.identity
  let start := branch ++ ": " ++ id.short ++ " " ++ summary c.message ++ "\n"
  let staged : Commit := ⟨r.index.entries, [id], who, "index on " ++ start⟩
  let loose : Commit := ⟨strays, [], who, "untracked files on " ++ start⟩
  let extra := if withUntracked then [(Object.commit loose).id] else []
  let text := messageOf branch id c message
  let stash : Object := .commit ⟨kept, [id, (Object.commit staged).id] ++ extra, who, text⟩
  let r := (r.addObject (.commit staged)).addObject stash
  let r := if withUntracked then r.addObject (.commit loose) else r
  let refs := { r.refs with logs := r.refs.logs.insert place ((r.refs.logs.get? place).getD []) }
  let refs := refs.write place (.direct stash.id) who text
  let left := if withUntracked then [] else strays
  return { r with
    refs
    index := ⟨c.tree, []⟩
    files := left.foldl (fun fs f => fs.insert f.1 f.2) c.tree }

/-! ## Applying -/

/-- The trees of a stash. -/
structure Trees where
  base : Files
  staged : Files
  kept : Files
  untracked : Option Files
deriving DecidableEq, Repr, Inhabited

/-- The n-th stash, the newest being the first. -/
def trees (r : Repo) (n : Nat) : Except NativeError Trees := do
  let _ ← r.refs.find place
  match ((r.refs.logs.get? place).getD [])[n]? with
  | none => throw .notFound
  | some entry =>
    let (_, c) ← r.objects.commitOf entry.new
    match c.parents with
    | base :: staged :: more =>
      return {
        base := ← r.objects.treeOf base
        staged := ← r.objects.treeOf staged
        kept := c.tree
        untracked := ← more.head?.mapM r.objects.treeOf }
    | _ => throw (.generic "the commit is no stash")

/-- What is staged after a stash was applied: what was staged for the stash,
    or else the files that are new in it.  None if it stays as it is. -/
def unstashed (r : Repo) (s : StashSettings) (t : Trees) : Except NativeError (Option Index) :=
  let now := r.index.entries
  if s.reinstateIndex then
    if t.base = t.staged then .ok none
    else
      let merged := Merge.files t.base now t.staged
      if merged.conflicts.isEmpty then .ok (some merged) else .error .conflict
  else
    let added := t.kept.filter fun f => !t.base.has f.1
    let theirs := added.foldl (fun fs f => fs.insert f.1 f.2) t.base
    .ok (some (Merge.files t.base now theirs))

/-- The part of a checkout that is the same for all files of a stash. -/
def task (r : Repo) (s : CheckoutSettings) (target : Index) : CheckoutTask where
  baseline := r.index.entries
  target := target.entries
  conflicts := target.conflicts.map fun (p, c) => (p, c, Merge.shown ourLabel theirLabel c)
  force := s.strategy = .force
  recreate := s.strategy = .force
  sizesKnown := true
  removeUntracked := s.removeUntracked
  updateIndex := !target.conflicts.isEmpty
  paths := s.paths

/-- Checks a task out, unless nothing is to be written. -/
def checkOut (wanted : List NotifyKind) (s : CheckoutSettings) (t : CheckoutTask) :
    Engine Repo Unit :=
  if s.strategy = .dryRun then pure () else Checkout.run wanted t

def enter (stage : StashStage) : Engine Repo Unit := Engine.tell (.stashApplyProgress stage)

/-- Applies the n-th stash. -/
def apply (wanted : List NotifyKind) (s : StashSettings) (n : Nat) : Engine Repo Unit := do
  enter .loadingStash
  let r ← get
  let t ← Engine.ofExcept (trees r n)
  enter .analyzeIndex
  let head ← Engine.ofExcept r.headTree
  if head ≠ r.index.entries || !r.index.conflicts.isEmpty then throw .uncommitted
  let next ← Engine.ofExcept (unstashed r s t)
  enter .analyzeModified
  let modified := Merge.files t.base r.index.entries t.kept
  if let some loose := t.untracked then
    enter .analyzeUntracked
    let target := Merge.files [] r.index.entries loose
    enter .checkoutUntracked
    checkOut wanted s.checkout { task r s.checkout target with
      baseline := ← Engine.ofExcept (Checkout.baseline r)
      sizesKnown := false
      updateIndex := false }
  enter .checkoutModified
  checkOut wanted s.checkout (task r s.checkout modified)
  enter .done
  if let some index := next then
    if modified.conflicts.isEmpty then modify fun r => { r with index }

end Stash

/-- Applies a stash. -/
def Repo.stashApply (r : Repo) (caller : ThreadId) (n : Nat) (handlers : HandlerSet)
    (s : StashSettings) : Operated Repo Unit :=
  operate caller handlers (Stash.apply handlers.wanted s n) r

end Gitwork
