import Gitwork.Cli.Args
import Gitwork.Cli.RefEdit
import Gitwork.Console.Report
import Gitwork.Filter.Blob
import Gitwork.Remote.Clone
import Gitwork.Remote.Push
import Gitwork.Stash
import Gitwork.Workbench.Basic

/-! # Commands at work

    A command finds its repository, loads the configuration, builds handlers
    and settings, runs one operation and says what came of it.  Errors carry
    the contexts that they pass on their way out.

    `Surroundings` is all that a command knows of the process it runs in. -/

namespace Gitwork.Cli

structure Surroundings where
  /-- The directory of the process. -/
  dir : String
  /-- Whether standard error is a terminal. -/
  terminal : Bool
  /-- The user's configuration file. -/
  global : ConfigSource
  /-- The user name and the password in the environment. -/
  username : Option String
  password : Option String
deriving DecidableEq, Repr, Inhabited

/-- What a failure goes back to, apart from texts. -/
inductive Cause
  | error (e : Error)
  | config (e : ConfigError)
deriving DecidableEq, Repr, Inhabited

namespace Cause

def message : Cause → String
  | error e => e.message
  | config e => e.message

end Cause

/-- Why a command failed: contexts, the outermost first, and what caused it. -/
structure Failure where
  contexts : List String
  cause : Option Cause
deriving DecidableEq, Repr, Inhabited

namespace Failure

def ofError (e : Error) : Failure := ⟨[], some (.error e)⟩

/-- Adds a context. -/
def within (text : String) (f : Failure) : Failure := { f with contexts := text :: f.contexts }

/-- All texts on one line. -/
def message (f : Failure) : String :=
  String.intercalate ": " (f.contexts ++ (f.cause.map Cause.message).toList)

end Failure

/-- What a command works on. -/
structure Desk where
  bench : Workbench
  console : Console

/-- A command on its way; what it did before it failed stays. -/
abbrev Action (α : Type) := ExceptT Failure (StateM Desk) α

namespace Action

variable {α : Type}

def ofExcept (r : Except Failure α) : Action α :=
  match r with
  | .ok a => pure a
  | .error f => throw f

/-- Adds a context to the failure of a computation. -/
def within {ε : Type} (text : String) (toFailure : ε → Failure) (r : Except ε α) : Action α :=
  ofExcept (r.mapError fun e => (toFailure e).within text)

def write (f : Console → Console) : Action Unit := modify fun s => { s with console := f s.console }

end Action

/-- An invocation in its surroundings. -/
structure Context where
  around : Surroundings
  invocation : Invocation

namespace Context

def verbosity (x : Context) : Verbosity := .ofFlags x.invocation.quiet x.invocation.debug

def showsProgress (x : Context) : Bool := x.verbosity.showsProgress x.around.terminal

/-- The directory that the command works in, as it was given. -/
def cwd (x : Context) : String := x.invocation.cwd.getD x.around.dir

/-- A path from the directory of the process. -/
def place (x : Context) (path : String) : String := Path.join x.around.dir path

def say (x : Context) (text : String) : Action Unit := Action.write (·.print x.verbosity text)

def remoteHandlers (x : Context) : HandlerSet :=
  Handlers.remote x.around.username x.around.password x.showsProgress

/-- Opens the repository that the directory is in. -/
def openRepo (x : Context) : Action (String × Repo) := do
  let disk := (← get).bench.disk
  let found := do
    let dir ← disk.discover (x.place x.cwd)
    match disk.repo? dir with
    | some r => return (dir, r)
    | none => throw NativeError.notFound
  Action.within ("Not a git repository: " ++ x.cwd) (Failure.ofError ∘ Error.ofNative) found

/-- Loads the configuration of the user and of a repository. -/
def config (x : Context) (repo : ConfigSource) : Action Config :=
  Action.within "Failed to load configuration" (fun e => ⟨[], some (.config e)⟩)
    (Config.load x.around.global repo)

/-- Shows what an operation told and how it ended. -/
def conclude {σ α : Type} (x : Context) (done : Operated σ α) (drawn : Bool)
    (failing : String) : Action Unit := do
  Action.write fun c => done.calls.foldl (Console.tell x.verbosity) c
  if drawn && x.showsProgress then Action.write Console.progressDone
  let _ ← Action.within failing Failure.ofError done.result

/-! ## The commands -/

def putDisk (disk : Disk) : Action Unit :=
  modify fun s => { s with bench := { s.bench with disk } }

def putRepo (dir : String) (r : Repo) : Action Unit :=
  modify fun s => { s with bench := s.bench.setRepo dir r }

def clone (x : Context) (url path : String) (bare : Bool) (branch : Option String)
    (depth : Option Nat) : Action Unit := do
  let config ← x.config .missing
  let fetch := FetchSettings.ofConfig config
  let settings : CloneSettings := ⟨{ fetch with depth := depth.orElse fun _ => fetch.depth }, bare, branch⟩
  let dest := Path.join x.cwd path
  let done := (← get).bench.disk.clone 1 x.around.dir url dest x.remoteHandlers settings
  putDisk done.state
  x.conclude done true ("Failed to clone '" ++ url ++ "'")
  x.say ("Cloned into " ++ dest)

def fetch (x : Context) (remote : Option String) (refspecs : List String) (prune : Bool) :
    Action Unit := do
  let (dir, r) ← x.openRepo
  let settings := FetchSettings.ofConfig (← x.config r.config)
  let settings := { settings with prune := settings.prune || prune }
  let remote := remote.getD Clone.origin
  let done := (← get).bench.disk.fetch 1 x.around.dir dir remote refspecs x.remoteHandlers settings
  putDisk done.state
  x.conclude done true ("Failed to fetch from '" ++ remote ++ "'")

def push (x : Context) (remote : String) (refspecs : List String) : Action Unit := do
  let (dir, r) ← x.openRepo
  let _ ← x.config r.config
  let done := (← get).bench.disk.push 1 x.around.dir dir remote refspecs x.remoteHandlers
  putDisk done.state
  x.conclude done true ("Failed to push to '" ++ remote ++ "'")
  x.say ("Pushed to " ++ remote)

def checkout (x : Context) (rev : String) (force dryRun : Bool) : Action Unit := do
  let (dir, r) ← x.openRepo
  let strategy : CheckoutStrategy := if dryRun then .dryRun else if force then .force else .safe
  let handlers := Handlers.checkout .checkout dryRun x.showsProgress
  let done := r.checkout 1 rev handlers ⟨strategy, false, []⟩
  putRepo dir done.state
  x.conclude done true ("Failed to check out '" ++ rev ++ "'")
  if !dryRun then x.say ("Checked out " ++ rev)

def stashApply (x : Context) (index : Nat) (reinstate : Bool) : Action Unit := do
  let (dir, r) ← x.openRepo
  let name := "stash@\x7b" ++ toString index ++ "\x7d"
  let done := r.stashApply 1 index (Handlers.stash x.showsProgress) ⟨reinstate, ⟨.safe, false, []⟩⟩
  putRepo dir done.state
  x.conclude done false ("Failed to apply " ++ name)
  x.say ("Applied " ++ name)

def catFiltered (x : Context) (rev path : String) (toOdb noBinaryCheck : Bool) : Action Unit := do
  let (_, r) ← x.openRepo
  let config ← x.config r.config
  let id ← Action.within ("No file '" ++ path ++ "' in '" ++ rev ++ "'")
    (Failure.ofError ∘ Error.ofNative) (r.blobAt rev path)
  let direction : Direction := if toOdb then .toOdb else .toWorktree
  let (pieces, failed, _) := (r.blobStream id ⟨path, direction, !noBinaryCheck, config.chunkSize⟩).drain
  Action.write fun c => { c with stdout := c.stdout ++ pieces.flatten }
  match failed with
  | some e => throw ((Failure.ofError e).within "Failed to stream filtered content")
  | none => pure ()

/-! ### Updates of references -/

/-- Queues updates, up to the first that fails. -/
def queueEdits (r : Repo) (message : Option String) : List RefEdit → TxnBody Failure Unit
  | [] => .done ()
  | e :: rest =>
    let queue (c : TxnCall) : TxnBody Failure Unit := .call 1 c fun
      | .ok () => queueEdits r message rest
      | .error e => .fail (.ofError e)
    match e.action with
    | .remove => queue (.remove e.refname)
    | .symbolic name => queue (.symbolic e.refname name none message)
    | .point revision => .look fun refs =>
      match Repo.revision { r with refs } revision with
      | .ok d => queue (.set e.refname d.id none message)
      | .error e =>
        .fail ((Failure.ofError (.ofNative e)).within ("Unknown revision '" ++ revision ++ "'"))

/-- Locks all names in front of what follows. -/
def lockEdits (next : TxnBody Failure Unit) : List RefEdit → TxnBody Failure Unit
  | [] => next
  | e :: rest => .call 1 (.lock e.refname) fun
    | .ok () => lockEdits next rest
    | .error cause => .fail ((Failure.ofError cause).within ("Failed to lock '" ++ e.refname ++ "'"))

/-- Locks the names of all updates, queues all of them, and commits. -/
def applyEdits (r : Repo) (message : Option String) (edits : List RefEdit) :
    TxnBody Failure Unit :=
  lockEdits (queueEdits r message edits) edits

def updateRefs (x : Context) (updates : List String) (message : Option String) : Action Unit := do
  let (dir, r) ← x.openRepo
  let config ← x.config r.config
  let edits ← Action.ofExcept ((updates.mapM RefEdit.parse).mapError fun e => ⟨[e.message], none⟩)
  let (ended, bench) := (← get).bench.scope dir 1 (some config.reflogMessage) Failure.ofError
    (applyEdits r message edits)
  modify fun s => { s with bench }
  match ended with
  | .failed f => throw (f.within "Reference update failed; no references were changed")
  | _ => x.say ("Updated " ++ toString edits.length ++ " reference(s)")

/-- Runs the command of an invocation. -/
def run (x : Context) : Action Unit :=
  match x.invocation.command with
  | .clone url path bare branch depth => x.clone url path bare branch depth
  | .fetch remote refspecs prune => x.fetch remote refspecs prune
  | .push remote refspecs => x.push remote refspecs
  | .checkout rev force dryRun => x.checkout rev force dryRun
  | .stashApply index reinstate => x.stashApply index reinstate
  | .catFiltered rev path toOdb noBinaryCheck => x.catFiltered rev path toOdb noBinaryCheck
  | .updateRefs updates message => x.updateRefs updates message

end Context

/-! ## The program -/

/-- How a command line ends. -/
inductive Ending
  | usage (e : UsageError)
  | done
  | failed (f : Failure)
deriving DecidableEq, Repr, Inhabited

namespace Ending

def exitCode : Ending → Nat
  | usage e => e.exitCode
  | done => 0
  | failed _ => 1

/-- What the program says of itself. -/
def about : String := "gitbridge - git operations with host-side callbacks"

/-- What the program says at its end. -/
def finish (c : Console) : Ending → Console
  | done => c
  | failed f => c.error f.message
  | usage .displayVersion => c.write "gitbridge 0.1.0\n"
  | usage .displayHelp => c.write (about ++ "\n\nUsage: gitbridge [OPTIONS] <COMMAND>\n")
  | usage .helpOnMissingArgument =>
    c.writeError (about ++ "\n\nUsage: gitbridge [OPTIONS] <COMMAND>\n")
  | usage e => c.error e.name

end Ending

/-- Runs a command line.  The console has what the command itself says. -/
def runArgs (s : Surroundings) (args : List String) (bench : Workbench) : Ending × Desk :=
  match parseArgs args with
  | .error e => (.usage e, ⟨bench, .empty⟩)
  | .ok invocation =>
    match (Context.run ⟨s, invocation⟩).run ⟨bench, .empty⟩ with
    | (.ok (), desk) => (.done, desk)
    | (.error f, desk) => (.failed f, desk)

/-- The first word of a text. -/
def firstWord (text : Bytes) : Bytes :=
  (text.dropWhile RefStore.isBlank).takeWhile fun b => !RefStore.isBlank b

end Gitwork.Cli
