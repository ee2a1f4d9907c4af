import Gitwork.Cli.Grammar

/-! # The commands of the program

    The grammar of the command line and the commands it yields.  The general
    options may stand before or after the name of the command; the later place
    wins. -/

namespace Gitwork.Cli

/-- What to do. -/
inductive Command
  | clone (url path : String) (bare : Bool) (branch : Option String) (depth : Option Nat)
  | fetch (remote : Option String) (refspecs : List String) (prune : Bool)
  | push (remote : String) (refspecs : List String)
  | checkout (rev : String) (force dryRun : Bool)
  | stashApply (index : Nat) (reinstateIndex : Bool)
  | catFiltered (rev path : String) (toOdb noBinaryCheck : Bool)
  | updateRefs (updates : List String) (message : Option String)
deriving DecidableEq, Repr, Inhabited

/-- A whole command line. -/
structure Invocation where
  cwd : Option String
  debug : Bool
  quiet : Bool
  noInteractive : Bool
  command : Command
deriving DecidableEq, Repr, Inhabited

namespace Invocation

/-- Whether questions may be asked: only on a terminal, and neither quiet nor
    forbidden. -/
def interactive (i : Invocation) (terminal : Bool) : Bool :=
  !i.noInteractive && !i.quiet && terminal

end Invocation

/-! ## The grammar -/

def helpOption : OptionSpec := ⟨"help", some 'h', .help⟩

/-- The options that every command takes. -/
def generalOptions : List OptionSpec :=
  [⟨"cwd", none, .value .path⟩, ⟨"debug", none, .flag⟩, ⟨"quiet", some 'q', .flag⟩,
    ⟨"no-interactive", none, .flag⟩, helpOption]

def flagOption (long : String) : OptionSpec := ⟨long, none, .flag⟩

def required (name : String) (kind : ValueKind) : PositionalSpec := ⟨name, kind, true, false⟩

/-- A command with its own options before the general ones. -/
def commandSpec (name : String) (options : List OptionSpec) (positionals : List PositionalSpec)
    (conflicts : List (String × String)) : CommandSpec :=
  ⟨name, options ++ generalOptions, positionals, conflicts⟩

def commandSpecs : List CommandSpec :=
  [commandSpec "clone"
      [flagOption "bare", ⟨"branch", some 'b', .value .text⟩,
        ⟨"depth", none, .value (.number UInt32.size true)⟩]
      [required "url" .text, required "path" .path] [],
    commandSpec "fetch" [flagOption "prune"]
      [⟨"remote", .text, false, false⟩, ⟨"refspecs", .text, false, true⟩] [],
    commandSpec "push" [] [required "remote" .text, ⟨"refspecs", .text, true, true⟩] [],
    commandSpec "checkout" [⟨"force", some 'f', .flag⟩, flagOption "dry-run"]
      [required "rev" .text] [("dry-run", "force")],
    commandSpec "stash-apply" [flagOption "reinstate-index"]
      [⟨"index", .number UInt64.size false, false, false⟩] [],
    commandSpec "cat-filtered"
      [⟨"path", none, .value .path⟩, flagOption "to-odb", flagOption "no-binary-check"]
      [required "rev" .text] [],
    commandSpec "update-refs" [⟨"message", some 'm', .value .text⟩]
      [⟨"updates", .text, true, true⟩] []]

def programSpec : ProgramSpec :=
  ⟨generalOptions ++ [⟨"version", some 'V', .version⟩], commandSpecs⟩

/-! ## From matches to commands -/

/-- The command of a name and its matches. -/
def commandOf (name : String) (m : Matches) : Except UsageError Command :=
  match name with
  | "clone" =>
    match m.value? "url", m.value? "path" with
    | some url, some path =>
      .ok (.clone url path (m.has "bare") (m.value? "branch")
        ((m.value? "depth").bind (readNumber? UInt32.size true)))
    | _, _ => .error .missingRequiredArgument
  | "fetch" => .ok (.fetch (m.value? "remote") (m.values "refspecs") (m.has "prune"))
  | "push" =>
    match m.value? "remote" with
    | some remote => .ok (.push remote (m.values "refspecs"))
    | none => .error .missingRequiredArgument
  | "checkout" =>
    match m.value? "rev" with
    | some rev => .ok (.checkout rev (m.has "force") (m.has "dry-run"))
    | none => .error .missingRequiredArgument
  | "stash-apply" =>
    .ok (.stashApply (((m.value? "index").bind (readNumber? UInt64.size false)).getD 0)
      (m.has "reinstate-index"))
  | "cat-filtered" =>
    match m.value? "rev", m.value? "path" with
    | some rev, some path =>
      .ok (.catFiltered rev path (m.has "to-odb") (m.has "no-binary-check"))
    | _, _ => .error .missingRequiredArgument
  | "update-refs" => .ok (.updateRefs (m.values "updates") (m.value? "message"))
  | _ => .error .invalidSubcommand

/-- Reads a command line, without the program's name. -/
def parseArgs (args : List String) : Except UsageError Invocation := do
  let (outer, name, inner) ← programSpec.parse args
  let command ← commandOf name inner
  return {
    cwd := (inner.value? "cwd").orElse fun _ => outer.value? "cwd"
    debug := outer.has "debug" || inner.has "debug"
    quiet := outer.has "quiet" || inner.has "quiet"
    noInteractive := outer.has "no-interactive" || inner.has "no-interactive"
    command }

end Gitwork.Cli
