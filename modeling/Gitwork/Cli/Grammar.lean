/-! # Command lines

    A grammar of options and positional arguments, and the parser for it.
    Options may stand anywhere before `--`; an option waits for the next
    argument unless its value is attached; a short option may be bundled.
    An argument is stored when the next one begins, so a bad value is only
    seen then, and an unknown argument after it is reported first.  What
    stands before the name of a command is stored after that command. -/

namespace Gitwork.Cli

/-- Why a command line ends without a command. -/
inductive UsageError
  | displayHelp
  | displayVersion
  | helpOnMissingArgument
  | missingRequiredArgument
  | missingSubcommand
  | invalidSubcommand
  | unknownArgument
  | argumentConflict
  | tooManyValues
  | invalidValue
  | valueValidation
deriving DecidableEq, Repr, Inhabited

namespace UsageError

def name : UsageError → String
  | displayHelp => "DisplayHelp"
  | displayVersion => "DisplayVersion"
  | helpOnMissingArgument => "DisplayHelpOnMissingArgumentOrSubcommand"
  | missingRequiredArgument => "MissingRequiredArgument"
  | missingSubcommand => "MissingSubcommand"
  | invalidSubcommand => "InvalidSubcommand"
  | unknownArgument => "UnknownArgument"
  | argumentConflict => "ArgumentConflict"
  | tooManyValues => "TooManyValues"
  | invalidValue => "InvalidValue"
  | valueValidation => "ValueValidation"

/-- Help and version were asked for; they are no failures. -/
def isRequest : UsageError → Bool
  | displayHelp | displayVersion => true
  | _ => false

def exitCode (e : UsageError) : Nat := if e.isRequest then 0 else 2

def toStderr (e : UsageError) : Bool := !e.isRequest

end UsageError

/-! ## Values -/

/-- What a value has to look like. -/
inductive ValueKind
  | text
  /-- Not empty. -/
  | path
  /-- A number below the limit; a plus sign is allowed, and `-0` where signed
      numbers are read. -/
  | number (limit : Nat) (signed : Bool)
deriving DecidableEq, Repr, Inhabited

/-- Decimal digits, at least one. -/
def readDigits? (s : List Char) : Option Nat :=
  if s = [] then none
  else s.foldlM (fun n c => if c.isDigit then some (n * 10 + (c.toNat - '0'.toNat)) else none) 0

/-- A number with an optional sign. -/
def readNumber? (limit : Nat) (signed : Bool) (s : String) : Option Nat := do
  let n ← match s.toList with
    | '+' :: ds => readDigits? ds
    | '-' :: ds =>
      match signed, readDigits? ds with
      | true, some 0 => some 0
      | _, _ => none
    | ds => readDigits? ds
  if n < limit then some n else none

def ValueKind.check (k : ValueKind) (s : String) : Except UsageError Unit :=
  match k with
  | text => .ok ()
  | path => if s = "" then .error .invalidValue else .ok ()
  | number limit signed =>
    if (readNumber? limit signed s).isSome then .ok () else .error .valueValidation

/-! ## Grammars -/

/-- What an option does. -/
inductive OptionKind
  | flag
  | value (kind : ValueKind)
  | help
  | version
deriving DecidableEq, Repr, Inhabited

structure OptionSpec where
  long : String
  short : Option Char
  kind : OptionKind
deriving DecidableEq, Repr, Inhabited

structure PositionalSpec where
  name : String
  kind : ValueKind
  required : Bool
  /-- Takes all arguments from here on. -/
  many : Bool
deriving DecidableEq, Repr, Inhabited

/-- A command: its options, its positional arguments in order, and pairs of
    options that exclude each other. -/
structure CommandSpec where
  name : String
  options : List OptionSpec
  positionals : List PositionalSpec
  conflicts : List (String × String)
deriving Repr, Inhabited

/-! ## Matches -/

/-- The arguments that were given, by name, each with its values. -/
abbrev Matches := List (String × List String)

namespace Matches

def has (m : Matches) (name : String) : Bool := m.any (·.1 == name)

def values (m : Matches) (name : String) : List String := (m.lookup name).getD []

def value? (m : Matches) (name : String) : Option String := (m.values name).head?

/-- Adds values to those that are there. -/
def append (m : Matches) (name : String) (vs : List String) : Matches :=
  (name, m.values name ++ vs) :: m.filter (·.1 != name)

end Matches

/-- What is being read and not stored yet. -/
inductive Pending
  /-- An option, with its value once that was read. -/
  | option (spec : OptionSpec) (kind : ValueKind) (value : Option String)
  | positional (spec : PositionalSpec) (values : List String)
deriving Repr, Inhabited

/-- The parser between two arguments. -/
structure ParseState where
  found : Matches
  pending : Option Pending
  /-- How many positional arguments are complete. -/
  position : Nat
  /-- `--` has been seen. -/
  trailing : Bool
deriving Repr, Inhabited

namespace ParseState

def start : ParseState := ⟨[], none, 0, false⟩

/-- An option that waits for its value. -/
def waiting? (st : ParseState) : Option (OptionSpec × ValueKind) :=
  match st.pending with
  | some (.option spec kind none) => some (spec, kind)
  | _ => none

/-- Stores a value of an option, which must not have one. -/
def storeOption (st : ParseState) (spec : OptionSpec) (kind : ValueKind) (v : String) :
    Except UsageError ParseState := do
  if st.found.has spec.long then throw .argumentConflict
  kind.check v
  return { st with found := st.found.append spec.long [v] }

/-- Stores what is pending. -/
def settle (st : ParseState) : Except UsageError ParseState :=
  match st.pending with
  | none => .ok st
  | some (.option spec kind value) =>
    match value with
    | none => .error .invalidValue
    | some v => { st with pending := none }.storeOption spec kind v
  | some (.positional spec vs) => do
    vs.forM spec.kind.check
    return { st with pending := none, found := st.found.append spec.name vs }

/-- An option occurs, perhaps with an attached value. -/
def occur (st : ParseState) (spec : OptionSpec) (attached : Option String) :
    Except UsageError ParseState :=
  match spec.kind, attached with
  | .value kind, some v => do (← st.settle).storeOption spec kind v
  | .value kind, none => do return { ← st.settle with pending := some (.option spec kind none) }
  | _, some _ => .error .tooManyValues
  | .flag, none => do
    let st ← st.settle
    if st.found.has spec.long then throw .argumentConflict
    return { st with found := st.found.append spec.long [] }
  | .help, none => do
    let _ ← st.settle
    throw .displayHelp
  | .version, none => do
    let _ ← st.settle
    throw .displayVersion

/-- Short options in one argument, from the character after the dash. -/
def shorts (options : List OptionSpec) : ParseState → List Char → Except UsageError ParseState
  | st, [] => .ok st
  | st, c :: rest =>
    match options.find? (·.short == some c) with
    | none => .error .unknownArgument
    | some spec =>
      match spec.kind with
      | .value _ =>
        match rest with
        | [] => st.occur spec none
        | '=' :: v => st.occur spec (some (String.ofList v))
        | v => st.occur spec (some (String.ofList v))
      | _ => do shorts options (← st.occur spec none) rest

/-- A long option, without its dashes. -/
def long (options : List OptionSpec) (st : ParseState) (arg : String) :
    Except UsageError ParseState :=
  let name := (arg.takeWhile (· != '=')).toString
  let attached := if arg.contains '=' then some ((arg.drop (name.length + 1)).toString) else none
  match options.find? (·.long == name) with
  | none => .error .unknownArgument
  | some spec => st.occur spec attached

/-- The next positional argument. -/
def positional (spec : CommandSpec) (st : ParseState) (arg : String) :
    Except UsageError ParseState :=
  match spec.positionals[st.position]? with
  | none => .error .unknownArgument
  | some p => do
    match p.many, st.pending with
    | true, some (.positional q vs) =>
      if q.name = p.name then
        return { st with pending := some (.positional p (vs ++ [arg])) }
    | _, _ => pure ()
    let st ← st.settle
    return { st with
      pending := some (.positional p [arg])
      position := if p.many then st.position else st.position + 1 }

end ParseState

/-- How one argument looks. -/
inductive ArgShape
  | escape
  | long (text : String)
  | short (flags : List Char)
  | plain
deriving DecidableEq, Repr

/-- A single dash and the empty text are plain. -/
def ArgShape.of (arg : String) : ArgShape :=
  match arg.toList with
  | ['-', '-'] => escape
  | '-' :: '-' :: rest => long (String.ofList rest)
  | '-' :: c :: rest => short (c :: rest)
  | _ => plain

/-- Reads one argument that is not the name of a command.  A value that an
    option waits for may not look like an option. -/
def ParseState.argument (spec : CommandSpec) (st : ParseState) (arg : String) :
    Except UsageError ParseState :=
  if st.trailing then st.positional spec arg
  else
    match ArgShape.of arg with
    | .escape => .ok { st with trailing := true }
    | .long text => ParseState.long spec.options st text
    | .short flags => ParseState.shorts spec.options st flags
    | .plain =>
      match st.waiting? with
      | some (o, kind) => .ok { st with pending := some (.option o kind (some arg)) }
      | none => st.positional spec arg

/-- The end of the arguments: conflicts are reported before what is missing. -/
def ParseState.finish (spec : CommandSpec) (st : ParseState) : Except UsageError Matches := do
  let st ← st.settle
  if spec.conflicts.any fun c => st.found.has c.1 && st.found.has c.2 then
    throw .argumentConflict
  if spec.positionals.any (fun p => p.required && !st.found.has p.name) then
    throw .missingRequiredArgument
  return st.found

/-- Reads all arguments of one command. -/
def CommandSpec.parse (spec : CommandSpec) (args : List String) : Except UsageError Matches := do
  ParseState.finish spec (← args.foldlM (ParseState.argument spec) .start)

/-! ## Programs with commands -/

/-- A program: its own options, and its commands. -/
structure ProgramSpec where
  options : List OptionSpec
  commands : List CommandSpec
deriving Repr, Inhabited

namespace ProgramSpec

/-- `help` explains the command that its arguments name. -/
def help (p : ProgramSpec) : List String → UsageError
  | [] => .displayHelp
  | [name] =>
    if name = "help" ∨ p.commands.any (·.name == name) then .displayHelp else .invalidSubcommand
  | _ => .invalidSubcommand

/-- The program itself as a command without positional arguments. -/
def own (p : ProgramSpec) : CommandSpec := ⟨"", p.options, [], []⟩

/-- Reads the program's options up to the name of a command, and then that
    command.  Gives the matches of both. -/
def parseFrom (p : ProgramSpec) (st : ParseState) :
    List String → Except UsageError (Matches × String × Matches)
  | [] => do
    let st ← st.settle
    if st.found = [] then throw .helpOnMissingArgument
    throw .missingSubcommand
  | arg :: rest => do
    if st.trailing then
      throw (if arg = "help" ∨ p.commands.any (·.name == arg) then .unknownArgument
        else .invalidSubcommand)
    if st.waiting?.isNone then
      if arg = "help" then throw (p.help rest)
      if let some c := p.commands.find? (·.name == arg) then
        let inner ← c.parse rest
        return ((← st.settle).found, c.name, inner)
      if ArgShape.of arg = .plain then throw .invalidSubcommand
    parseFrom p (← ParseState.argument p.own st arg) rest

def parse (p : ProgramSpec) (args : List String) :
    Except UsageError (Matches × String × Matches) := p.parseFrom .start args

end ProgramSpec

end Gitwork.Cli
