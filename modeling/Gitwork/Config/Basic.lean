import Gitwork.Config.File
import Gitwork.Error
import Gitwork.Path
import Gitwork.Text.Utf8

/-! # Configuration

    Two files are read, one of the user and one of the repository.  Both are
    read and parsed before either is checked, the user's first.  Key by key
    the repository's value wins over the user's, and that one over the
    default. -/

namespace Gitwork

/-- Why a configuration cannot be loaded. -/
inductive ConfigError
  | read (kind : IoKind)
  | parse
  | invalidValue (detail : String)
deriving DecidableEq, Repr, Inhabited

/-- The text of the errors whose text is the program's own. -/
def ConfigError.message : ConfigError → String
  | read _ => "failed to read config file"
  | parse => "failed to parse config file"
  | invalidValue detail => "invalid config value: " ++ detail

/-- How to connect. -/
inductive Proxy
  | none
  | auto
  | url (address : String)
deriving DecidableEq, Repr, Inhabited

/-- The largest chunk of a stream. -/
def maxChunkSize : Nat := 16 * 1024 * 1024

namespace FileConfig

def checkStream (s : StreamSection) : Except ConfigError Unit :=
  match s.chunkSize with
  | some 0 => .error (.invalidValue "stream.chunk_size must be at least 1")
  | some n =>
    if maxChunkSize < n then
      .error (.invalidValue ("stream.chunk_size must be at most " ++ toString maxChunkSize
        ++ " bytes"))
    else .ok ()
  | none => .ok ()

/-- A proxy is one of two words or holds a scheme. -/
def isProxy (p : String) : Bool := p == "none" || p == "auto" || p.contains "://"

def checkRemote (r : RemoteSection) : Except ConfigError Unit :=
  match r.proxy with
  | some p =>
    if isProxy p then .ok ()
    else .error (.invalidValue ("remote.proxy must be \"none\", \"auto\" or a URL, got '" ++ p
      ++ "'"))
  | none => .ok ()

/-- Checks the values of a file; the stream section comes first. -/
def check (f : FileConfig) : Except ConfigError Unit := do
  if let some s := f.stream then checkStream s
  if let some r := f.remote then checkRemote r

end FileConfig

/-- What stands at the path of a configuration file. -/
inductive ConfigSource
  | missing
  | directory
  | file (content : List UInt8)
deriving DecidableEq, Repr, Inhabited

namespace ConfigSource

def isPresent (s : ConfigSource) : Bool := s != missing

/-- Reads and parses what is there. -/
def load : ConfigSource → Except ConfigError (Option FileConfig)
  | missing => .ok none
  | directory => .error (.read .isADirectory)
  | file content =>
    match Text.decodeUtf8? content with
    | none => .error (.read .invalidData)
    | some text =>
      match FileConfig.parse? text with
      | some f => .ok (some f)
      | none => .error .parse

end ConfigSource

/-- A loaded configuration; a file that is not there is none. -/
structure Config where
  globalFile : Option FileConfig
  repoFile : Option FileConfig
deriving DecidableEq, Repr, Inhabited

namespace Config

/-- Loads the user's and the repository's file. -/
def load (global repo : ConfigSource) : Except ConfigError Config := do
  let globalFile ← global.load
  let repoFile ← repo.load
  (globalFile.getD .empty).check
  if let some f := repoFile then f.check
  return ⟨globalFile, repoFile⟩

/-- The user's values; none are set without a file. -/
def global (c : Config) : FileConfig := c.globalFile.getD .empty

/-- The value of a key: the repository's, else the user's. -/
def pick {α : Type} (c : Config) (get : FileConfig → Option α) : Option α :=
  (c.repoFile.bind get).orElse fun _ => get c.global

def defaultChunkSize : Nat := 64 * 1024

def defaultReflogMessage : String := "gitbridge: update refs"

def chunkSize (c : Config) : Nat :=
  (c.pick fun f => f.stream.bind (·.chunkSize)).getD defaultChunkSize

def proxy (c : Config) : Proxy :=
  match c.pick fun f => f.remote.bind (·.proxy) with
  | none => .none
  | some "none" => .none
  | some "auto" => .auto
  | some url => .url url

def prune (c : Config) : Bool := (c.pick fun f => f.remote.bind (·.prune)).getD false

/-- The depth of a fetch; zero asks for all of the history. -/
def depth (c : Config) : Option Nat :=
  (c.pick fun f => f.remote.bind (·.depth)).filter (0 < ·)

def reflogMessage (c : Config) : String :=
  (c.pick fun f => f.transaction.bind (·.reflogMessage)).getD defaultReflogMessage

/-! ## Where files are -/

/-- Where the user's file may be, the first one that is there being used: at
    the path of the variable, in the configuration home, in the home. -/
def globalCandidates (named configHome home : Option String) : List String :=
  (named.toList ++ (configHome.map (Path.join · "gitbridge/config.toml")).toList)
    ++ (home.map (Path.join · ".gitbridge/config.toml")).toList

/-- The first candidate with something at it. -/
def findGlobal? (at? : String → ConfigSource) (candidates : List String) : Option String :=
  candidates.find? fun p => (at? p).isPresent

end Config

/-! ## Settings of operations -/

structure FetchSettings where
  proxy : Proxy
  prune : Bool
  depth : Option Nat
deriving DecidableEq, Repr, Inhabited

def FetchSettings.ofConfig (c : Config) : FetchSettings := ⟨c.proxy, c.prune, c.depth⟩

structure PushSettings where
  proxy : Proxy
  /-- The number of threads that pack objects; the engine's choice if none. -/
  parallelism : Option Nat
deriving DecidableEq, Repr, Inhabited

def PushSettings.ofConfig (c : Config) : PushSettings := ⟨c.proxy, none⟩

end Gitwork
