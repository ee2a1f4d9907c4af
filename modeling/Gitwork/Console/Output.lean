import Gitwork.Handler.Call
import Gitwork.Text.ByteSize
import Gitwork.Text.Utf8

/-! # Output

    Results go to standard output and are silent when quiet; warnings,
    errors and progress go to standard error.  Progress redraws its own line. -/

namespace Gitwork

/-- How much a command says. -/
inductive Verbosity
  | quiet
  | normal
  | debug
deriving DecidableEq, Repr, Inhabited

namespace Verbosity

/-- Quiet wins over debug. -/
def ofFlags (isQuiet isDebug : Bool) : Verbosity :=
  if isQuiet then quiet else if isDebug then debug else normal

def name : Verbosity → String
  | quiet => "Quiet"
  | normal => "Normal"
  | debug => "Debug"

/-- Progress is drawn on a terminal only. -/
def showsProgress (v : Verbosity) (terminal : Bool) : Bool := v != quiet && terminal

end Verbosity

/-- What a command has written so far. -/
structure Console where
  stdout : Bytes
  stderr : Bytes
deriving DecidableEq, Repr, Inhabited

namespace Console

def empty : Console := ⟨[], []⟩

def write (c : Console) (text : String) : Console :=
  { c with stdout := c.stdout ++ Text.encodeUtf8 text }

def writeError (c : Console) (text : String) : Console :=
  { c with stderr := c.stderr ++ Text.encodeUtf8 text }

def print (c : Console) (v : Verbosity) (text : String) : Console :=
  if v = .quiet then c else c.write (text ++ "\n")

def warn (c : Console) (v : Verbosity) (text : String) : Console :=
  if v = .quiet then c else c.writeError ("warning: " ++ text ++ "\n")

def error (c : Console) (text : String) : Console := c.writeError ("error: " ++ text ++ "\n")

/-- Draws a line over the one before and clears what is left of it. -/
def progressLine (c : Console) (text : String) : Console :=
  c.writeError ("\r" ++ text ++ "\x1b[K")

def progressDone (c : Console) : Console := c.writeError "\n"

end Console

/-- One line for a download; once all objects are there, deltas remain. -/
def TransferProgress.text (p : TransferProgress) : String :=
  if 0 < p.totalObjects ∧ p.receivedObjects = p.totalObjects then
    "Resolving deltas " ++ toString p.indexedDeltas ++ "/" ++ toString p.totalDeltas
  else
    "Receiving objects " ++ toString p.receivedObjects ++ "/" ++ toString p.totalObjects
      ++ " (" ++ Text.byteSize p.receivedBytes ++ ")"

/-- One line for an upload. -/
def PushTransferProgress.text (p : PushTransferProgress) : String :=
  "Writing objects " ++ toString p.current ++ "/" ++ toString p.total
    ++ " (" ++ Text.byteSize p.bytes ++ ")"

end Gitwork
