import Gitwork.Cli.Run

/-! # The program

    Reads what a command needs of the process it runs in, runs the command,
    and writes what it says.  Repositories live in a workbench; the program
    starts with one that has none, and a host that embeds the library runs
    command lines on its own with `Gitwork.Cli.runArgs`. -/

namespace Gitwork.Program

/-- What stands at a path. -/
def readConfig (path : String) : IO ConfigSource := do
  try
    return .file (← IO.FS.readBinFile path).toList
  catch
    | .noFileOrDirectory .. => return .missing
    | _ => return .directory

/-- The user's configuration file: the first candidate that is there. -/
def readGlobalConfig : List String → IO ConfigSource
  | [] => return .missing
  | path :: rest => do
    let found ← readConfig path
    if found.isPresent then return found else readGlobalConfig rest

/-- Runs a command line and gives its exit code. -/
def run (args : List String) : IO UInt32 := do
  let global ← readGlobalConfig (Config.globalCandidates (← IO.getEnv "GITBRIDGE_CONFIG")
    (← IO.getEnv "XDG_CONFIG_HOME") (← IO.getEnv "HOME"))
  let stdout ← IO.getStdout
  let stderr ← IO.getStderr
  let surroundings : Cli.Surroundings := {
    dir := (← IO.currentDir).toString
    terminal := ← stderr.isTty
    global
    username := ← IO.getEnv "GITBRIDGE_USERNAME"
    password := ← IO.getEnv "GITBRIDGE_PASSWORD" }
  let (ending, desk) := Cli.runArgs surroundings args .empty
  let console := ending.finish desk.console
  stdout.write ⟨console.stdout.toArray⟩
  stderr.write ⟨console.stderr.toArray⟩
  return .ofNat ending.exitCode

end Gitwork.Program

def main (args : List String) : IO UInt32 := Gitwork.Program.run args
