import Gitwork.Console.Output

/-! # Prompts

    A question on standard error, answered by one line of standard input.
    Without a terminal nothing is asked.  Line ends at the end of the answer
    do not belong to it; an empty answer takes the default, if there is one,
    and the end of input cancels. -/

namespace Gitwork

/-- Why a prompt has no answer. -/
inductive PromptError
  | cancelled
  | notInteractive
  | io (text : String)
deriving DecidableEq, Repr, Inhabited

namespace PromptError

def name : PromptError → String
  | cancelled => "Cancelled"
  | notInteractive => "NotInteractive"
  | io _ => "IoError"

def message : PromptError → String
  | cancelled => "prompt cancelled by user"
  | notInteractive => "not in interactive mode"
  | io text => "IO error: " ++ text

end PromptError

/-- The first line with its line end, and the rest. -/
def splitLine (input : Bytes) : Bytes × Bytes :=
  match input.span (· != 10) with
  | (line, nl :: rest) => (line ++ [nl], rest)
  | (line, []) => (line, [])

/-- A line without the line ends at its end. -/
def trimLineEnd (s : String) : String :=
  (s.dropEndWhile fun c => c == '\r' || c == '\n').toString

/-- What a line of input answers. -/
def answerOfLine (fallback : Option String) (line : Bytes) : Except PromptError String :=
  if line = [] then .error .cancelled
  else
    match Text.decodeUtf8? line with
    | none => .error (.io "stream did not contain valid UTF-8")
    | some s =>
      let answer := trimLineEnd s
      .ok (if answer = "" then fallback.getD answer else answer)

/-- Asks one question.  Returns the answer, the input that is left, and the
    console with the question on it. -/
def ask (question : String) (fallback : Option String) (interactive : Bool)
    (input : Bytes) (c : Console) : Except PromptError String × Bytes × Console :=
  if interactive then
    let hint := match fallback with
      | some d => " [" ++ d ++ "]"
      | none => ""
    let (line, rest) := splitLine input
    (answerOfLine fallback line, rest, c.writeError (question ++ hint ++ ": "))
  else (.error .notInteractive, input, c)

end Gitwork
