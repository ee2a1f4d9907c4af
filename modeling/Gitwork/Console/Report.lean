import Gitwork.Console.Credentials
import Gitwork.Console.Output
import Gitwork.Text.Blank

/-! # What commands show of their operations

    The handlers of the command line agree to everything but a reference that
    a peer rejects.  What the user sees is a function of the calls that reach
    them: `Console.tell` adds what one call shows, so a command shows the same
    whatever else its handlers do. -/

namespace Gitwork

namespace Handlers

/-- The handler that always agrees. -/
def agree (site : CallSite) (yes : site.Value) : Handler site := ⟨fun _ _ => .value yes⟩

/-- Answers requests from the user name and password of the environment. -/
def credentials (username password : Option String) : Handler .credentials where
  answer earlier call :=
    match call with
    | .credentials url fromUrl allowed =>
      (CredentialSource.reply ⟨username, password, .ofNat (earlier.length + 1)⟩ url fromUrl allowed)
    | _ => .decline

/-- Fails if a reference is rejected. -/
def acceptance : Handler .pushUpdateReference where
  answer _ call :=
    match call with
    | .pushUpdateReference refname (some reason) =>
      .fail (.host ("remote rejected " ++ refname ++ ": " ++ reason))
    | _ => .value ()

/-- The handlers of clone, fetch and push; those for progress are there only
    if progress is drawn. -/
def remote (username password : Option String) (progress : Bool) : HandlerSet :=
  let base := (((HandlerSet.empty .remote).install .credentials (credentials username password))
    |>.install .updateTips (agree _ ())) |>.install .pushUpdateReference acceptance
  if progress then
    ((base.install .sidebandProgress (agree _ ())).install .transferProgress (agree _ ()))
      |>.install .pushTransferProgress (agree _ ())
  else base

/-- The handlers of a checkout.  A preview tells of every path, a checkout of
    conflicts only. -/
def checkout (kind : SetKind) (preview progress : Bool) : HandlerSet :=
  let kinds : List NotifyKind :=
    if preview then [.conflict, .dirty, .updated, .untracked] else [.conflict]
  let base := { (HandlerSet.empty kind).install .checkoutNotify (agree _ ()) with notifyOn := kinds }
  if progress then base.install .checkoutProgress (agree _ ()) else base

/-- The handlers of the application of a stash. -/
def stash (progress : Bool) : HandlerSet :=
  (checkout .stash false progress).install .stashApplyProgress (agree _ ())

end Handlers

namespace Console

/-- The line for a reference that moved. -/
def tipLine (refname : String) (old new : Oid) : String :=
  if old.isZero then " * [new] " ++ refname ++ " -> " ++ new.short
  else if new.isZero then " - [deleted] " ++ refname
  else "   " ++ old.short ++ ".." ++ new.short ++ " " ++ refname

/-- The lines of what a server says, without empty ones. -/
def sidebandLines (data : Bytes) : List String :=
  let text := (Text.decodeUtf8? data).getD ""
  let lines := (text.map fun c => if c = '\r' then '\n' else c).splitOn "\n"
  (lines.map fun l => String.ofList (Text.trimEnd l.toList)).filter (· ≠ "")

/-- Adds what one call shows. -/
def tell (v : Verbosity) (c : Console) : Call → Console
  | .updateTips refname old new => c.print v (tipLine refname old new)
  | .sidebandProgress data =>
    (sidebandLines data).foldl (fun c line => c.progressLine ("remote: " ++ line)) c
  | .transferProgress p => c.progressLine p.text
  | .pushTransferProgress p => c.progressLine p.text
  | .checkoutNotify .conflict path => c.warn v ("conflict: " ++ path.getD "")
  | .checkoutNotify kind path => c.print v (kind.name ++ ": " ++ path.getD "")
  | .checkoutProgress _ completed total =>
    c.progressLine ("Checking out files " ++ toString completed ++ "/" ++ toString total)
  | _ => c

/-- What a terminal makes of line feeds on standard error. -/
def onTerminal (c : Console) : Console :=
  { c with stderr := c.stderr.flatMap fun b => if b = 10 then [13, 10] else [b] }

end Console

end Gitwork
