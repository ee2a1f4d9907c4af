import Gitwork.Error
import Gitwork.Text.Quoted

/-! # Credentials

    What a server may ask for and what a host may answer.  `Credential.text`
    is the text for logs: it never shows a password or a passphrase. -/

namespace Gitwork

/-- The kinds of credentials that a server accepts. -/
structure AllowedCredentials where
  userPass : Bool
  sshKey : Bool
  sshCustom : Bool
  sshInteractive : Bool
  username : Bool
  default : Bool
deriving DecidableEq, Repr, Inhabited

namespace AllowedCredentials

/-- The kinds set in a word: 1, 2, 4, 8 for the default mechanism, 16 for the
    interactive one, 32 for a bare user name.  Other bits do not count. -/
def ofBits (bits : Nat) : AllowedCredentials where
  userPass := bits.testBit 0
  sshKey := bits.testBit 1
  sshCustom := bits.testBit 2
  sshInteractive := bits.testBit 4
  username := bits.testBit 5
  default := bits.testBit 3

/-- The names of the kinds that are set. -/
def names (a : AllowedCredentials) : List String :=
  let rows := [("user_pass", a.userPass), ("ssh_key", a.sshKey), ("ssh_custom", a.sshCustom),
    ("ssh_interactive", a.sshInteractive), ("username", a.username), ("default", a.default)]
  (rows.filter (·.2)).map (·.1)

end AllowedCredentials

/-- What a host answers a server. -/
inductive Credential
  | userPass (username password : String)
  | sshKey (username : String) (publicKey : Option String) (privateKey : String)
      (passphrase : Option String)
  | sshAgent (username : String)
  | username (name : String)
  | default
deriving DecidableEq, Repr, Inhabited

namespace Credential

/-- The text for logs, without secrets. -/
def text : Credential → String
  | userPass u _ => "UserPass \x7b username: " ++ Text.quote u ++ ", .. \x7d"
  | sshKey u _ key _ =>
    "SshKey \x7b username: " ++ Text.quote u ++ ", private_key: " ++ Text.quote key ++ ", .. \x7d"
  | sshAgent u => "SshAgent \x7b username: " ++ Text.quote u ++ " \x7d"
  | username u => "Username(" ++ Text.quote u ++ ")"
  | default => "Default"

/-- Texts that go over to the engine end at a NUL character, so they may hold
    none. -/
def passable (s : String) : Bool := !s.toList.contains (Char.ofNat 0)

/-- The credential as the engine takes it: its kind as a bit. -/
def toNative : Credential → Except NativeError Nat
  | userPass u p =>
    if passable u && passable p then .ok 1 else .error ⟨-1, "data contained a nul byte"⟩
  | sshKey u pub key pass =>
    if passable u && (pub.all passable) && passable key && (pass.all passable) then .ok 2
    else .error ⟨-1, "data contained a nul byte"⟩
  | sshAgent u => if passable u then .ok 2 else .error ⟨-1, "data contained a nul byte"⟩
  | username u => if passable u then .ok 32 else .error ⟨-1, "data contained a nul byte"⟩
  | default => .ok 8

end Credential

end Gitwork
