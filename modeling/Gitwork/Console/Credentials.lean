import Gitwork.Handler.Set

/-! # Where the command line takes credentials from

    One source for each operation.  It is asked at most three times with
    success: the SSH agent comes first and only at the first request, then a
    configured password, then the bare user name. -/

namespace Gitwork

/-- The user name and password of the environment, and the number of requests
    so far, as a 32-bit word. -/
structure CredentialSource where
  username : Option String
  password : Option String
  attempts : UInt32
deriving DecidableEq, Repr, Inhabited

namespace CredentialSource

def maxAttempts : UInt32 := 3

def new (username password : Option String) : CredentialSource := ⟨username, password, 0⟩

/-- The source after one more request. -/
def asked (s : CredentialSource) : CredentialSource := { s with attempts := s.attempts + 1 }

/-- What the source answers to the request that `s.attempts` already counts. -/
def reply (s : CredentialSource) (url : String) (fromUrl : Option String)
    (allowed : AllowedCredentials) : Outcome Credential :=
  if maxAttempts < s.attempts then
    .fail (.host ("authentication failed for '" ++ url ++ "' after "
      ++ toString maxAttempts.toNat ++ " attempts"))
  else
    let username := s.username.orElse fun _ => fromUrl
    let agent :=
      if allowed.sshKey && s.attempts == 1 then username.map Credential.sshAgent else none
    let secret :=
      if allowed.userPass then
        s.password.map fun p => Credential.userPass (username.getD "") p
      else none
    let bare := if allowed.username then username.map Credential.username else none
    match agent.orElse fun _ => secret.orElse fun _ => bare with
    | some c => .value c
    | none => .decline

/-- Answers one request. -/
def next (s : CredentialSource) (url : String) (fromUrl : Option String)
    (allowed : AllowedCredentials) : Outcome Credential × CredentialSource :=
  (s.asked.reply url fromUrl allowed, s.asked)

end CredentialSource

end Gitwork
