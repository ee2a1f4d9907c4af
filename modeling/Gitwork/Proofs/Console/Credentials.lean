import Gitwork.Console.Report

/-! # What a source of credentials gives away

    A source answers a run of requests and counts them, of whatever kind they
    are.  What it answers depends on the number of the request, on the request,
    and on what is configured, and on nothing else of the run.

    * the answer with a number is the reply of the source to that request alone
      (`CredentialSource.answers_getElem?`), and five cases say all that it can
      be (`CredentialSource.Answer`, `CredentialSource.reply_answer`);
    * so an answer is bounded by what is allowed, known and configured, the
      first three requests being answered or declined and all later ones
      failing (`CredentialSource.answers_granted`);
    * the count decides about the agent: it is asked at the first request of
      the run or not at all (`CredentialSource.agent_asked_first`), also if the
      first request was for a bare user name. -/

namespace Gitwork

/-- A request for a credential. -/
structure CredentialRequest where
  url : String
  fromUrl : Option String
  allowed : AllowedCredentials
deriving DecidableEq, Repr, Inhabited

namespace CredentialRequest

/-- The user name that counts: the configured one, else that of the URL. -/
def user? (q : CredentialRequest) (username : Option String) : Option String :=
  username.or q.fromUrl

/-- The same request to a server that takes no SSH keys. -/
def withoutKeys (q : CredentialRequest) : CredentialRequest :=
  { q with allowed := { q.allowed with sshKey := false } }

end CredentialRequest

/-- Whether a credential is of a kind that is accepted. -/
def AllowedCredentials.accepts (a : AllowedCredentials) : Credential → Bool
  | .userPass .. => a.userPass
  | .sshKey .. | .sshAgent _ => a.sshKey
  | .username _ => a.username
  | .default => a.default

/-- The user name in a credential. -/
def Credential.user? : Credential → Option String
  | .userPass u _ | .sshKey u _ _ _ | .sshAgent u | .username u => some u
  | .default => none

namespace CredentialSource

variable {username password : Option String} {n : Nat} {q : CredentialRequest}

/-! ## A run of requests -/

/-- The answers to a run of requests. -/
def answers : CredentialSource → List CredentialRequest → List (Outcome Credential)
  | _, [] => []
  | s, q :: rest =>
    let (answer, after) := s.next q.url q.fromUrl q.allowed
    answer :: after.answers rest

/-- The first request is answered, and the count goes up. -/
theorem answers_cons (s : CredentialSource) (q : CredentialRequest)
    (rest : List CredentialRequest) :
    s.answers (q :: rest) = s.asked.reply q.url q.fromUrl q.allowed :: s.asked.answers rest :=
  rfl

/-- The answer with a number is the reply to that request, whatever was asked before. -/
theorem answers_getElem? (s : CredentialSource) (requests : List CredentialRequest) (n : Nat) :
    (s.answers requests)[n]? = requests[n]?.map fun q =>
      reply { s with attempts := s.attempts + .ofNat (n + 1) } q.url q.fromUrl q.allowed := by
  induction requests generalizing s n with
  | nil => rfl
  | cons q rest ih =>
      rw [answers_cons]
      cases n with
      | zero => rfl
      | succ n =>
          -- the counter is a word, so it may wrap around
          have hcount : s.asked.attempts + .ofNat (n + 1) = s.attempts + .ofNat (n + 1 + 1) := by
            show s.attempts + 1 + .ofNat (n + 1) = _
            rw [UInt32.ofNat_add (n + 1) 1, UInt32.add_comm (.ofNat (n + 1)), UInt32.add_assoc]
            rfl
          rw [List.getElem?_cons_succ, List.getElem?_cons_succ, ih, hcount]
          rfl

/-- A new source has counted the requests in front of the one it answers. -/
theorem answers_new_getElem? (username password : Option String)
    (requests : List CredentialRequest) (n : Nat) :
    ((new username password).answers requests)[n]? = requests[n]?.map fun q =>
      reply ⟨username, password, .ofNat (n + 1)⟩ q.url q.fromUrl q.allowed := by
  have hcount : (new username password).attempts + .ofNat (n + 1) = .ofNat (n + 1) :=
    UInt32.zero_add _
  rw [answers_getElem?, hcount]
  rfl

/-! ## The three offers -/

/-- The agent can be asked: it is the first request, it allows keys, and there is a name. -/
def AsksAgent (username : Option String) (n : Nat) (q : CredentialRequest) : Prop :=
  n = 0 ∧ q.allowed.sshKey = true ∧ (q.user? username).isSome = true

/-- A password can be given. -/
def GivesPassword (password : Option String) (q : CredentialRequest) : Prop :=
  q.allowed.userPass = true ∧ password.isSome = true

/-- A bare user name can be given. -/
def GivesName (username : Option String) (q : CredentialRequest) : Prop :=
  q.allowed.username = true ∧ (q.user? username).isSome = true

/-- What is given if it is wanted and there is what it needs. -/
def offer (wanted : Bool) (needed : Option String) (give : String → Credential) :
    Option Credential :=
  if wanted then needed.map give else none

/-- An offer is made if it is wanted and what it needs is known. -/
theorem offer_cases (wanted : Bool) (needed : Option String) (give : String → Credential) :
    (∃ a, (wanted = true ∧ needed.isSome = true) ∧ needed = some a
        ∧ offer wanted needed give = some (give a))
      ∨ (¬ (wanted = true ∧ needed.isSome = true) ∧ offer wanted needed give = none) := by
  cases wanted with
  | false => exact .inr ⟨fun h => Bool.false_ne_true h.1, rfl⟩
  | true => cases needed with
    | none => exact .inr ⟨fun h => Bool.false_ne_true h.2, rfl⟩
    | some a => exact .inl ⟨a, ⟨rfl, rfl⟩, rfl, rfl⟩

def agentOffer (username : Option String) (n : Nat) (q : CredentialRequest) : Option Credential :=
  offer (q.allowed.sshKey && decide (n = 0)) (q.user? username) .sshAgent

def passwordOffer (username password : Option String) (q : CredentialRequest) :
    Option Credential :=
  offer q.allowed.userPass password (.userPass ((q.user? username).getD ""))

def nameOffer (username : Option String) (q : CredentialRequest) : Option Credential :=
  offer q.allowed.username (q.user? username) .username

/-- The agent is wanted at the first request that allows keys, if it is the first of all. -/
theorem asksAgent_iff (username : Option String) (n : Nat) (q : CredentialRequest) :
    AsksAgent username n q ↔ (q.allowed.sshKey && decide (n = 0)) = true
      ∧ (q.user? username).isSome = true := by
  rw [AsksAgent, Bool.and_eq_true, decide_eq_true_iff, ← and_assoc, and_comm (b := n = 0)]

/-- The agent is offered exactly to a request that asks for it. -/
theorem agentOffer_cases (username : Option String) (n : Nat) (q : CredentialRequest) :
    (∃ u, AsksAgent username n q ∧ q.user? username = some u
        ∧ agentOffer username n q = some (.sshAgent u))
      ∨ (¬ AsksAgent username n q ∧ agentOffer username n q = none) := by
  rw [asksAgent_iff]
  exact offer_cases _ _ _

/-! ## What a reply can be -/

/-- The failure of all requests after the third. -/
def exhausted (url : String) : Outcome Credential :=
  .fail (.host ("authentication failed for '" ++ url ++ "' after 3 attempts"))

/-- What is answered to the request with a number, the first one having zero:
    the agent goes before the password, and that before the bare name. -/
inductive Answer (username password : Option String) (n : Nat) (q : CredentialRequest) :
    Outcome Credential → Prop
  | agent {u : String} (asks : AsksAgent username n q) (known : q.user? username = some u) :
      Answer username password n q (.value (.sshAgent u))
  | password {p : String} (early : n < 3) (noAgent : ¬ AsksAgent username n q)
      (gives : GivesPassword password q) (configured : password = some p) :
      Answer username password n q (.value (.userPass ((q.user? username).getD "") p))
  | name {u : String} (early : n < 3) (noAgent : ¬ AsksAgent username n q)
      (noPassword : ¬ GivesPassword password q) (gives : GivesName username q)
      (known : q.user? username = some u) :
      Answer username password n q (.value (.username u))
  | nothing (early : n < 3) (noAgent : ¬ AsksAgent username n q)
      (noPassword : ¬ GivesPassword password q) (noName : ¬ GivesName username q) :
      Answer username password n q .decline
  | late (late : 3 ≤ n) : Answer username password n q (exhausted q.url)

/-- The count is past its limit from the fourth request on. -/
theorem limit_lt_count_iff (h : n + 1 < UInt32.size) :
    maxAttempts < UInt32.ofNat (n + 1) ↔ 3 ≤ n := by
  rw [UInt32.lt_iff_toNat_lt, UInt32.toNat_ofNat_of_lt' h]
  show 3 < n + 1 ↔ 3 ≤ n
  omega

/-- The count is one at the first request only. -/
theorem count_eq_one_iff (h : n + 1 < UInt32.size) : UInt32.ofNat (n + 1) = 1 ↔ n = 0 := by
  rw [← UInt32.toNat_inj, UInt32.toNat_ofNat_of_lt' h]
  show n + 1 = 1 ↔ n = 0
  omega

/-- The text of the failure, with its limit as a number. -/
theorem exhausted_eq (url : String) :
    exhausted url = .fail (.host ("authentication failed for '" ++ url ++ "' after "
      ++ toString maxAttempts.toNat ++ " attempts")) := by
  have hlimit : "' after " ++ (toString maxAttempts.toNat ++ " attempts") = "' after 3 attempts" :=
    rfl
  rw [exhausted, ← hlimit, ← String.append_assoc, ← String.append_assoc]

/-- The reply to one of the first three requests is the first offer that can be made. -/
theorem reply_early (username password : Option String) (q : CredentialRequest) (early : n < 3) :
    reply ⟨username, password, .ofNat (n + 1)⟩ q.url q.fromUrl q.allowed
      = match ((agentOffer username n q).or (passwordOffer username password q)).or
          (nameOffer username q) with
        | some c => .value c
        | none => .decline := by
  have hsmall : n + 1 < UInt32.size := Nat.lt_of_lt_of_le (Nat.succ_lt_succ early) (by decide)
  have hcount : (UInt32.ofNat (n + 1) == 1) = decide (n = 0) :=
    decide_eq_decide.mpr (count_eq_one_iff hsmall)
  rw [reply, if_neg (fun hlimit => Nat.not_le_of_lt early ((limit_lt_count_iff hsmall).mp hlimit))]
  simp only [Option.orElse_eq_or, hcount, ← Option.or_assoc]
  rfl

/-- **What a source replies** to the request that it counts. -/
theorem reply_answer (username password : Option String) (q : CredentialRequest)
    (h : n + 1 < UInt32.size) :
    Answer username password n q
      (reply ⟨username, password, .ofNat (n + 1)⟩ q.url q.fromUrl q.allowed) := by
  by_cases late : 3 ≤ n
  · rw [reply, if_pos ((limit_lt_count_iff h).mpr late), ← exhausted_eq]
    exact .late late
  · -- the agent, then the password, then the name; without any of them the request is declined
    have early : n < 3 := Nat.lt_of_not_le late
    rw [reply_early username password q early]
    rcases agentOffer_cases username n q with ⟨u, asks, known, hagent⟩ | ⟨noAgent, hagent⟩
    · rw [hagent]
      exact .agent asks known
    rcases offer_cases q.allowed.userPass password (.userPass ((q.user? username).getD "")) with
      ⟨p, gives, configured, hsecret⟩ | ⟨noPassword, hsecret⟩
    · rw [hagent, passwordOffer, hsecret]
      exact .password early noAgent gives configured
    rcases offer_cases q.allowed.username (q.user? username) .username with ⟨u, gives, known, hname⟩ | ⟨noName, hname⟩
    · rw [hagent, passwordOffer, hsecret, nameOffer, hname]
      exact .name early noAgent noPassword gives known
    · rw [hagent, passwordOffer, hsecret, nameOffer, hname]
      exact .nothing early noAgent noPassword noName

/-- The answers of a new source to a run that does not wrap its count. -/
theorem answer_at (username password : Option String) {requests : List CredentialRequest}
    (hcount : n + 1 < UInt32.size) (hq : requests[n]? = some q) :
    ∃ answer, ((new username password).answers requests)[n]? = some answer
      ∧ Answer username password n q answer := by
  refine ⟨_, ?_, reply_answer username password q hcount⟩
  rw [answers_new_getElem?, hq]
  rfl

/-! ## What is granted -/

namespace Answer

variable {answer : Outcome Credential} {c : Credential}

/-- A credential is of a kind that the request allows. -/
theorem accepts (h : Answer username password n q (.value c)) : q.allowed.accepts c = true := by
  cases h with
  | agent asks _ => exact asks.2.1
  | password _ _ gives _ => exact gives.1
  | name _ _ _ gives _ => exact gives.1

/-- The name in a credential is the one that counts. -/
theorem known (h : Answer username password n q (.value c)) :
    ∃ u, c.user? = some u
      ∧ (q.user? username = some u ∨ q.user? username = none ∧ ∃ p, c = .userPass "" p) := by
  cases h with
  | agent _ known => exact ⟨_, rfl, .inl known⟩
  | @password p _ _ _ _ =>
      refine ⟨_, rfl, ?_⟩
      cases hknown : q.user? username with
      | none => exact .inr ⟨rfl, p, rfl⟩
      | some u => exact .inl rfl
  | name _ _ _ _ known => exact ⟨_, rfl, .inl known⟩

/-- An early request gets a credential it allows, or is declined. -/
theorem early (h : Answer username password n q answer) (hn : n < 3) :
    answer = .decline ∨ ∃ c, answer = .value c ∧ q.allowed.accepts c = true := by
  cases answer with
  | value c => exact .inr ⟨c, rfl, h.accepts⟩
  | decline => exact .inl rfl
  | fail e => cases h with
    | late late => exact absurd hn (Nat.not_lt_of_le late)
  | panicked text => cases h

/-- A late request is told that there is nothing left to try. -/
theorem of_late (h : Answer username password n q answer) (hn : 3 ≤ n) :
    answer = exhausted q.url := by
  cases h with
  | agent asks _ => exact absurd (asks.1 ▸ hn) (by decide)
  | password early | name early | nothing early => exact absurd hn (Nat.not_le_of_lt early)
  | late _ => rfl

/-- A request is declined exactly if it is early and nothing suits it. -/
theorem decline_iff (h : Answer username password n q answer) :
    answer = .decline ↔ n < 3 ∧ ¬ AsksAgent username n q ∧ ¬ GivesPassword password q
      ∧ ¬ GivesName username q := by
  cases h with
  | agent asks _ => exact ⟨nofun, fun hnone => absurd asks hnone.2.1⟩
  | password _ _ gives _ => exact ⟨nofun, fun hnone => absurd gives hnone.2.2.1⟩
  | name _ _ _ gives _ => exact ⟨nofun, fun hnone => absurd gives hnone.2.2.2⟩
  | nothing early noAgent noPassword noName =>
      exact ⟨fun _ => ⟨early, noAgent, noPassword, noName⟩, fun _ => rfl⟩
  | late late => exact ⟨nofun, fun hnone => absurd late (Nat.not_le_of_lt hnone.1)⟩

end Answer

/-- What is granted about the answer to the request with a number, the first
    one having zero. -/
structure Granted (username password : Option String) (n : Nat) (q : CredentialRequest)
    (answer : Outcome Credential) : Prop where
  /-- The first three requests get a credential of a kind that they allow, or are declined. -/
  early : n < 3 → answer = .decline ∨ ∃ c, answer = .value c ∧ q.allowed.accepts c = true
  /-- All later ones fail. -/
  late : 3 ≤ n → answer = exhausted q.url
  /-- The name in a credential is the one that counts; without one, only a password is given. -/
  name : ∀ c, answer = .value c → ∃ u, c.user? = some u
    ∧ (q.user? username = some u ∨ q.user? username = none ∧ ∃ p, c = .userPass "" p)
  /-- The agent is asked at the first request only. -/
  agent : ∀ u, answer = .value (.sshAgent u) → n = 0
  /-- A password is given if it is configured and allowed. -/
  secret : ∀ u p, answer = .value (.userPass u p) →
    q.allowed.userPass = true ∧ password = some p
  /-- A request is declined if nothing can be given. -/
  declined : answer = .decline ↔ n < 3 ∧ ¬ AsksAgent username n q ∧ ¬ GivesPassword password q
    ∧ ¬ GivesName username q

/-- What holds of an answer is what is granted about it. -/
theorem Answer.granted {answer : Outcome Credential} (h : Answer username password n q answer) :
    Granted username password n q answer where
  early := h.early
  late := h.of_late
  name := by
    rintro c rfl
    exact h.known
  agent := by
    rintro u rfl
    cases h with
    | agent asks _ => exact asks.1
  secret := by
    rintro u p rfl
    cases h with
    | password _ _ gives configured => exact ⟨gives.1, configured⟩
  declined := h.decline_iff

/-- Where passwords are not allowed, the configured one does not matter. -/
theorem reply_secret (h : q.allowed.userPass = false) (count : UInt32) :
    reply ⟨username, password, count⟩ q.url q.fromUrl q.allowed
      = reply ⟨username, none, count⟩ q.url q.fromUrl q.allowed := by
  simp [reply, h]

/-- **A source gives away no more than it may.**

    In a run of fewer than 2^32 requests every request is answered, and
    `Granted` says what with; and unless the request allows passwords, the
    answer is that of a source that has none. -/
theorem answers_granted (username password : Option String) (requests : List CredentialRequest)
    (hlength : requests.length < UInt32.size) (n : Nat) (q : CredentialRequest)
    (hq : requests[n]? = some q) :
    ∃ answer, ((new username password).answers requests)[n]? = some answer
      ∧ Granted username password n q answer
      ∧ (q.allowed.userPass = false →
        ((new username none).answers requests)[n]? = some answer) := by
  have hn : n < requests.length := (List.getElem?_eq_some_iff.mp hq).1
  obtain ⟨answer, hanswer, hgiven⟩ :=
    answer_at username password (Nat.lt_of_le_of_lt hn hlength) hq
  refine ⟨answer, hanswer, hgiven.granted, ?_⟩
  intro hpass
  rw [← hanswer, answers_new_getElem?, answers_new_getElem?, hq]
  exact congrArg some (reply_secret hpass _).symm

/-- Requests for whatever there is, the third one for a key only. -/
def fiveRequests : List CredentialRequest :=
  let all : AllowedCredentials := ⟨true, true, false, false, true, false⟩
  let keys : AllowedCredentials := ⟨false, true, false, false, false, false⟩
  [⟨"ssh://host/r.git", some "git", all⟩, ⟨"ssh://host/r.git", none, all⟩,
    ⟨"ssh://host/r.git", some "git", keys⟩, ⟨"ssh://host/r.git", some "git", all⟩,
    ⟨"ssh://host/r.git", some "git", all⟩]

/-- The agent, the password without a name, nothing, and then failures. -/
theorem answers_granted_fiveRequests :
    fiveRequests.length < UInt32.size
      ∧ (new none (some "secret")).answers fiveRequests
        = [.value (.sshAgent "git"), .value (.userPass "" "secret"), .decline,
          exhausted "ssh://host/r.git", exhausted "ssh://host/r.git"]
      ∧ Granted none (some "secret") 3 (fiveRequests[3]) (exhausted "ssh://host/r.git") := by
  have hlength : fiveRequests.length < UInt32.size := by decide
  have hanswers : (new none (some "secret")).answers fiveRequests
      = [.value (.sshAgent "git"), .value (.userPass "" "secret"), .decline,
        exhausted "ssh://host/r.git", exhausted "ssh://host/r.git"] := rfl
  obtain ⟨answer, hanswer, hgranted, -⟩ :=
    answers_granted none (some "secret") fiveRequests hlength 3 fiveRequests[3] rfl
  rw [hanswers] at hanswer
  obtain rfl : exhausted "ssh://host/r.git" = answer := Option.some.inj hanswer
  exact ⟨hlength, hanswers, hgranted⟩

/-! ## Who gets the agent -/

/-- The reply to a request that the agent is not asked for is that to one
    which allows no keys. -/
theorem reply_withoutKeys (hcount : n + 1 < UInt32.size) (noAgent : ¬ AsksAgent username n q) :
    reply ⟨username, password, .ofNat (n + 1)⟩ q.url q.fromUrl q.allowed
      = reply ⟨username, password, .ofNat (n + 1)⟩ q.withoutKeys.url q.withoutKeys.fromUrl
        q.withoutKeys.allowed := by
  by_cases late : 3 ≤ n
  · rw [reply, reply, if_pos ((limit_lt_count_iff hcount).mpr late),
      if_pos ((limit_lt_count_iff hcount).mpr late)]
    rfl
  · have early : n < 3 := Nat.lt_of_not_le late
    rw [reply_early username password q early, reply_early username password _ early]
    rcases agentOffer_cases username n q with ⟨u, asks, -, -⟩ | ⟨-, hagent⟩
    · exact absurd asks noAgent
    · rw [hagent]
      rfl

/-- The first request of a run that the agent could answer is among the first
    three: it allows keys, and there is a name for it. -/
structure FirstSuited (username : Option String) (requests : List CredentialRequest) (n : Nat)
    (u : String) : Prop where
  early : n < 3
  suited : ∃ q, requests[n]? = some q ∧ q.allowed.sshKey = true ∧ q.user? username = some u
  first : ∀ m < n, ∀ q, requests[m]? = some q →
    ¬ (q.allowed.sshKey = true ∧ (q.user? username).isSome = true)

/-- If that is not the first request of the run, the agent is never asked. -/
theorem FirstSuited.noAgent {requests : List CredentialRequest} {u : String}
    (h : FirstSuited username requests n u) (hn : n ≠ 0) {m : Nat} (hq : requests[m]? = some q) :
    ¬ AsksAgent username m q := by
  rintro ⟨rfl, hsuited⟩
  exact h.first 0 (Nat.pos_of_ne_zero hn) q hq hsuited

/-- **The agent is asked at the first request or not at all.**

    Take the first request, among the first three, that allows keys and has a
    name.  It is answered with the agent exactly if it is the first of the run.
    Otherwise the whole run is answered as if no request allowed keys, although
    the agent was of no use for the requests before it. -/
theorem agent_asked_first (username password : Option String)
    (requests : List CredentialRequest) (n : Nat) (u : String)
    (h : FirstSuited username requests n u) :
    (((new username password).answers requests)[n]? = some (.value (.sshAgent u)) ↔ n = 0)
      ∧ (n ≠ 0 → requests.length < UInt32.size →
        (new username password).answers requests
          = (new username password).answers (requests.map .withoutKeys)) := by
  obtain ⟨q, hq, hkeys, hname⟩ := h.suited
  -- the request is among the first three
  have hsmall : n + 1 < UInt32.size := Nat.lt_of_lt_of_le (Nat.succ_lt_succ h.early) (by decide)
  obtain ⟨answer, hanswer, hgiven⟩ := answer_at username password hsmall hq
  constructor
  · rw [hanswer]
    constructor
    · intro hagent
      exact hgiven.granted.agent u (Option.some.inj hagent)
    · rintro rfl
      have asks : AsksAgent username 0 q := ⟨rfl, hkeys, by rw [hname]; rfl⟩
      cases hgiven with
      | agent _ known => rw [Option.some.inj (known.symm.trans hname)]
      | password _ noAgent | name _ noAgent | nothing _ noAgent => exact absurd asks noAgent
      | late late => exact absurd late (by decide)
  · -- the others ask for no agent, so they are answered as if none allowed keys
    intro hn hlength
    apply List.ext_getElem?
    intro m
    rw [answers_new_getElem?, answers_new_getElem?, List.getElem?_map, Option.map_map]
    cases hm : requests[m]? with
    | none => rfl
    | some q =>
        have hcount : m + 1 < UInt32.size :=
          Nat.lt_of_le_of_lt (List.getElem?_eq_some_iff.mp hm).1 hlength
        exact congrArg some (reply_withoutKeys hcount (h.noAgent hn hm))

/-- The URL has a name, and the first request is for a key. -/
theorem agent_asked_first_urlName :
    FirstSuited none fiveRequests 0 "git"
      ∧ ((new none (some "secret")).answers fiveRequests)[0]? = some (.value (.sshAgent "git")) := by
  have hfirst : FirstSuited none fiveRequests 0 "git" :=
    { early := by decide
      suited := ⟨fiveRequests[0], rfl, rfl, rfl⟩
      first := fun m hm => absurd hm (Nat.not_lt_zero m) }
  exact ⟨hfirst, (agent_asked_first none (some "secret") fiveRequests 0 "git" hfirst).1.mpr rfl⟩

/-- A server that takes keys, and asks for the name first. -/
def nameFirst : List CredentialRequest :=
  [⟨"ssh://host/r.git", none, ⟨false, false, false, false, true, false⟩⟩,
    ⟨"ssh://host/r.git", some "alice", ⟨false, true, false, false, false, false⟩⟩]

/-- It gets the name, and then no key. -/
theorem agent_passed_over :
    FirstSuited (some "alice") nameFirst 1 "alice"
      ∧ (new (some "alice") none).answers nameFirst = [.value (.username "alice"), .decline] := by
  refine ⟨⟨by decide, ⟨nameFirst[1], rfl, rfl, rfl⟩, ?_⟩, rfl⟩
  intro m hm q hq hsuited
  obtain rfl : m = 0 := Nat.lt_one_iff.mp hm
  obtain rfl : nameFirst[0] = q := Option.some.inj hq
  exact absurd hsuited.1 (by decide)

end CredentialSource

end Gitwork
