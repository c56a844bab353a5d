import Shh.Auth
import Shh.Runs

/-!
# Both sides of user authentication

The client offers its credentials in turn, each with a signature, until the server accepts one
or there are no more. Client and server are processes that wait for a packet, and send what
follows from it. The streams between them lose nothing and keep the order; a side that has
failed leaves, and the other learns of it when it has read all that was sent.

Whatever the order in which the two take their turns, they agree: the server answers the
credentials one by one as the policy says, and the first that it accepts ends the conversation
on both sides.
-/

namespace Shh

open List Wire Reader Writer Computations

variable {prim : Primitives}

/-- A security key in software: a seed, and the application that it is scoped to. -/
structure SoftwareKey where
  seed : Bytes
  size : seed.length = 32
  application : String

namespace SoftwareKey

def publicKey (key : SoftwareKey) : SkPublicKey prim :=
  ⟨⟨prim.publicOf key.seed, prim.public_size key.seed, prim.public_valid key.seed⟩, key.application⟩

/-- An assertion over a message. The counter is always 0. -/
def sign (prim : Primitives) (key : SoftwareKey) (message : Bytes) (userPresent : Bool) : Bytes :=
  let flags := if userPresent then SkPublicKey.flagUserPresent else 0
  let signed := SkPublicKey.authenticatorData prim key.application flags 0 message
  Writer.utf8 skAlgo ++ Writer.string (prim.signRaw key.seed signed) ++ Writer.byte flags ++ Writer.u32 0

/-- An assertion of a present user verifies under the key's own credential. -/
theorem verify_sign (key : SoftwareKey) (message : Bytes) :
    (key.publicKey : SkPublicKey prim).verify message (key.sign prim message true) = .ok () := by
  let signed := SkPublicKey.authenticatorData prim key.application SkPublicKey.flagUserPresent 0 message
  have read : SkPublicKey.readAssertion (key.sign prim message true) =
      .ok (prim.signRaw key.seed signed, SkPublicKey.flagUserPresent, 0) := by
    simp only [SkPublicKey.readAssertion, parse_ok, utf8_bind_ok, require_bind_ok,
      string_bind_ok, byte_bind_ok, u32_bind_ok, finish_bind_ok, pure_ok, Prod.mk.injEq]
    have size := prim.sign_size key.seed signed
    exact ⟨[], skAlgo, _, ⟨by simp only [sign, append_assoc]; rfl, by decide⟩, rfl, prim.signRaw key.seed signed, _,
      ⟨rfl, by omega⟩, size, _, _, rfl, 0, [], ⟨(append_nil _).symm, by decide⟩, rfl, ⟨rfl, rfl, rfl⟩, rfl⟩
  have verified : prim.verifyRaw (key.publicKey : SkPublicKey prim).key.raw
      (SkPublicKey.authenticatorData prim
      (key.publicKey : SkPublicKey prim).application SkPublicKey.flagUserPresent 0 message)
      (prim.signRaw key.seed signed) = true := prim.sign_verifies key.seed signed
  unfold SkPublicKey.verify
  rw [read]
  dsimp only
  rw [if_neg (by decide), if_pos verified]

end SoftwareKey

namespace Auth

section Client

/-- Where a signature comes from: a key or a security key of the client's own. -/
inductive SignWith where
  | key (secret : PrivateKey)
  | securityKey (secret : SoftwareKey)

namespace SignWith

def sign (prim : Primitives) : SignWith → Bytes → Bytes
  | .key secret, span => secret.sign prim span
  | .securityKey secret, span => secret.sign prim span true

/-- The key that a server knows the signer by. -/
def userKey : SignWith → UserKey prim
  | .key secret => .ed25519 secret.publicKey
  | .securityKey secret => .sk secret.publicKey

theorem verify_sign (signer : SignWith) (span : Bytes) :
    (signer.userKey : UserKey prim).verify span (signer.sign prim span) = .ok () := by
  cases signer with
  | key secret | securityKey secret =>
    rw [userKey, UserKey.verify, sign]
    exact secret.verify_sign span

end SignWith

/-- A key or a certificate, with the name of its algorithm. -/
structure Credential where
  name : String
  blob : Bytes
deriving DecidableEq, Repr

/-- What a client comes with. -/
structure Login where
  user : String
  credentials : List Credential
  signer : SignWith

/-- The request for one credential, with its signature. -/
def Login.request (prim : Primitives) (login : Login) (sessionId : Bytes) (credential : Credential) : Bytes :=
  let span := signedSpan sessionId login.user credential.name credential.blob
  Writer.byte Msg.userauthRequest ++ Writer.utf8 login.user ++ Writer.utf8 serviceConnection ++
    Writer.utf8 "publickey" ++ Writer.boolean true ++ Writer.utf8 credential.name ++
    Writer.string credential.blob ++ Writer.string (login.signer.sign prim span)

/-- Where the client is: it waits for the service, or for an answer with further credentials
to offer and with what the server said it accepts, or it has returned. -/
inductive Client where
  | opening
  | offered (rest : List Credential) (accepts : String)
  | done (result : Except Error Unit)
deriving DecidableEq

/-- The loop over the credentials, to the next point where it waits. -/
def Client.offer (prim : Primitives) (login : Login) (sessionId : Bytes) (rest : List Credential) (accepts : String) :
    Client × List Bytes :=
  match rest with
  | [] =>
    (.done (.error (.auth
      s!"server rejected all {login.credentials.length} offered credential(s) (it accepts: {accepts})")), [])
  | credential :: rest => (.offered rest accepts, [login.request prim sessionId credential])

/-- What a server may say to an offer. -/
inductive Answer where
  | success
  | banner (text : String)
  | failure (accepts : String)
deriving DecidableEq, Repr

def readAccept (packet : Bytes) : Except Error Unit :=
  Reader.parse (do
    let kind ← Reader.byte
    Reader.require (kind = Msg.serviceAccept) (.protocol "expected SERVICE_ACCEPT ssh-userauth")
    let service ← Reader.utf8
    Reader.require (service = serviceUserauth) (.protocol "expected SERVICE_ACCEPT ssh-userauth")) packet

def readAnswer (packet : Bytes) : Except Error Answer :=
  Reader.parse (do
    let kind ← Reader.byte
    if kind = Msg.userauthSuccess then return .success
    else if kind = Msg.userauthBanner then
      let text ← Reader.utf8
      return .banner text
    else if kind = Msg.userauthFailure then
      let names ← Reader.nameList
      return .failure (Writer.joinNames names)
    else throw (.protocol s!"unexpected message {kind.toNat} during authentication")) packet

/-- What the client does with a packet, to the next point where it waits, and what it sends. -/
def Client.receive (prim : Primitives) (login : Login) (sessionId : Bytes) (packet : Bytes) :
    Client → Client × List Bytes
  | .opening =>
    match readAccept packet with
    | .error reason => (.done (.error reason), [])
    | .ok () => Client.offer prim login sessionId login.credentials ""
  | .offered rest accepts =>
    match readAnswer packet with
    | .error reason => (.done (.error reason), [])
    | .ok .success => (.done (.ok ()), [])
    | .ok (.banner _) => (.offered rest accepts, [])
    | .ok (.failure names) => Client.offer prim login sessionId rest names
  | .done result => (.done result, [])

end Client

section Server

/-- Where the server is: it waits for the opening, or for a request with so many attempts
left, or it has returned. -/
inductive Server where
  | opening
  | serving (attempts : Nat)
  | done (result : Except Error Authenticated)
deriving DecidableEq

/-- The loop over the attempts, to the next point where it waits. -/
def Server.serve : Nat → Server
  | 0 => .done (.error (.auth "too many authentication attempts"))
  | attempts + 1 => .serving (attempts + 1)

def acceptPacket : Bytes := Writer.byte Msg.serviceAccept ++ Writer.utf8 serviceUserauth

/-- What the server does with a packet, to the next point where it waits, and what it sends. -/
def Server.receive (policy : Policy prim) (peer : Option IpAddr) (sessionId : Bytes) (now : Nat) (packet : Bytes) :
    Server → Server × List Bytes
  | .opening =>
    match readServiceRequest packet with
    | .error reason => (.done (.error reason), [])
    | .ok () => (Server.serve maxAttempts, acceptPacket :: (policy.banner.map bannerPacket).toList)
  | .serving attempts =>
    match decideRequest policy peer now sessionId packet with
    | .error reason => (.done (.error reason), [])
    | .ok (.accept result) => (.done (.ok result), [(Verdict.accept result).packet])
    | .ok verdict => (Server.serve (attempts - 1), [verdict.packet])
  | .done result => (.done result, [])

/-- How far the conversation got. -/
def Server.outcome : Server → Outcome
  | .opening => .waiting
  | .serving _ => .waiting
  | .done (.ok result) => .authenticated result
  | .done (.error reason) => .failed reason

/-- The server over what it receives, with the times at which it decides: where it is at the
end and all that it sent. -/
def Server.run (policy : Policy prim) (peer : Option IpAddr) (sessionId : Bytes) : Server →
    List (Bytes × Nat) → Server × List Bytes
  | server, [] => (server, [])
  | server, (packet, now) :: later =>
    let (next, sent) := server.receive policy peer sessionId now packet
    let (last, rest) := Server.run policy peer sessionId next later
    (last, sent ++ rest)

variable (policy : Policy prim) (peer : Option IpAddr) (sessionId : Bytes)

/-- A turn in which the transport works. -/
def delivered (packet : Bytes × Nat) : Turn := ⟨.ok packet.1, packet.2, .ok ()⟩

theorem run_done (result : Except Error Authenticated) (packets : List (Bytes × Nat)) :
    Server.run policy peer sessionId (.done result) packets = (.done result, []) := by
  induction packets with
  | nil => rfl
  | cons packet later ih =>
    rw [Server.run, Server.receive]
    dsimp only
    rw [ih]
    rfl

/-- The process makes its way through the request loop. -/
theorem run_requests (attempts : Nat) (packets : List (Bytes × Nat)) :
    requests policy peer sessionId attempts (packets.map delivered) =
      ((Server.run policy peer sessionId (Server.serve attempts) packets).2,
        (Server.run policy peer sessionId (Server.serve attempts) packets).1.outcome) := by
  induction packets generalizing attempts with
  | nil => cases attempts <;> rfl
  | cons packet later ih =>
    cases attempts with
    | zero =>
      rw [Server.serve, run_done]
      rfl
    | succ attempts =>
      have next := ih attempts
      rw [map_cons, requests, Server.serve, Server.run, Server.receive]
      dsimp only [delivered]
      cases decideRequest policy peer packet.2 sessionId packet.1 with
      | error reason => rw [run_done]; rfl
      | ok verdict =>
        cases verdict with
        | accept result => rw [run_done]; rfl
        | reject | pkOk =>
          dsimp only
          rw [next]
          rfl

/-- The process is the server's side of a conversation. -/
theorem run_server (opening : Bytes × Nat) (packets : List (Bytes × Nat)) :
    server policy peer sessionId (delivered opening) (.ok ()) (packets.map delivered) =
      ((Server.run policy peer sessionId .opening (opening :: packets)).2,
        (Server.run policy peer sessionId .opening (opening :: packets)).1.outcome) := by
  have looped := run_requests policy peer sessionId maxAttempts packets
  rw [server, Server.run, Server.receive]
  dsimp only [delivered]
  cases readServiceRequest opening.1 with
  | error reason => rw [run_done]; rfl
  | ok done =>
    cases policy.banner with
    | none | some =>
      dsimp only
      rw [looped]
      rfl

end Server

section Acceptance

/-- Why the policy admits a credential, with the key it stands for and the command it forces:
the key is listed, or a certificate passes every check. -/
inductive Admitted (policy : Policy prim) (peer : Option IpAddr) (user : String) (now : Nat) (credential : Credential) :
    UserKey prim → Option String → Prop where
  | listed {key} (kind : credential.name = algo ∨ credential.name = skAlgo)
      (named : UserKey.fromBlob credential.blob = .ok key) (member : key ∈ policy.keys) :
      Admitted policy peer user now credential key none
  | certified {cert : Certificate prim} (kind : credential.name = certAlgo ∨ credential.name = skCertAlgo)
      (admits : CertAdmits policy credential.blob user peer now cert) :
      Admitted policy peer user now credential cert.certifiedUserKey cert.forceCommand

/-- A credential that logs in: the policy admits its user and its key, which is the signer's. -/
def Acceptable (policy : Policy prim) (peer : Option IpAddr) (now : Nat) (login : Login) (credential : Credential)
    (forceCommand : Option String) : Prop :=
  (policy.user = none ∨ policy.user = some login.user) ∧
    Admitted policy peer login.user now credential login.signer.userKey forceCommand

/-- A certificate that passes the checks is authorized. -/
theorem authorize_cert_of_admits {blob user} {cert : Certificate prim}
    (admits : CertAdmits policy blob user peer now cert) :
    policy.authorizeCert blob user peer now = some (cert.certifiedUserKey, cert.forceCommand) := by
  have trusted : policy.trustedCas.any (fun ca => sameKey ca cert.caKey) = true := by
    simpa [same_key_iff] using admits.trusted
  have principal : cert.permitsPrincipal user = true := by
    simpa [Certificate.permitsPrincipal] using admits.principal
  unfold Policy.authorizeCert
  rw [admits.parsed]
  dsimp only
  rw [if_neg (not_not_intro admits.userType), trusted, (cert.valid_at_iff now).mpr admits.inWindow, principal,
    (permits_source_iff cert peer).mpr admits.source]
  rfl

/-- The server's check of a credential is that the policy admits it. -/
theorem authorized_iff (policy : Policy prim) (peer : Option IpAddr) (user : String) (now : Nat)
    (credential : Credential)
    (key : UserKey prim) (forceCommand : Option String) :
    policy.authorized user credential.name credential.blob peer now = some (key, forceCommand) ↔
      (policy.user = none ∨ policy.user = some user) ∧ Admitted policy peer user now credential key forceCommand := by
  unfold Policy.authorized
  rw [← policy.user_allowed_iff user]
  cases allowed : policy.userAllowed user with
  | false => simp
  | true =>
    rw [if_neg (by decide)]
    constructor
    · intro granted
      refine ⟨rfl, ?_⟩
      split at granted
      · rename_i kind
        split at granted
        · rename_i presented named
          split at granted
          · rename_i member
            cases granted
            exact .listed kind named ((policy.key_authorized_iff _).mp member)
          · cases granted
        · cases granted
      · split at granted
        · rename_i kind
          obtain ⟨cert, admits, rfl, rfl⟩ := authorize_cert_some _ _ _ _ _ _ _ granted
          exact .certified kind admits
        · cases granted
    · rintro ⟨-, admitted⟩
      cases admitted with
      | listed kind named member =>
        rw [if_pos kind, named]
        dsimp only
        rw [if_pos ((policy.key_authorized_iff key).mpr member)]
      | certified kind admits =>
        have other : ¬ (credential.name = algo ∨ credential.name = skAlgo) := by
          rcases kind with same | same <;> rw [same] <;> decide +kernel
        rw [if_neg other, if_pos kind, authorize_cert_of_admits admits]

/-- What the two sides write has fields that the wire can carry. A longer string ends the
program that writes it. -/
structure Carried (login : Login) (policy : Policy prim) : Prop where
  user : (utf8Bytes login.user).length < 2 ^ 32
  credentials : ∀ credential ∈ login.credentials,
    (utf8Bytes credential.name).length < 2 ^ 32 ∧ credential.blob.length < 2 ^ 32
  banner : ∀ text ∈ policy.banner, (utf8Bytes text).length < 2 ^ 32

theorem sign_short (signer : SignWith) (span : Bytes) : (signer.sign prim span).length < 2 ^ 32 := by
  have algoLength : (utf8Bytes algo).length = 11 := by decide +kernel
  have skAlgoLength : (utf8Bytes skAlgo).length = 26 := by decide +kernel
  cases signer with
  | key secret =>
    simp only [SignWith.sign, PrivateKey.sign, Writer.utf8, length_append, string_length, prim.sign_size, algoLength]
    decide
  | securityKey secret =>
    simp only [SignWith.sign, SoftwareKey.sign, Writer.utf8, Writer.byte, length_append, string_length,
      u32_length, prim.sign_size, skAlgoLength, length_singleton]
    decide

variable {policy : Policy prim} {peer : Option IpAddr} {sessionId : Bytes} {login : Login}
  {credential : Credential} {now : Nat}

theorem read_byte_written (value : UInt8) (rest : Bytes) :
    Reader.byte (Writer.byte value ++ rest) = .ok (value, rest) :=
  (byte_ok _ _ _).mpr rfl

theorem read_true_written (rest : Bytes) : Reader.boolean (Writer.boolean true ++ rest) = .ok (true, rest) :=
  (boolean_ok _ _ _).mpr ⟨1, rfl, rfl⟩

/-- The server reads a request as the client wrote it. -/
theorem decide_request (carried : Carried login policy) (member : credential ∈ login.credentials) :
    decideRequest policy peer now sessionId (login.request prim sessionId credential) =
      match policy.authorized login.user credential.name credential.blob peer now with
      | none => .ok .reject
      | some (key, forceCommand) =>
        if key.verify (signedSpan sessionId login.user credential.name credential.blob)
            (login.signer.sign prim (signedSpan sessionId login.user credential.name credential.blob)) = .ok () then
          .ok (.accept ⟨login.user, forceCommand⟩)
        else .ok .reject := by
  obtain ⟨nameShort, blobShort⟩ := carried.credentials credential member
  have signature := @sign_short prim login.signer (signedSpan sessionId login.user credential.name credential.blob)
  unfold decideRequest readRequest Login.request Reader.parse
  simp only [append_assoc]
  rw [bind_of_ok (read_byte_written _ _),
    bind_of_ok ((require_ok _ _ _ _).mpr ⟨rfl, rfl⟩),
    bind_of_ok ((utf8_ok _ _ login.user).mpr ⟨rfl, carried.user⟩),
    bind_of_ok ((utf8_ok _ _ serviceConnection).mpr ⟨rfl, by decide +kernel⟩),
    bind_of_ok ((utf8_ok _ _ "publickey").mpr ⟨rfl, by decide +kernel⟩),
    bind_of_ok ((require_ok _ _ _ _).mpr ⟨rfl, rfl⟩), if_neg (not_not_intro rfl),
    bind_of_ok (read_true_written _),
    bind_of_ok ((utf8_ok _ _ credential.name).mpr ⟨rfl, nameShort⟩),
    bind_of_ok ((string_ok _ _ credential.blob).mpr ⟨rfl, blobShort⟩)]
  cases policy.authorized login.user credential.name credential.blob peer now with
  | none => rfl
  | some grant =>
    obtain ⟨key, forceCommand⟩ := grant
    dsimp only
    rw [if_pos rfl, bind_of_ok ((string_ok _ [] _).mpr ⟨(append_nil _).symm, signature⟩),
      bind_of_ok ((finish_ok _ _).mpr ⟨rfl, rfl⟩)]
    split
    · rfl
    · rfl

theorem decide_acceptable (carried : Carried login policy) (member : credential ∈ login.credentials)
    {forceCommand : Option String}
    (acceptable : Acceptable policy peer now login credential forceCommand) :
    decideRequest policy peer now sessionId (login.request prim sessionId credential) =
      .ok (.accept ⟨login.user, forceCommand⟩) := by
  rw [decide_request carried member, (authorized_iff _ _ _ _ _ _ _).mpr acceptable]
  dsimp only
  rw [if_pos (login.signer.verify_sign _)]

/-- The client's signature for a credential passes under no other key that the policy admits
for it than the signer's: what a signature is for. -/
def Unforged (policy : Policy prim) (peer : Option IpAddr) (sessionId : Bytes) (login : Login) (credential : Credential)
    (now : Nat) : Prop :=
  ∀ key forceCommand, Admitted policy peer login.user now credential key forceCommand → key ≠ login.signer.userKey →
    key.verify (signedSpan sessionId login.user credential.name credential.blob)
      (login.signer.sign prim (signedSpan sessionId login.user credential.name credential.blob)) ≠ .ok ()

theorem decide_unacceptable (carried : Carried login policy) (member : credential ∈ login.credentials)
    (unforged : Unforged policy peer sessionId login credential now)
    (unacceptable : ∀ forceCommand, ¬ Acceptable policy peer now login credential forceCommand) :
    decideRequest policy peer now sessionId (login.request prim sessionId credential) = .ok .reject := by
  rw [decide_request carried member]
  cases granted : policy.authorized login.user credential.name credential.blob peer now with
  | none => rfl
  | some grant =>
    obtain ⟨key, forceCommand⟩ := grant
    have admits := (authorized_iff _ _ _ _ _ _ _).mp granted
    have other : key ≠ login.signer.userKey := by
      rintro rfl
      exact unacceptable forceCommand admits
    dsimp only
    rw [if_neg (unforged key forceCommand admits.2 other)]

end Acceptance

section Conversation

variable {index : Nat} {reason : Error}

/-- A client and a server with the packets between them, the oldest first. -/
structure Conversation where
  client : Client
  server : Server
  toServer : List Bytes
  toClient : List Bytes
deriving DecidableEq

/-- What can happen next: the server or the client receives a packet, or one of them learns
that the other has left. -/
inductive Event where
  | toServer
  | toClient
  | clientLeft (reason : Error)
  | serverLeft (reason : Error)

variable (policy : Policy prim) (peer : Option IpAddr) (sessionId : Bytes) (login : Login) (clock : Nat → Nat)

def serviceRequestPacket : Bytes := Writer.byte Msg.serviceRequest ++ Writer.utf8 serviceUserauth

/-- The client has asked for the service. -/
def Conversation.start : Conversation := ⟨.opening, .opening, [serviceRequestPacket], []⟩

/-- The time at which the server decides the next request. -/
def Server.time : Server → Nat
  | .serving attempts => clock (maxAttempts - attempts)
  | _ => 0

/-- A side that has returned takes no packet. One that has failed leaves, and the other's
receiving fails once there is nothing left to receive. -/
def Conversation.step (state : Conversation) : Event → Option Conversation
  | .toServer =>
    match state.server, state.toServer with
    | .done _, _ => none
    | _, [] => none
    | server, packet :: rest =>
      let (server, sent) := server.receive policy peer sessionId (server.time clock) packet
      some { state with server, toServer := rest, toClient := state.toClient ++ sent }
  | .toClient =>
    match state.client, state.toClient with
    | .done _, _ => none
    | _, [] => none
    | client, packet :: rest =>
      let (client, sent) := client.receive prim login sessionId packet
      some { state with client, toClient := rest, toServer := state.toServer ++ sent }
  | .clientLeft reason =>
    match state.client, state.server, state.toServer with
    | _, .done _, _ => none
    | .done (.error _), _, [] => some { state with server := .done (.error reason) }
    | _, _, _ => none
  | .serverLeft reason =>
    match state.server, state.client, state.toClient with
    | _, .done _, _ => none
    | .done (.error _), _, [] => some { state with client := .done (.error reason) }
    | _, _, _ => none

section Packets

theorem service_request_read : readServiceRequest serviceRequestPacket = .ok () := by decide +kernel

theorem accept_read : readAccept acceptPacket = .ok () := by decide +kernel

theorem failure_read : readAnswer Verdict.reject.packet = .ok (.failure "publickey") := by decide +kernel

theorem success_read (result : Authenticated) : readAnswer (Verdict.accept result).packet = .ok .success := rfl

theorem banner_read (text : String) (short : (utf8Bytes text).length < 2 ^ 32) :
    readAnswer (bannerPacket text) = .ok (.banner text) := by
  unfold readAnswer bannerPacket Reader.parse
  rw [append_assoc, bind_of_ok (read_byte_written _ _), if_neg (by decide), if_pos rfl,
    bind_of_ok ((utf8_ok _ _ text).mpr ⟨rfl, short⟩)]
  rfl

end Packets

/-- None of the first credentials is acceptable at its time. -/
def Refused (count : Nat) : Prop :=
  ∀ index credential forceCommand, index < count → login.credentials[index]? = some credential →
    ¬ Acceptable policy peer (clock index) login credential forceCommand

/-- The banner, if there is one. -/
def banner : List Bytes := (policy.banner.map bannerPacket).toList

/-- The stages of a conversation. The number of the credential that is on offer says how many
were refused before it. The banner may still be on its way with the first answer. -/
inductive Stage : Conversation → Prop where
  | asking : Stage ⟨.opening, .opening, [serviceRequestPacket], []⟩
  | greeted : Stage ⟨.opening, .serving maxAttempts, [], acceptPacket :: banner policy⟩
  | offered {index : Nat} {credential accepts pending}
      (here : login.credentials[index]? = some credential) (early : index < maxAttempts)
      (refused : Refused policy peer login clock index) (late : pending = [] ∨ pending = banner policy) :
      Stage ⟨.offered (login.credentials.drop (index + 1)) accepts, .serving (maxAttempts - index),
        [login.request prim sessionId credential], pending⟩
  | denied {index : Nat} {accepts pending} (early : index < maxAttempts)
      (refused : Refused policy peer login clock (index + 1)) (late : pending = [] ∨ pending = banner policy) :
      Stage ⟨.offered (login.credentials.drop (index + 1)) accepts, Server.serve (maxAttempts - (index + 1)), [],
        pending ++ [Verdict.reject.packet]⟩
  | granted {index credential forceCommand rest accepts pending}
    (here : login.credentials[index]? = some credential) (early : index < maxAttempts)
      (refused : Refused policy peer login clock index)
      (acceptable : Acceptable policy peer (clock index) login credential forceCommand)
      (late : pending = [] ∨ pending = banner policy) :
      Stage ⟨.offered rest accepts, .done (.ok ⟨login.user, forceCommand⟩), [],
        pending ++ [(Verdict.accept ⟨login.user, forceCommand⟩).packet]⟩
  | agreed {index credential forceCommand}
      (here : login.credentials[index]? = some credential) (early : index < maxAttempts)
      (refused : Refused policy peer login clock index)
      (acceptable : Acceptable policy peer (clock index) login credential forceCommand) :
      Stage ⟨.done (.ok ()), .done (.ok ⟨login.user, forceCommand⟩), [], []⟩
  | overrun {rest accepts packets reason}
      (refused : Refused policy peer login clock maxAttempts) :
      Stage ⟨.offered rest accepts, .done (.error reason), packets, []⟩
  | exhausted {reason index pending} (few : login.credentials.length ≤ index)
      (early : index ≤ maxAttempts) (refused : Refused policy peer login clock index) :
      Stage ⟨.done (.error reason), Server.serve (maxAttempts - index), [], pending⟩
  | parted {reason other packets pending} (refused : Refused policy peer login clock maxAttempts) :
      Stage ⟨.done (.error reason), .done (.error other), packets, pending⟩

variable {policy peer sessionId login clock}

/-- A server with nothing to receive stays where it is. -/
theorem nothing_to_server (client : Client) (server : Server) (toClient : List Bytes) :
    Conversation.step policy peer sessionId login clock ⟨client, server, [], toClient⟩ .toServer = none := by
  cases server <;> rfl

theorem nothing_to_client (client : Client) (server : Server) (toServer : List Bytes) :
    Conversation.step policy peer sessionId login clock ⟨client, server, toServer, []⟩ .toClient = none := by
  cases client <;> rfl

theorem refused_next {credential} (refused : Refused policy peer login clock index)
    (here : login.credentials[index]? = some credential)
    (unacceptable : ∀ forceCommand, ¬ Acceptable policy peer (clock index) login credential forceCommand) :
    Refused policy peer login clock (index + 1) := by
  intro other found forceCommand before there
  rcases Nat.lt_succ_iff_lt_or_eq.mp before with earlier | rfl
  · exact refused other found forceCommand earlier there
  · cases here.symm.trans there
    exact unacceptable forceCommand

variable {state next : Conversation}

/-- The server decides each credential as the policy says. -/
theorem stage_to_server (carried : Carried login policy)
    (unforged : ∀ index credential, login.credentials[index]? = some credential →
      Unforged policy peer sessionId login credential (clock index))
    (stage : Stage policy peer sessionId login clock state)
    (moved : state.step policy peer sessionId login clock .toServer = some next) :
    Stage policy peer sessionId login clock next := by
  cases stage with
  | asking =>
    simp only [Conversation.step, Server.receive, service_request_read] at moved
    cases moved
    exact .greeted
  | @offered index credential accepts pending here early refused late =>
    have time : maxAttempts - (maxAttempts - index) = index := by omega
    have member := mem_of_getElem? here
    simp only [Conversation.step, Server.receive, Server.time, time] at moved
    by_cases acceptable : ∃ forceCommand, Acceptable policy peer (clock index) login credential forceCommand
    · obtain ⟨forceCommand, acceptable⟩ := acceptable
      rw [decide_acceptable carried member acceptable] at moved
      cases moved
      exact .granted here early refused acceptable late
    · have unacceptable := not_exists.mp acceptable
      rw [decide_unacceptable carried member (unforged index credential here) unacceptable] at moved
      cases moved
      exact .denied early (refused_next refused here unacceptable) late
  | greeted | denied | granted | agreed | exhausted => rw [nothing_to_server] at moved; cases moved
  | overrun | parted => cases moved

/-- The next credential is offered, or there is none. -/
theorem offer_cases (index : Nat) (accepts : String) :
    (∃ credential, login.credentials[index]? = some credential ∧
      Client.offer prim login sessionId (login.credentials.drop index) accepts =
        (.offered (login.credentials.drop (index + 1)) accepts, [login.request prim sessionId credential])) ∨
      login.credentials.length ≤ index ∧ ∃ reason,
        Client.offer prim login sessionId (login.credentials.drop index) accepts = (.done (.error reason), []) := by
  by_cases inside : index < login.credentials.length
  · refine .inl ⟨login.credentials[index], List.getElem?_eq_getElem inside, ?_⟩
    rw [drop_eq_getElem_cons inside]
    rfl
  · refine .inr ⟨Nat.not_lt.mp inside, ?_⟩
    rw [drop_eq_nil_of_le (Nat.not_lt.mp inside)]
    exact ⟨_, rfl⟩

/-- The client goes on to the next credential as long as the server has attempts left. -/
theorem stage_after_offer {accepts pending} (early : index ≤ maxAttempts)
    (refused : Refused policy peer login clock index) (late : pending = [] ∨ pending = banner policy)
    (read : index = maxAttempts → pending = []) :
    Stage policy peer sessionId login clock
      ⟨(Client.offer prim login sessionId (login.credentials.drop index) accepts).1, Server.serve (maxAttempts - index),
        (Client.offer prim login sessionId (login.credentials.drop index) accepts).2, pending⟩ := by
  rcases @offer_cases prim sessionId login index accepts with ⟨credential, here, offered⟩ | ⟨few, reason, none⟩
  · rw [offered]
    rcases Nat.lt_or_eq_of_le early with before | rfl
    · have serving : Server.serve (maxAttempts - index) = .serving (maxAttempts - index) := by
        obtain ⟨left, more⟩ := Nat.exists_eq_succ_of_ne_zero (Nat.sub_ne_zero_of_lt before)
        rw [more]
        rfl
      rw [serving]
      exact .offered here before refused late
    · rw [read rfl]
      exact .overrun refused
  · rw [none]
    exact .exhausted few early refused

/-- A banner that is still on its way is read first, and changes nothing. -/
theorem banner_passes (carried : Carried login policy) {rest : List Credential} {accepts : String} {server : Server}
    {toServer pending more : List Bytes} (late : pending = [] ∨ pending = banner policy)
    (moved : Conversation.step policy peer sessionId login clock ⟨.offered rest accepts, server,
      toServer, pending ++ more⟩
      .toClient = some next) :
    pending = [] ∨ next = ⟨.offered rest accepts, server, toServer, [] ++ more⟩ := by
  rcases late with none | shown
  · exact .inl none
  · cases text : policy.banner with
    | none =>
      rw [banner, text] at shown
      exact .inl shown
    | some text' =>
      rw [banner, text] at shown
      rw [shown] at moved
      simp only [Conversation.step, Option.map_some, Option.toList_some, singleton_append, Client.receive,
        banner_read text' (carried.banner text' text), append_nil] at moved
      exact .inr (Option.some.inj moved).symm

/-- The client reads what the server sent, in the order in which it was sent. -/
theorem stage_to_client (carried : Carried login policy) (stage : Stage policy peer sessionId login clock state)
    (moved : state.step policy peer sessionId login clock .toClient = some next) :
    Stage policy peer sessionId login clock next := by
  cases stage with
  | asking | overrun | exhausted | parted => cases moved
  | greeted =>
    simp only [Conversation.step, Client.receive, accept_read] at moved
    cases moved
    have offered := @stage_after_offer prim 0 policy peer sessionId login clock "" (banner policy) (Nat.zero_le _)
      (fun _ _ _ before => absurd before (Nat.not_lt_zero _)) (.inr rfl) nofun
    exact offered
  | offered here early refused late =>
    rename_i pending
    rw [← append_nil pending] at moved
    rcases banner_passes carried late moved with rfl | rfl
    · rw [append_nil, nothing_to_client] at moved
      cases moved
    · exact .offered here early refused (.inl rfl)
  | denied early refused late =>
    rcases banner_passes carried late moved with rfl | rfl
    · simp only [Conversation.step, nil_append, Client.receive, failure_read] at moved
      cases moved
      exact stage_after_offer early refused (.inl rfl) (fun _ => rfl)
    · exact .denied early refused (.inl rfl)
  | granted here early refused acceptable late =>
    rcases banner_passes carried late moved with rfl | rfl
    · simp only [Conversation.step, nil_append, Client.receive, success_read] at moved
      cases moved
      exact .agreed here early refused acceptable
    · exact .granted here early refused acceptable (.inl rfl)
  | agreed => rw [nothing_to_client] at moved; cases moved

theorem to_server (moved : state.step policy peer sessionId login clock .toServer = some next) :
    ∃ packet rest, state.toServer = packet :: rest ∧ (∀ result, state.server ≠ .done result) ∧
      next = { state with
        server := (state.server.receive policy peer sessionId (state.server.time clock) packet).1
        toServer := rest
        toClient := state.toClient ++
          (state.server.receive policy peer sessionId (state.server.time clock) packet).2 } := by
  obtain ⟨client, server, toServer, toClient⟩ := state
  dsimp only [Conversation.step] at moved
  split at moved
  · cases moved
  · cases moved
  · rename_i waiting
    exact ⟨_, _, rfl, waiting, (Option.some.inj moved).symm⟩

theorem to_client (moved : state.step policy peer sessionId login clock .toClient = some next) :
    ∃ packet rest, state.toClient = packet :: rest ∧ (∀ result, state.client ≠ .done result) ∧
      next = { state with
        client := (state.client.receive prim login sessionId packet).1
        toClient := rest
        toServer := state.toServer ++ (state.client.receive prim login sessionId packet).2 } := by
  obtain ⟨client, server, toServer, toClient⟩ := state
  dsimp only [Conversation.step] at moved
  split at moved
  · cases moved
  · cases moved
  · rename_i waiting
    exact ⟨_, _, rfl, waiting, (Option.some.inj moved).symm⟩

/-- The server learns that a client which has failed is gone. -/
theorem client_left (moved : state.step policy peer sessionId login clock (.clientLeft reason) = some next) :
    (∃ own, state.client = .done (.error own)) ∧ (∀ result, state.server ≠ .done result) ∧
      next = { state with server := .done (.error reason) } := by
  obtain ⟨client, server, toServer, toClient⟩ := state
  dsimp only [Conversation.step] at moved
  split at moved
  · cases moved
  · rename_i waiting
    exact ⟨⟨_, rfl⟩, waiting, (Option.some.inj moved).symm⟩
  · cases moved

/-- The client learns that a server which has failed is gone, when it has read everything. -/
theorem server_left (moved : state.step policy peer sessionId login clock (.serverLeft reason) = some next) :
    (∃ own, state.server = .done (.error own)) ∧ state.toClient = [] ∧ (∀ result, state.client ≠ .done result) ∧
      next = { state with client := .done (.error reason) } := by
  obtain ⟨client, server, toServer, toClient⟩ := state
  dsimp only [Conversation.step] at moved
  split at moved
  · cases moved
  · rename_i waiting
    exact ⟨⟨_, rfl⟩, rfl, waiting, (Option.some.inj moved).symm⟩
  · cases moved

/-- With no credential left there is none to accept. -/
theorem refused_all (few : login.credentials.length ≤ index) (refused : Refused policy peer login clock index)
    (count : Nat) : Refused policy peer login clock count := by
  intro other credential forceCommand _ there
  have inside := (List.getElem?_eq_some_iff.mp there).1
  exact refused other credential forceCommand (by omega) there

theorem stage_client_left (stage : Stage policy peer sessionId login clock state)
    (moved : state.step policy peer sessionId login clock (.clientLeft reason) = some next) :
    Stage policy peer sessionId login clock next := by
  obtain ⟨⟨own, failed⟩, waiting, rfl⟩ := client_left moved
  cases stage with
  | exhausted few early refused => exact .parted (refused_all few refused _)
  | parted => exact absurd rfl (waiting _)
  | asking | greeted | offered | denied | granted | agreed | overrun => cases failed

theorem stage_server_left (stage : Stage policy peer sessionId login clock state)
    (moved : state.step policy peer sessionId login clock (.serverLeft reason) = some next) :
    Stage policy peer sessionId login clock next := by
  obtain ⟨⟨own, failed⟩, read, waiting, rfl⟩ := server_left moved
  cases stage with
  | overrun refused => exact .parted refused
  | exhausted | parted => exact absurd rfl (waiting _)
  | denied => exact absurd read (append_ne_nil_of_right_ne_nil _ (cons_ne_nil _ _))
  | asking | greeted | offered | granted | agreed => cases failed

theorem stage_step (carried : Carried login policy)
    (unforged : ∀ index credential, login.credentials[index]? = some credential →
      Unforged policy peer sessionId login credential (clock index))
    (stage : Stage policy peer sessionId login clock state) (event : Event)
    (moved : state.step policy peer sessionId login clock event = some next) :
    Stage policy peer sessionId login clock next := by
  cases event with
  | toServer => exact stage_to_server carried unforged stage moved
  | toClient => exact stage_to_client carried stage moved
  | clientLeft reason => exact stage_client_left stage moved
  | serverLeft reason => exact stage_server_left stage moved

section Length

/-- Credentials that the client has not offered yet. -/
def Client.unoffered (login : Login) : Client → Nat
  | .opening => login.credentials.length
  | .offered rest _ => rest.length
  | .done _ => 0

/-- A side that has not returned. -/
def Client.running : Client → Nat
  | .done _ => 0
  | _ => 1

def Server.running : Server → Nat
  | .done _ => 0
  | _ => 1

/-- A bound on what is still to happen: a credential makes for a request, and a request for
an answer; the opening makes for two answers, the second of which is the banner. -/
def Conversation.weight (login : Login) (state : Conversation) : Nat :=
  4 * state.client.unoffered login + 3 * state.toServer.length + state.toClient.length +
    state.client.running + state.server.running

theorem Client.running_le (client : Client) : client.running ≤ 1 := by
  cases client <;> simp [running]

theorem Server.running_le (server : Server) : server.running ≤ 1 := by
  cases server <;> simp [running]

theorem Client.running_of_waiting {client : Client} (waiting : ∀ result, client ≠ .done result) :
    client.running = 1 := by
  cases client with
  | done result => exact absurd rfl (waiting result)
  | opening | offered => rfl

theorem Server.running_of_waiting {server : Server} (waiting : ∀ result, server ≠ .done result) :
    server.running = 1 := by
  cases server with
  | done result => exact absurd rfl (waiting result)
  | opening | serving => rfl

theorem offer_weight (rest : List Credential) (accepts : String) :
    4 * (Client.offer prim login sessionId rest accepts).1.unoffered login +
      3 * (Client.offer prim login sessionId rest accepts).2.length ≤ 4 * rest.length := by
  cases rest with
  | nil => exact Nat.le_refl _
  | cons credential rest =>
    simp only [Client.offer, Client.unoffered, length_cons, length_nil]
    omega

theorem client_weight (client : Client) (packet : Bytes) :
    4 * (client.receive prim login sessionId packet).1.unoffered login +
      3 * (client.receive prim login sessionId packet).2.length ≤ 4 * client.unoffered login := by
  cases client with
  | opening =>
    dsimp only [Client.receive]
    split
    · exact Nat.zero_le _
    · exact offer_weight _ _
  | offered rest accepts =>
    dsimp only [Client.receive]
    split
    · exact Nat.zero_le _
    · exact Nat.zero_le _
    · exact Nat.le_refl _
    · exact offer_weight _ _
  | done result => exact Nat.le_refl _

theorem server_sends (server : Server) (now : Nat) (packet : Bytes) :
    (server.receive policy peer sessionId now packet).2.length ≤ 2 := by
  cases server with
  | opening =>
    dsimp only [Server.receive]
    split
    · exact Nat.zero_le _
    · cases policy.banner with
      | none => exact Nat.le_succ 1
      | some text => exact Nat.le_refl 2
  | serving attempts =>
    dsimp only [Server.receive]
    split
    · exact Nat.zero_le _
    all_goals exact Nat.le_succ 1
  | done result => exact Nat.zero_le _

/-- Whatever happens, less is left to happen. -/
theorem step_weight {state next : Conversation} {event}
    (moved : state.step policy peer sessionId login clock event = some next) : next.weight login < state.weight login := by
  cases event with
  | toServer =>
    obtain ⟨packet, rest, first, waiting, rfl⟩ := to_server moved
    have sends := @server_sends prim policy peer sessionId state.server (state.server.time clock) packet
    have bounded := Server.running_le (state.server.receive policy peer sessionId (state.server.time clock) packet).1
    simp only [Conversation.weight, first, Server.running_of_waiting waiting, length_append, length_cons]
    omega
  | toClient =>
    obtain ⟨packet, rest, first, waiting, rfl⟩ := to_client moved
    have offers := @client_weight prim sessionId login state.client packet
    have bounded := Client.running_le (state.client.receive prim login sessionId packet).1
    simp only [Conversation.weight, first, Client.running_of_waiting waiting, length_append, length_cons]
    omega
  | clientLeft reason =>
    obtain ⟨-, waiting, rfl⟩ := client_left moved
    have gone : (Server.done (.error reason)).running = 0 := rfl
    simp only [Conversation.weight, Server.running_of_waiting waiting, gone]
    omega
  | serverLeft reason =>
    obtain ⟨-, -, waiting, rfl⟩ := server_left moved
    have gone : (Client.done (.error reason)).running = 0 := rfl
    simp only [Conversation.weight, Client.running_of_waiting waiting, gone, Client.unoffered]
    omega

end Length

open Runs in
theorem stage_of_path (carried : Carried login policy)
    (unforged : ∀ index credential, login.credentials[index]? = some credential →
      Unforged policy peer sessionId login credential (clock index))
    {events : List Event}
    (path : Path (Conversation.step policy peer sessionId login clock) .start events state) :
    Stage policy peer sessionId login clock state :=
  path_invariant (fun _ state => Stage policy peer sessionId login clock state) .asking
    (fun _ _ event _ _ moved stage => stage_step carried unforged stage event moved) path

open Runs in
/-- No conversation goes on forever. -/
theorem path_length {events : List Event}
    (path : Path (Conversation.step policy peer sessionId login clock) .start events state) :
    events.length ≤ 4 * login.credentials.length + 5 := by
  have bound := path_invariant
    (fun events state => events.length + Conversation.weight login state ≤ 4 * login.credentials.length + 5)
    (Nat.le_of_eq (by simp only [length_nil, Conversation.start, Conversation.weight, Client.unoffered, Client.running,
      Server.running, length_singleton]; omega))
    (fun past before event after _ moved bound => by
      have less := step_weight moved
      rw [length_append, length_singleton]
      omega) path
  omega

/-- Nothing more can happen. -/
def Conversation.Finished (policy : Policy prim) (peer : Option IpAddr) (sessionId : Bytes) (login : Login)
    (clock : Nat → Nat) (state : Conversation) : Prop :=
  ∀ event, state.step policy peer sessionId login clock event = none

/-- A conversation ends with an agreement, or with both sides failing and nothing to accept
among what was offered. -/
theorem finished_stage (stage : Stage policy peer sessionId login clock state)
    (finished : state.Finished policy peer sessionId login clock) :
    (∃ index credential forceCommand, login.credentials[index]? = some credential ∧ index < maxAttempts ∧
      Refused policy peer login clock index ∧ Acceptable policy peer (clock index) login credential forceCommand ∧
      state.client = .done (.ok ()) ∧ state.server = .done (.ok ⟨login.user, forceCommand⟩)) ∨
    (∃ reason other, state.client = .done (.error reason) ∧ state.server = .done (.error other)) ∧
      Refused policy peer login clock maxAttempts := by
  cases stage with
  | agreed here early refused acceptable => exact .inl ⟨_, _, _, here, early, refused, acceptable, rfl, rfl⟩
  | parted refused => exact .inr ⟨⟨_, _, rfl, rfl⟩, refused⟩
  | asking | offered => cases finished .toServer
  | greeted => cases finished .toClient
  | overrun => cases finished (.serverLeft (.io "unexpected end of file"))
  | @denied index accepts pending =>
    have idle := finished .toClient
    cases pending <;> cases idle
  | @granted index credential forceCommand rest accepts pending =>
    have idle := finished .toClient
    cases pending <;> cases idle
  | @exhausted reason index pending few early refused =>
    have idle := finished (.clientLeft (.io "unexpected end of file"))
    cases left : maxAttempts - index with
    | zero => exact .inr ⟨⟨_, _, rfl, rfl⟩, refused_all few refused _⟩
    | succ attempts =>
      rw [left] at idle
      cases idle

open Runs in
/-- Client and server agree, however the packets between them are scheduled. A conversation
ends; when it has ended, either both sides have succeeded or neither has. If one of the first
sixteen credentials is acceptable at the time it is decided, both have, for the client's user
and with the command of the first such credential. If none is, neither side ever does. -/
theorem client_and_server_agree (policy : Policy prim) (peer : Option IpAddr) (sessionId : Bytes) (login : Login)
    (clock : Nat → Nat) (carried : Carried login policy)
    (unforged : ∀ index credential, login.credentials[index]? = some credential →
      Unforged policy peer sessionId login credential (clock index))
    (events : List Event) (state : Conversation)
    (path : Path (Conversation.step policy peer sessionId login clock) .start events state) :
    events.length ≤ 4 * login.credentials.length + 5 ∧
    (state.Finished policy peer sessionId login clock →
      (state.client = .done (.ok ()) ↔ ∃ result, state.server = .done (.ok result)) ∧
      ∀ index credential forceCommand, index < maxAttempts → login.credentials[index]? = some credential →
        Acceptable policy peer (clock index) login credential forceCommand →
        ∃ first best command, login.credentials[first]? = some best ∧
          Acceptable policy peer (clock first) login best command ∧ Refused policy peer login clock first ∧
          state.client = .done (.ok ()) ∧ state.server = .done (.ok ⟨login.user, command⟩)) ∧
    ((∀ index credential forceCommand, login.credentials[index]? = some credential →
        ¬ Acceptable policy peer (clock index) login credential forceCommand) →
      state.client ≠ .done (.ok ()) ∧ ∀ result, state.server ≠ .done (.ok result)) := by
  have stage := stage_of_path carried unforged path
  refine ⟨path_length path, ?_, ?_⟩
  · intro finished
    rcases finished_stage stage finished with
      ⟨index, credential, forceCommand, here, early, refused, acceptable, client, server⟩ |
      ⟨⟨reason, other, client, server⟩, refused⟩
    · refine ⟨⟨fun _ => ⟨_, server⟩, fun _ => client⟩, ?_⟩
      intro _ _ _ _ _ _
      exact ⟨index, credential, forceCommand, here, acceptable, refused, client, server⟩
    · refine ⟨⟨?_, ?_⟩, ?_⟩
      · intro succeeded
        cases client.symm.trans succeeded
      · rintro ⟨result, succeeded⟩
        cases server.symm.trans succeeded
      · intro index credential forceCommand early here acceptable
        exact absurd acceptable (refused index credential forceCommand early here)
  · intro none
    cases stage with
    | granted here early refused acceptable => exact absurd acceptable (none _ _ _ here)
    | agreed here early refused acceptable => exact absurd acceptable (none _ _ _ here)
    | @denied index =>
      refine ⟨nofun, ?_⟩
      cases maxAttempts - (index + 1) <;> exact nofun
    | @exhausted reason index =>
      refine ⟨nofun, ?_⟩
      cases maxAttempts - index <;> exact nofun
    | asking | greeted | offered | overrun | parted => exact ⟨nofun, nofun⟩

end Conversation

namespace Sample

/-- A client whose first credential names another key. -/
def login : Login where
  user := "alice"
  credentials := [⟨algo, (PrivateKey.publicKey ⟨List.replicate 32 8,
    by decide⟩ : PublicKey .transparent).toBlob⟩, ⟨algo, blob⟩]
  signer := .key signer

/-- The banner comes before the first answer. -/
def events : List Event := [.toServer, .toClient, .toServer, .toClient, .toClient, .toServer, .toClient]

def agreement : Conversation := ⟨.done (.ok ()), .done (.ok ⟨"alice", none⟩), [], []⟩

end Sample

open Runs in
/-- The second credential logs in on both sides. -/
theorem second_credential_logs_in : ∃ state,
    Path (Conversation.step Sample.policy none Sample.sessionId Sample.login id) .start Sample.events state ∧
    ∃ first best command, Sample.login.credentials[first]? = some best ∧
      Acceptable Sample.policy none first Sample.login best command ∧ Refused Sample.policy none Sample.login id first ∧
      state.client = .done (.ok ()) ∧ state.server = .done (.ok ⟨"alice", command⟩) := by
  have listed : UserKey.fromBlob Sample.blob = .ok (.ed25519 Sample.signer.publicKey : UserKey .transparent) := by
    decide +kernel
  have carried : Carried Sample.login Sample.policy := by
    refine ⟨by decide +kernel, by decide +kernel, ?_⟩
    rintro _ ⟨⟩
    decide +kernel
  have unforged : ∀ index credential, Sample.login.credentials[index]? = some credential →
      Unforged Sample.policy none Sample.sessionId Sample.login credential index := by
    intro index credential _ key forceCommand admitted other
    cases admitted with
    | listed kind named member => exact absurd (mem_singleton.mp member) other
    | certified kind admits => cases admits.trusted
  have path : Path (Conversation.step Sample.policy none Sample.sessionId Sample.login id) .start Sample.events
      Sample.agreement := path_of_foldlM _ (by decide +kernel)
  have finished : Sample.agreement.Finished Sample.policy none Sample.sessionId Sample.login id := by
    intro event
    cases event <;> rfl
  have agree := client_and_server_agree Sample.policy none Sample.sessionId Sample.login id carried unforged Sample.events
    Sample.agreement path
  exact ⟨Sample.agreement, path, (agree.2.1 finished).2 1 ⟨algo, Sample.blob⟩ none (by decide) rfl
    ⟨.inr rfl, .listed (.inl rfl) listed (mem_singleton.mpr rfl)⟩⟩

end Auth

end Shh
