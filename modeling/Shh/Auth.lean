import Shh.Certificates

/-!
# Server-side user authentication

Public key only. After the service request the server answers at most sixteen
requests. Each is decided by itself: a request is refused, answered with the
go-ahead for a key worth signing with, accepted, or ends the conversation with
an error. Only a signed request by an authorized key over this session's own
span is accepted.

A conversation is the list of what the transport returned, turn by turn, with
the clock reading used for that request and whether the answer could be sent. A
conversation that ends before the server decides is still waiting.
-/

namespace Shh.Auth

open Wire Reader Computations

variable {prim : Primitives}

def serviceUserauth : String := "ssh-userauth"
def serviceConnection : String := "ssh-connection"

/-- A peer that cannot authenticate in this many requests is done trying. -/
def maxAttempts : Nat := 16

/-- The bytes a signature covers: the session identifier, then the request up to
and including the public-key blob. -/
def signedSpan (sessionId : Bytes) (user name : String) (blob : Bytes) : Bytes :=
  Writer.string sessionId ++ Writer.byte Msg.userauthRequest ++ Writer.utf8 user ++
    Writer.utf8 serviceConnection ++ Writer.utf8 "publickey" ++ Writer.boolean true ++
    Writer.utf8 name ++ Writer.string blob

/-- Who may log in. -/
structure Policy (prim : Primitives) where
  /-- Required username; `none` accepts any name. -/
  user : Option String
  keys : List (UserKey prim)
  trustedCas : List (PublicKey prim)
  banner : Option String

def sameKey (left right : PublicKey prim) : Bool := left.raw == right.raw

namespace Policy

def keyAuthorized (policy : Policy prim) (key : UserKey prim) : Bool :=
  policy.keys.any (fun listed => listed.keyMatches key)

def userAllowed (policy : Policy prim) (user : String) : Bool :=
  match policy.user with
  | some required => required == user
  | none => true

/-- The certified key and forced command of a certificate that passes every
check for this user, peer address and time. -/
def authorizeCert (policy : Policy prim) (blob : Bytes) (user : String) (peer : Option IpAddr)
    (now : Nat) : Option (UserKey prim × Option String) :=
  match (Certificate.parseAndVerify blob : Except Error (Certificate prim)) with
  | .error _ => none
  | .ok cert =>
    if cert.certType ≠ certTypeUser then none
    else if !policy.trustedCas.any (fun ca => sameKey ca cert.caKey) then none
    else if !cert.validAt now then none
    else if !cert.permitsPrincipal user then none
    else if !cert.permitsSource peer then none
    else some (cert.certifiedUserKey, cert.forceCommand)

/-- The key whose signature must be verified for a presented blob. -/
def authorized (policy : Policy prim) (user name : String) (blob : Bytes) (peer : Option IpAddr)
    (now : Nat) : Option (UserKey prim × Option String) :=
  if !policy.userAllowed user then none
  else if name = algo ∨ name = skAlgo then
    match (UserKey.fromBlob blob : Except Error (UserKey prim)) with
    | .ok key => if policy.keyAuthorized key then some (key, none) else none
    | .error _ => none
  else if name = certAlgo ∨ name = skCertAlgo then policy.authorizeCert blob user peer now
  else none

end Policy

/-- The result of a successful authentication. -/
structure Authenticated where
  user : String
  forceCommand : Option String
deriving DecidableEq, Repr

/-- What the server does with one request. -/
inductive Verdict where
  | reject
  | pkOk (name : String) (blob : Bytes)
  | accept (authenticated : Authenticated)
deriving DecidableEq, Repr

/-- The packet that answers a request. -/
def Verdict.packet : Verdict → Bytes
  | .reject => Writer.byte Msg.userauthFailure ++ Writer.nameList ["publickey"] ++ Writer.boolean false
  | .pkOk name blob => Writer.byte Msg.userauthPkOk ++ Writer.utf8 name ++ Writer.string blob
  | .accept _ => [Msg.userauthSuccess]

/-- Decide one request, reading only as much of it as the decision needs. -/
def readRequest (policy : Policy prim) (peer : Option IpAddr) (now : Nat) (sessionId : Bytes) :
    Reader Verdict := do
  let kind ← Reader.byte
  Reader.require (kind = Msg.userauthRequest) (.protocol "expected USERAUTH_REQUEST")
  let user ← Reader.utf8
  let service ← Reader.utf8
  let method ← Reader.utf8
  Reader.require (service = serviceConnection) (.auth s!"unknown service {debug service}")
  if method ≠ "publickey" then return .reject
  else
    let hasSig ← Reader.boolean
    let name ← Reader.utf8
    let blob ← Reader.string
    match policy.authorized user name blob peer now with
    | none => return .reject
    | some (verifyKey, forceCommand) =>
      if hasSig then
        let signature ← Reader.string
        Reader.finish
        if verifyKey.verify (signedSpan sessionId user name blob) signature = .ok () then
          return .accept ⟨user, forceCommand⟩
        else return .reject
      else
        Reader.finish
        return .pkOk name blob

def decideRequest (policy : Policy prim) (peer : Option IpAddr) (now : Nat) (sessionId packet : Bytes) :
    Except Error Verdict := (readRequest policy peer now sessionId).parse packet

/-- One exchange with the client: what was received, the time it was decided at
and whether the answer went out. -/
structure Turn where
  received : Except Error Bytes
  now : Nat
  sent : Except Error Unit

/-- How far the conversation got. -/
inductive Outcome where
  | waiting
  | failed (reason : Error)
  | authenticated (result : Authenticated)
deriving DecidableEq, Repr

/-- The request loop with its remaining attempts: the answers sent, in order, and
the outcome. -/
def requests (policy : Policy prim) (peer : Option IpAddr) (sessionId : Bytes) :
    Nat → List Turn → List Bytes × Outcome
  | 0, _ => ([], .failed (.auth "too many authentication attempts"))
  | _ + 1, [] => ([], .waiting)
  | attempts + 1, turn :: later =>
    match turn.received with
    | .error reason => ([], .failed reason)
    | .ok packet =>
      match decideRequest policy peer turn.now sessionId packet with
      | .error reason => ([], .failed reason)
      | .ok verdict =>
        match turn.sent with
        | .error reason => ([], .failed reason)
        | .ok () =>
          match verdict with
          | .accept result => ([verdict.packet], .authenticated result)
          | _ =>
            let (answers, outcome) := requests policy peer sessionId attempts later
            (verdict.packet :: answers, outcome)

/-- The opening message must ask for user authentication. -/
def readServiceRequest (packet : Bytes) : Except Error Unit :=
  Reader.parse (do
    let kind ← Reader.byte
    Reader.require (kind = Msg.serviceRequest) (.protocol "expected SERVICE_REQUEST ssh-userauth")
    let service ← Reader.utf8
    Reader.require (service = serviceUserauth) (.protocol "expected SERVICE_REQUEST ssh-userauth"))
    packet

/-- The banner, sent before the first request when the policy has one. -/
def bannerPacket (text : String) : Bytes :=
  Writer.byte Msg.userauthBanner ++ Writer.utf8 text ++ Writer.utf8 ""

/-- The server's side of a conversation. `bannerSent` is whether the banner, if
there is one, could be sent. -/
def server (policy : Policy prim) (peer : Option IpAddr) (sessionId : Bytes) (opening : Turn)
    (bannerSent : Except Error Unit) (turns : List Turn) : List Bytes × Outcome :=
  match opening.received with
  | .error reason => ([], .failed reason)
  | .ok packet =>
    match readServiceRequest packet with
    | .error reason => ([], .failed reason)
    | .ok () =>
      let accept := Writer.byte Msg.serviceAccept ++ Writer.utf8 serviceUserauth
      match opening.sent with
      | .error reason => ([], .failed reason)
      | .ok () =>
        match policy.banner with
        | none =>
          let (answers, outcome) := requests policy peer sessionId maxAttempts turns
          (accept :: answers, outcome)
        | some text =>
          match bannerSent with
          | .error reason => ([accept], .failed reason)
          | .ok () =>
            let (answers, outcome) := requests policy peer sessionId maxAttempts turns
            (accept :: bannerPacket text :: answers, outcome)

section Decisions

/-- Keys compare by their bytes. -/
theorem same_key_iff (left right : PublicKey prim) : sameKey left right = true ↔ left = right := by
  obtain ⟨leftRaw, leftSize, leftValid⟩ := left
  obtain ⟨rightRaw, rightSize, rightValid⟩ := right
  simp [sameKey]

namespace Policy

theorem key_authorized_iff (policy : Policy prim) (key : UserKey prim) :
    policy.keyAuthorized key = true ↔ key ∈ policy.keys := by
  simp [keyAuthorized, UserKey.key_matches_iff]

theorem user_allowed_iff (policy : Policy prim) (user : String) :
    policy.userAllowed user = true ↔ policy.user = none ∨ policy.user = some user := by
  unfold userAllowed
  cases policy.user with
  | none | some => simp

end Policy

/-- Everything that is checked of a certificate before its key may log in. -/
structure CertAdmits (policy : Policy prim) (blob : Bytes) (user : String) (peer : Option IpAddr)
    (now : Nat) (cert : Certificate prim) : Prop where
  parsed : Certificate.parseAndVerify blob = .ok cert
  signed : Certificate.CaSigned cert.caKey blob
  userType : cert.certType = certTypeUser
  trusted : cert.caKey ∈ policy.trustedCas
  inWindow : cert.validAfter ≤ now ∧ now < cert.validBefore
  principal : cert.principals = [] ∨ user ∈ cert.principals
  source : ∀ list, cert.sourceAddress = some list →
    ∃ address, peer = some address ∧ SourceAddress.sourceAddressPermits list address = true

/-- The source-address option, when present, needs a known and admitted peer. -/
theorem permits_source_iff (cert : Certificate prim) (peer : Option IpAddr) :
    cert.permitsSource peer = true ↔ ∀ list, cert.sourceAddress = some list →
      ∃ address, peer = some address ∧ SourceAddress.sourceAddressPermits list address = true := by
  unfold Certificate.permitsSource
  cases cert.sourceAddress with
  | none => simp
  | some list =>
    cases peer with
    | none | some => simp

/-- A certificate that passes the checks yields its own key and forced command. -/
theorem authorize_cert_some (policy : Policy prim) (blob : Bytes) (user : String)
    (peer : Option IpAddr) (now : Nat) (key : UserKey prim) (forceCommand : Option String)
    (granted : policy.authorizeCert blob user peer now = some (key, forceCommand)) :
    ∃ cert, CertAdmits policy blob user peer now cert ∧ key = cert.certifiedUserKey ∧
      forceCommand = cert.forceCommand := by
  unfold Policy.authorizeCert at granted
  split at granted
  · simp at granted
  · rename_i cert parsed
    simp only [ne_eq, ite_not, Bool.not_eq_true', Option.ite_none_right_eq_some,
      Option.ite_none_left_eq_some, Bool.not_eq_false, Option.some.injEq, Prod.mk.injEq] at granted
    obtain ⟨userType, trusted, inWindow, principal, source, rfl, rfl⟩ := granted
    refine ⟨cert, ⟨parsed, ?_, userType, ?_, ?_, ?_, (permits_source_iff cert peer).mp source⟩,
      rfl, rfl⟩
    · exact Certificate.parse_and_verify_blob blob cert parsed ▸ cert.signed
    · simpa [same_key_iff] using trusted
    · exact (cert.valid_at_iff now).mp inWindow
    · simpa [Certificate.permitsPrincipal] using principal

/-- Why a key may log in with a forced command: it is listed, or certified. -/
inductive Authorizes (policy : Policy prim) (blob : Bytes) (user : String) (peer : Option IpAddr)
    (now : Nat) (key : UserKey prim) : Option String → Prop where
  | listed (named : UserKey.fromBlob blob = .ok key) (member : key ∈ policy.keys) :
      Authorizes policy blob user peer now key none
  | certified (cert : Certificate prim) (admits : CertAdmits policy blob user peer now cert)
      (certifies : key = cert.certifiedUserKey) :
      Authorizes policy blob user peer now key cert.forceCommand

theorem authorized_some (policy : Policy prim) (user name : String) (blob : Bytes)
    (peer : Option IpAddr) (now : Nat) (key : UserKey prim) (forceCommand : Option String)
    (granted : policy.authorized user name blob peer now = some (key, forceCommand)) :
    (policy.user = none ∨ policy.user = some user) ∧
      Authorizes policy blob user peer now key forceCommand := by
  unfold Policy.authorized at granted
  split at granted
  · simp at granted
  · rename_i allowed
    refine ⟨(policy.user_allowed_iff user).mp (by simpa using allowed), ?_⟩
    split at granted
    · split at granted
      · rename_i presented named
        split at granted
        · rename_i member
          cases granted
          exact .listed named ((policy.key_authorized_iff _).mp member)
        · simp at granted
      · simp at granted
    · split at granted
      · obtain ⟨cert, admits, certifies, rfl⟩ := authorize_cert_some _ _ _ _ _ _ _ granted
        exact .certified cert admits certifies
      · simp at granted

/-- A security key that verifies asserted the user's presence. -/
theorem verify_sk_present (key : UserKey prim) (message signature : Bytes)
    (accepted : key.verify message signature = .ok ()) (hardware : SkPublicKey prim)
    (kind : key = .sk hardware) :
    ∃ raw flags counter, SkPublicKey.readAssertion signature = .ok (raw, flags, counter) ∧
      flags &&& SkPublicKey.flagUserPresent ≠ 0 := by
  subst kind
  obtain ⟨raw, flags, counter, parsed, present, -⟩ := SkPublicKey.verify_ok _ _ _ accepted
  exact ⟨raw, flags, counter, parsed, present⟩

/-- The bytes of a public-key request that carries a signature. Any nonzero flag
reads as true. -/
def signedRequest (flag : UInt8) (user name : String) (blob signature : Bytes) : Bytes :=
  Writer.byte Msg.userauthRequest ++ Writer.utf8 user ++ Writer.utf8 serviceConnection ++
    Writer.utf8 "publickey" ++ [flag] ++ Writer.utf8 name ++ Writer.string blob ++
    Writer.string signature

/-- Everything an accepted request established about itself: it is a signed
public-key request for the user, allowed by the policy, and its signature covers
this session's span under an authorized key. -/
structure Justified (policy : Policy prim) (peer : Option IpAddr) (now : Nat)
    (sessionId packet : Bytes) (result : Authenticated) (key : UserKey prim) (name : String)
    (blob signature : Bytes) : Prop where
  request : ∃ flag, flag ≠ 0 ∧ packet = signedRequest flag result.user name blob signature
  userAllowed : policy.user = none ∨ policy.user = some result.user
  verified : key.verify (signedSpan sessionId result.user name blob) signature = .ok ()
  authorizes : Authorizes policy blob result.user peer now key result.forceCommand
  present : ∀ hardware, key = .sk hardware → ∃ raw flags counter,
    SkPublicKey.readAssertion signature = .ok (raw, flags, counter) ∧
      flags &&& SkPublicKey.flagUserPresent ≠ 0

/-- Only a justified request is accepted. -/
theorem decide_accept (policy : Policy prim) (peer : Option IpAddr) (now : Nat)
    (sessionId packet : Bytes) (result : Authenticated)
    (accepted : decideRequest policy peer now sessionId packet = .ok (.accept result)) :
    ∃ key name blob signature,
      Justified policy peer now sessionId packet result key name blob signature := by
  simp only [decideRequest, readRequest, parse_ok, byte_bind_ok,
    require_bind_ok, utf8_bind_ok] at accepted
  obtain ⟨left, kind, afterKind, rfl, rfl, user, afterUser, ⟨rfl, -⟩, service, afterService,
    ⟨rfl, -⟩, method, afterMethod, ⟨rfl, -⟩, rfl, continued⟩ := accepted
  split at continued
  · simp [pure_ok] at continued
  · rename_i publickey
    simp only [ne_eq, Decidable.not_not] at publickey
    simp only [boolean_bind_ok, utf8_bind_ok, string_bind_ok] at continued
    obtain ⟨flag, afterFlag, rfl, name, afterName, ⟨rfl, -⟩, blob, afterBlob, ⟨rfl, -⟩,
      decision⟩ := continued
    cases granted : policy.authorized user name blob peer now with
    | none => simp [granted, pure_ok] at decision
    | some grant =>
      obtain ⟨key, forceCommand⟩ := grant
      simp only [granted] at decision
      split at decision
      · rename_i hasSig
        simp only [string_bind_ok, finish_bind_ok] at decision
        obtain ⟨signature, afterSignature, ⟨rfl, -⟩, rfl, answer⟩ := decision
        split at answer
        · rename_i verified
          obtain ⟨rfl, -⟩ : result = ⟨user, forceCommand⟩ ∧ left = [] := by
            simpa [pure_ok] using answer
          obtain ⟨allowed, authorizes⟩ := authorized_some _ _ _ _ _ _ _ _ granted
          refine ⟨key, name, blob, signature, ⟨flag, by simpa using hasSig, ?_⟩, allowed,
            verified, authorizes, fun hardware => verify_sk_present key _ _ verified hardware⟩
          simp [signedRequest, publickey, Writer.byte]
        · simp [pure_ok] at answer
      · simp only [finish_bind_ok, pure_ok] at decision
        simp at decision

end Decisions

section Conversations

/-- A turn that was answered and left the decision to later ones. -/
def Unfinished (policy : Policy prim) (peer : Option IpAddr) (sessionId : Bytes) (turn : Turn) : Prop :=
  ∃ packet verdict, turn.received = .ok packet ∧
    decideRequest policy peer turn.now sessionId packet = .ok verdict ∧
    (∀ result, verdict ≠ .accept result) ∧ turn.sent = .ok ()

/-- A turn whose request was accepted and the acceptance sent. -/
def Accepts (policy : Policy prim) (peer : Option IpAddr) (sessionId : Bytes) (turn : Turn)
    (result : Authenticated) : Prop :=
  ∃ packet, turn.received = .ok packet ∧
    decideRequest policy peer turn.now sessionId packet = .ok (.accept result) ∧ turn.sent = .ok ()

variable (policy : Policy prim) (peer : Option IpAddr) (sessionId : Bytes)

/-- An unfinished turn costs one attempt and leaves no other trace. -/
theorem requests_unfinished (attempts : Nat) (turn : Turn) (later : List Turn)
    (unfinished : Unfinished policy peer sessionId turn) :
    (requests policy peer sessionId (attempts + 1) (turn :: later)).2 =
      (requests policy peer sessionId attempts later).2 := by
  obtain ⟨packet, verdict, received, decided, undecided, sent⟩ := unfinished
  cases verdict with
  | accept granted => exact absurd rfl (undecided granted)
  | reject | pkOk => simp only [requests, received, decided, sent]

/-- An accepted turn ends the loop, whatever would have come later. -/
theorem requests_accepts (attempts : Nat) (turn : Turn) (later : List Turn) (result : Authenticated)
    (accepts : Accepts policy peer sessionId turn result) :
    (requests policy peer sessionId (attempts + 1) (turn :: later)).2 = .authenticated result := by
  obtain ⟨packet, received, decided, sent⟩ := accepts
  simp only [requests, received, decided, sent]

/-- A turn is unfinished, accepts, or fails the whole conversation. -/
theorem turn_cases (turn : Turn) :
    Unfinished policy peer sessionId turn ∨ (∃ result, Accepts policy peer sessionId turn result) ∨
      ∃ reason, ∀ attempts later,
        (requests policy peer sessionId (attempts + 1) (turn :: later)).2 = .failed reason := by
  cases received : turn.received with
  | error reason => exact .inr (.inr ⟨reason, by simp [requests, received]⟩)
  | ok packet =>
    cases decided : decideRequest policy peer turn.now sessionId packet with
    | error reason => exact .inr (.inr ⟨reason, by simp [requests, received, decided]⟩)
    | ok verdict =>
      cases sent : turn.sent with
      | error reason => exact .inr (.inr ⟨reason, by simp [requests, received, decided, sent]⟩)
      | ok done =>
        cases verdict with
        | accept granted => exact .inr (.inl ⟨granted, packet, received, decided, sent⟩)
        | reject => exact .inl ⟨packet, .reject, received, decided, by simp, sent⟩
        | pkOk name blob => exact .inl ⟨packet, .pkOk name blob, received, decided, by simp, sent⟩

/-- The loop authenticates exactly at the first accepted request, when fewer
unfinished requests than the limit came before it.

Induction on the remaining attempts follows the loop: an accepted turn ends the
split with no earlier requests, and an unfinished turn is prepended to the split
of the rest. -/
theorem requests_authenticated_iff (attempts : Nat) (turns : List Turn) (result : Authenticated) :
    (requests policy peer sessionId attempts turns).2 = .authenticated result ↔
      ∃ earlier turn later, turns = earlier ++ turn :: later ∧ earlier.length < attempts ∧
        (∀ before ∈ earlier, Unfinished policy peer sessionId before) ∧
        Accepts policy peer sessionId turn result := by
  induction attempts generalizing turns with
  | zero => simp [requests]
  | succ attempts ih =>
    cases turns with
    | nil => simp [requests]
    | cons turn later =>
      constructor
      · intro accepted
        rcases turn_cases policy peer sessionId turn with unfinished | ⟨granted, accepts⟩ | ⟨reason, fails⟩
        · rw [requests_unfinished policy peer sessionId attempts turn later unfinished] at accepted
          obtain ⟨earlier, last, rest, rfl, fewer, allUnfinished, accepts⟩ :=
            (ih later).mp accepted
          refine ⟨turn :: earlier, last, rest, rfl, Nat.succ_lt_succ fewer, ?_, accepts⟩
          exact List.forall_mem_cons.mpr ⟨unfinished, allUnfinished⟩
        · rw [requests_accepts policy peer sessionId attempts turn later granted accepts] at accepted
          obtain rfl := Outcome.authenticated.inj accepted
          exact ⟨[], turn, later, rfl, Nat.succ_pos _, by simp, accepts⟩
        · simp [fails attempts later] at accepted
      · rintro ⟨earlier, last, rest, split, fewer, unfinished, accepts⟩
        cases earlier with
        | nil =>
          obtain ⟨rfl, rfl⟩ := List.cons.inj split
          exact requests_accepts policy peer sessionId attempts turn later result accepts
        | cons before earlier =>
          obtain ⟨rfl, rfl⟩ := List.cons.inj split
          obtain ⟨first, others⟩ := List.forall_mem_cons.mp unfinished
          rw [requests_unfinished policy peer sessionId attempts turn _ first]
          exact (ih _).mpr
            ⟨earlier, last, rest, rfl, Nat.lt_of_succ_lt_succ fewer, others, accepts⟩

/-- Past a good opening, the outcome is that of the request loop. -/
theorem server_outcome (opening : Turn) (bannerSent : Except Error Unit) :
    (∀ turns, (server policy peer sessionId opening bannerSent turns).2 =
        (requests policy peer sessionId maxAttempts turns).2) ∨
      ∃ reason, ∀ turns, (server policy peer sessionId opening bannerSent turns).2 = .failed reason := by
  cases received : opening.received with
  | error reason => exact .inr ⟨reason, by simp [server, received]⟩
  | ok packet =>
    cases asked : readServiceRequest packet with
    | error reason => exact .inr ⟨reason, by simp [server, received, asked]⟩
    | ok done =>
      cases sent : opening.sent with
      | error reason => exact .inr ⟨reason, by simp [server, received, asked, sent]⟩
      | ok done =>
        cases banner : policy.banner with
        | none => exact .inl (by simp [server, received, asked, sent, banner])
        | some text =>
          cases bannerSent with
          | error reason => exact .inr ⟨reason, by simp [server, received, asked, sent, banner]⟩
          | ok done => exact .inl (by simp [server, received, asked, sent, banner])

end Conversations

/-- Authentication is sound. The result comes from one request, itself justified
in full; the requests before it were all refused or probes, and any others in
their place, as long as the limit is kept, give the same result, as does any
continuation. -/
theorem server_authenticated_sound (policy : Policy prim) (peer : Option IpAddr) (sessionId : Bytes)
    (opening : Turn) (bannerSent : Except Error Unit) (turns : List Turn) (result : Authenticated)
    (authenticated :
      (server policy peer sessionId opening bannerSent turns).2 = .authenticated result) :
    ∃ earlier turn later packet, turns = earlier ++ turn :: later ∧ turn.received = .ok packet ∧
      earlier.length < maxAttempts ∧
      (∃ key name blob signature,
        Justified policy peer turn.now sessionId packet result key name blob signature) ∧
      ∀ others continuation, others.length < maxAttempts →
        (∀ other ∈ others, Unfinished policy peer sessionId other) →
        (server policy peer sessionId opening bannerSent (others ++ turn :: continuation)).2 =
          .authenticated result := by
  rcases server_outcome policy peer sessionId opening bannerSent with looped | ⟨reason, fails⟩
  · rw [looped] at authenticated
    obtain ⟨earlier, turn, later, rfl, fewer, -, accepts⟩ :=
      (requests_authenticated_iff policy peer sessionId maxAttempts turns result).mp authenticated
    obtain ⟨packet, received, decided, sent⟩ := accepts
    refine ⟨earlier, turn, later, packet, rfl, received, fewer, decide_accept _ _ _ _ _ _ decided, ?_⟩
    intro others continuation few unfinished
    rw [looped]
    exact (requests_authenticated_iff policy peer sessionId maxAttempts _ result).mpr
      ⟨others, turn, continuation, rfl, few, unfinished, packet, received, decided, sent⟩
  · simp [fails turns] at authenticated

namespace Sample

/-- A user whose seed is a single repeated byte. -/
def signer : PrivateKey := ⟨List.replicate 32 7, by decide⟩

def policy : Policy .transparent :=
  ⟨some "alice", [.ed25519 signer.publicKey], [], some "welcome"⟩

def sessionId : Bytes := [1, 2, 3]

def opening : Turn :=
  ⟨.ok (Writer.byte Msg.serviceRequest ++ Writer.utf8 serviceUserauth), 0, .ok ()⟩

/-- The customary probe for methods, which is refused. -/
def probe : Turn :=
  ⟨.ok (Writer.byte Msg.userauthRequest ++ Writer.utf8 "alice" ++ Writer.utf8 serviceConnection ++
    Writer.utf8 "none"), 100, .ok ()⟩

def blob : Bytes := (signer.publicKey : PublicKey .transparent).toBlob

def request : Turn :=
  ⟨.ok (signedRequest 1 "alice" algo blob
    (signer.sign .transparent (signedSpan sessionId "alice" algo blob))), 101, .ok ()⟩

end Sample

/-- A probe and then a signed request authenticate, and the request justifies it. -/
theorem server_authenticated_sound_sample :
    ∃ earlier turn later packet, [Sample.probe, Sample.request] = earlier ++ turn :: later ∧
      turn.received = .ok packet ∧ ∃ key name blob signature,
        Justified Sample.policy none turn.now Sample.sessionId packet ⟨"alice", none⟩ key name blob
          signature := by
  have authenticated : (server Sample.policy none Sample.sessionId Sample.opening (.ok ())
      [Sample.probe, Sample.request]).2 = .authenticated ⟨"alice", none⟩ := by decide +kernel
  obtain ⟨earlier, turn, later, packet, split, received, -, justified, -⟩ :=
    server_authenticated_sound _ _ _ _ _ _ _ authenticated
  exact ⟨earlier, turn, later, packet, split, received, justified⟩

end Shh.Auth
