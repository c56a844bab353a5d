import Shh.Issuing
import Shh.KeyExchange
import Shh.Logins
import Shh.AgentClient

/-!
# What a signature binds

A login is signed over a span that holds the session, the user, the name of the algorithm and
the key; a host signs the hash of an exchange's transcript. Both texts are sequences of strings
with their lengths in front, so they determine their fields, and the one is never the other.

The server checks a login's signature under the key that leads the presented blob. The name in
the request only chooses between keys and certificates, so the name that is signed and the
form of signature that is checked can differ.

The agent signs with a bare key, whatever blob it holds the key under. It takes a certificate
by the point it certifies, so a security-key certificate for the same point is held too, and
no signature made for that one is of any use.
-/

namespace Shh

open List Option Wire Reader Writer Computations Certificate

variable {prim : Primitives}

section Texts

/-- What an authentication signature covers, in strings that the wire can carry. -/
@[ext] structure Span where
  sessionId : Bytes
  user : String
  name : String
  blob : Bytes
  session_fits : sessionId.length < 2 ^ 32
  user_fits : (utf8Bytes user).length < 2 ^ 32
  name_fits : (utf8Bytes name).length < 2 ^ 32
  blob_fits : blob.length < 2 ^ 32

def Span.bytes (span : Span) : Bytes := Auth.signedSpan span.sessionId span.user span.name span.blob

/-- What an exchange hash covers. The secret comes already encoded and is the last field. -/
@[ext] structure Transcript where
  vC : String
  vS : String
  iC : Bytes
  iS : Bytes
  kS : Bytes
  qC : Bytes
  qS : Bytes
  k : Bytes
  client_version_fits : (utf8Bytes vC).length < 2 ^ 32
  server_version_fits : (utf8Bytes vS).length < 2 ^ 32
  client_init_fits : iC.length < 2 ^ 32
  server_init_fits : iS.length < 2 ^ 32
  host_key_fits : kS.length < 2 ^ 32
  client_point_fits : qC.length < 2 ^ 32
  server_point_fits : qS.length < 2 ^ 32

namespace Transcript

/-- The hashed bytes. -/
def input (t : Transcript) : Bytes :=
  Writer.utf8 t.vC ++ Writer.utf8 t.vS ++ Writer.string t.iC ++ Writer.string t.iS ++ Writer.string t.kS ++
    Writer.string t.qC ++ Writer.string t.qS ++ t.k

def hash (prim : Primitives) (t : Transcript) : Bytes := exchangeHash prim t.vC t.vS t.iC t.iS t.kS t.qC t.qS t.k

end Transcript

/-- A span is read off its bytes string by string. -/
theorem span_bytes_injective : Function.Injective Span.bytes := by
  intro left right same
  simp only [Span.bytes, Auth.signedSpan, append_assoc] at same
  obtain ⟨session, afterSession⟩ := string_append_injective left.session_fits right.session_fits same
  have afterKind := append_cancel_left afterSession
  obtain ⟨user, afterUser⟩ := utf8_append_injective left.user_fits right.user_fits afterKind
  have afterMethod := append_cancel_left (append_cancel_left (append_cancel_left afterUser))
  obtain ⟨name, afterName⟩ := utf8_append_injective left.name_fits right.name_fits afterMethod
  obtain ⟨blob, -⟩ := string_append_injective left.blob_fits right.blob_fits
    (congrArg (· ++ []) afterName)
  exact Span.ext session user name blob

/-- So is a transcript, and what remains is the secret. -/
theorem transcript_input_injective : Function.Injective Transcript.input := by
  intro left right same
  simp only [Transcript.input, append_assoc] at same
  obtain ⟨clientVersion, same⟩ := utf8_append_injective left.client_version_fits right.client_version_fits same
  obtain ⟨serverVersion, same⟩ := utf8_append_injective left.server_version_fits right.server_version_fits same
  obtain ⟨clientInit, same⟩ := string_append_injective left.client_init_fits right.client_init_fits same
  obtain ⟨serverInit, same⟩ := string_append_injective left.server_init_fits right.server_init_fits same
  obtain ⟨hostKey, same⟩ := string_append_injective left.host_key_fits right.host_key_fits same
  obtain ⟨clientPoint, same⟩ := string_append_injective left.client_point_fits right.client_point_fits same
  obtain ⟨serverPoint, secret⟩ := string_append_injective left.server_point_fits right.server_point_fits same
  exact Transcript.ext clientVersion serverVersion clientInit serverInit hostKey clientPoint serverPoint secret

/-- **Signed and hashed byte strings determine their fields.** Equal spans have the same
session, user, name and blob; equal hash inputs have the same eight fields, however the
secret is encoded; and the span of a session with a 32-byte identifier is no exchange hash,
nor any other text of 32 bytes. -/
theorem signed_texts_determine_fields (prim : Primitives) :
    (∀ left right : Span, left.bytes = right.bytes →
      left.sessionId = right.sessionId ∧ left.user = right.user ∧ left.name = right.name ∧ left.blob = right.blob) ∧
    (∀ left right : Transcript, left.input = right.input →
      left.vC = right.vC ∧ left.vS = right.vS ∧ left.iC = right.iC ∧ left.iS = right.iS ∧ left.kS = right.kS ∧
        left.qC = right.qC ∧ left.qS = right.qS ∧ left.k = right.k) ∧
    (∀ t : Transcript, t.hash prim = prim.sha256 t.input ∧ (t.hash prim).length = 32) ∧
    ∀ (span : Span) (hash : Bytes), span.sessionId.length = 32 → hash.length = 32 → span.bytes ≠ hash := by
  refine ⟨?_, ?_, fun t => ⟨rfl, prim.sha256_size _⟩, ?_⟩
  · intro left right same
    obtain rfl := span_bytes_injective same
    exact ⟨rfl, rfl, rfl, rfl⟩
  · intro left right same
    obtain rfl := transcript_input_injective same
    exact ⟨rfl, rfl, rfl, rfl, rfl, rfl, rfl, rfl⟩
  · intro span hash session size same
    -- The session identifier alone, with its length in front, is longer than a hash.
    have longer : 36 ≤ span.bytes.length := by
      simp only [Span.bytes, Auth.signedSpan, length_append, string_length, session]
      omega
    rw [same, size] at longer
    omega

end Texts

namespace Auth

section Names

variable {now : Nat} {forceCommand : Option String}

/-- In every conversation under the policy, an accepted request names the type that leads
its key or certificate. -/
def NamesMatch (policy : Policy prim) : Prop :=
  ∀ (peer : Option IpAddr) (sessionId : Bytes) (opening : Turn) (bannerSent : Except Error Unit) (earlier : List Turn)
    (turn : Turn) (later : List Turn) (result : Authenticated) (flag : UInt8) (name : String) (blob signature : Bytes),
    (server policy peer sessionId opening bannerSent (earlier ++ turn :: later)).2 = .authenticated result →
    (∀ before ∈ earlier, Unfinished policy peer sessionId before) → Accepts policy peer sessionId turn result →
    turn.received = .ok (signedRequest flag result.user name blob signature) →
    (utf8Bytes name).length < 2 ^ 32 → blob.length < 2 ^ 32 → signature.length < 2 ^ 32 →
    Reader.utf8.parse blob = .ok name

/-- The keys of a policy are those of key pairs that somebody holds, and its strings can be
written in a request. -/
structure Held (policy : Policy prim) : Prop where
  user : ∀ user ∈ policy.user, (utf8Bytes user).length < 2 ^ 32
  keys : ∀ key ∈ policy.keys, key.toBlob.length < 2 ^ 32 ∧ ∃ signer : SignWith, key = signer.userKey
  authorities : ∀ ca ∈ policy.trustedCas, ∃ authority : PrivateKey, ca = authority.publicKey
  banner : ∀ text ∈ policy.banner, (utf8Bytes text).length < 2 ^ 32

variable {policy : Policy prim}

section

variable {login : Login}
  {credential : Credential}
  (carried : Carried login policy)
  (member : credential ∈ login.credentials)

include carried member

/-- A conversation that consists of one acceptable login ends with it. -/
theorem single_login_accepted
    (acceptable : Acceptable policy none now login credential forceCommand) :
    Accepts policy none [] ⟨.ok (login.request prim [] credential), now, .ok ()⟩ ⟨login.user, forceCommand⟩ ∧
      (server policy none [] Sample.opening (.ok ()) ([] ++ ⟨.ok (login.request prim [] credential),
      now, .ok ()⟩ :: [])).2 =
        .authenticated ⟨login.user, forceCommand⟩ := by
  have accepts : Accepts policy none [] ⟨.ok (login.request prim [] credential), now,
    .ok ()⟩ ⟨login.user, forceCommand⟩ :=
    ⟨_, rfl, decide_acceptable carried member acceptable, rfl⟩
  have opened : readServiceRequest (Writer.byte Msg.serviceRequest ++ Writer.utf8 serviceUserauth) = .ok () := by
    decide +kernel
  refine ⟨accepts, ?_⟩
  have looped := requests_accepts policy none [] 15 _ [] _ accepts
  unfold server
  simp only [Sample.opening, opened]
  cases policy.banner with
  | none | some => exact looped

/-- A login whose credential is named otherwise than its blob, and accepted, crosses the names. -/
theorem names_cross {lead} (leads : Reader.utf8.parse credential.blob = .ok lead)
    (crossed : credential.name ≠ lead)
    (acceptable : Acceptable policy none now login credential forceCommand) : ¬ NamesMatch policy := by
  intro names
  obtain ⟨accepts, authenticated⟩ := single_login_accepted carried member acceptable
  obtain ⟨nameFits, blobFits⟩ := carried.credentials credential member
  have request : login.request prim [] credential = signedRequest 1 login.user credential.name credential.blob
      (login.signer.sign prim (signedSpan [] login.user credential.name credential.blob)) := rfl
  have named := names none [] _ _ [] _ [] _ 1 _ _ _ authenticated (by simp) accepts
    (congrArg _ request) nameFits blobFits
    (sign_short _ _)
  exact crossed (Except.ok.inj (named.symm.trans leads))

end

/-- A user that the policy admits and a request can carry. -/
theorem some_user_admitted (held : Held policy) :
    ∃ user, (policy.user = none ∨ policy.user = some user) ∧ (utf8Bytes user).length < 2 ^ 32 := by
  cases required : policy.user with
  | none => exact ⟨"", .inl rfl, by decide⟩
  | some user => exact ⟨user, .inr rfl, held.user user required⟩

theorem listed_key_crosses (held : Held policy) {key : UserKey prim} (listed : key ∈ policy.keys) :
    ¬ NamesMatch policy := by
  obtain ⟨user, admitted, userFits⟩ := some_user_admitted held
  obtain ⟨short, signer, rfl⟩ := held.keys key listed
  have fits : (signer.userKey : UserKey prim).Fits := by
    cases signer with
    | key secret => trivial
    | securityKey secret =>
      simp only [SignWith.userKey, UserKey.toBlob, SkPublicKey.toBlob, Writer.utf8, length_append,
        string_length] at short
      simp only [SignWith.userKey, UserKey.Fits]
      omega
  obtain ⟨name, kind, other⟩ : ∃ name, (name = algo ∨ name = skAlgo) ∧ name ≠ (signer.userKey : UserKey prim).algo := by
    cases signer with
    | key secret => exact ⟨skAlgo, .inr rfl, (by decide +kernel : skAlgo ≠ algo)⟩
    | securityKey secret => exact ⟨algo, .inl rfl, (by decide +kernel : algo ≠ skAlgo)⟩
  have nameFits : (utf8Bytes name).length < 2 ^ 32 := by
    rcases kind with rfl | rfl <;> decide +kernel
  let login : Login := ⟨user, [⟨name, (signer.userKey : UserKey prim).toBlob⟩], signer⟩
  have carried : Carried login policy := by
    refine ⟨userFits, ?_, held.banner⟩
    simp only [login, mem_singleton]
    rintro credential rfl
    exact ⟨nameFits, short⟩
  have acceptable : Acceptable policy none 0 login ⟨name, (signer.userKey : UserKey prim).toBlob⟩ none :=
    ⟨admitted, .listed kind (UserKey.from_blob_ok.mpr ⟨rfl, fits⟩) listed⟩
  exact names_cross carried mem_cons_self (UserKey.to_blob_leads _) other acceptable

/-- An authority's certificate for its own key, open to every user from the start of time. -/
def ownDraft (authority : PrivateKey) : Draft prim where
  key := authority.publicKey
  skApplication := none
  certType := 1
  options := ⟨none, none⟩
  serial := 0
  keyId := ""
  principals := []
  validAfter := 0
  validBefore := 1

/-- The certificate is issued, fits a request and starts with the certificate algorithm. -/
theorem own_certificate (prim : Primitives) (authority : PrivateKey) :
    ∃ blob, signCert authority (fun _ => 0) (ownDraft authority : Draft prim) = some blob ∧ blob.length < 2 ^ 32 ∧
      Reader.utf8.parse blob = .ok certAlgo := by
  have fits : (ownDraft authority : Draft prim).Fits := by simp [Draft.Fits, ownDraft, packStringList, CertOptions.Fits,
    CertOptions.critical, CertOptions.part, utf8Bytes]
  refine ⟨_, if_pos fits, ?_, ?_⟩
  · have certName : (utf8Bytes certAlgo).length = 32 := by decide +kernel
    have keyName : (utf8Bytes algo).length = 11 := by decide +kernel
    have extensions := @extensions_length prim (ownDraft authority)
    have others : (utf8Bytes "").length = 0 ∧ (packStringList []).length = 0 ∧
      (CertOptions.critical ⟨none, none⟩).length = 0 := by
      decide
    simp only [Draft.body, length_append, string_length, Writer.utf8, u64_length, u32_length,
      PublicKey.toBlob, PrivateKey.sign, prim.sign_size, PublicKey.size, length_ofFn, length_nil, keyName]
    simp only [ownDraft, isSome_none, Bool.false_eq_true, if_false, elim_none, length_nil, certName,
      others] at extensions ⊢
    omega
  · exact read_leads (issued_read (if_pos fits)).2

theorem trusted_authority_crosses (held : Held policy) {ca : PublicKey prim} (trusted : ca ∈ policy.trustedCas) :
    ¬ NamesMatch policy := by
  obtain ⟨user, admitted, userFits⟩ := some_user_admitted held
  obtain ⟨authority, rfl⟩ := held.authorities ca trusted
  obtain ⟨blob, issued, short, leads⟩ := own_certificate prim authority
  obtain ⟨cert, accepted, stated⟩ := issued_accepted issued
  let login : Login := ⟨user, [⟨skCertAlgo, blob⟩], .key authority⟩
  have carried : Carried login policy := by
    refine ⟨userFits, ?_, held.banner⟩
    simp only [login, mem_singleton]
    rintro credential rfl
    exact ⟨(by decide : (utf8Bytes skCertAlgo).length < 2 ^ 32), short⟩
  have admits : CertAdmits policy blob user none 0 cert := by
    simp only [terms, issuedTerms, Certificate.Terms.mk.injEq, ownDraft, CertOptions.mk.injEq] at stated
    obtain ⟨key, application, serial, certType, keyId, principals, after, before, ⟨command, source⟩, issuer⟩ := stated
    refine ⟨accepted, ?_, certType, issuer ▸ trusted, ?_, .inl principals, ?_⟩
    · exact parse_and_verify_blob _ _ accepted ▸ cert.signed
    · rw [after, before]
      decide
    · rw [source]
      rintro list clash
      cases clash
  have certifies : cert.certifiedUserKey = (login.signer.userKey : UserKey prim) := by
    rw [certified_key_of_terms, stated]
    rfl
  have acceptable : Acceptable policy none 0 login ⟨skCertAlgo, blob⟩ cert.forceCommand := by
    refine ⟨admitted, ?_⟩
    rw [← certifies]
    exact .certified (.inr rfl) admits
  exact names_cross carried mem_cons_self leads (by decide : skCertAlgo ≠ certAlgo) acceptable

/-- A key that may log in is listed, or an authority is trusted. -/
theorem authorizes_held {blob user peer key}
    (authorizes : Authorizes policy blob user peer now key forceCommand) :
    policy.keys ≠ [] ∨ policy.trustedCas ≠ [] := by
  cases authorizes with
  | listed named member => exact .inl (ne_nil_of_mem member)
  | certified cert admits certifies => exact .inr (ne_nil_of_mem admits.trusted)

/-- **The named algorithm is the algorithm used** only where nobody can log in: in every
conversation the accepted request names the type that leads its blob exactly when the policy
lists no key and trusts no authority. -/
theorem named_algorithm_iff (held : Held policy) : NamesMatch policy ↔ policy.keys = [] ∧ policy.trustedCas = [] := by
  constructor
  · intro names
    constructor
    · refine eq_nil_iff_forall_not_mem.mpr fun key listed => ?_
      exact listed_key_crosses held listed names
    · refine eq_nil_iff_forall_not_mem.mpr fun ca trusted => ?_
      exact trusted_authority_crosses held trusted names
  · rintro ⟨noKeys, noAuthorities⟩ peer sessionId opening bannerSent earlier turn later result flag name blob signature
      - - ⟨packet, -, decided, -⟩
    obtain ⟨key, _, _, _, justified⟩ := decide_accept _ _ _ _ _ _ decided
    rcases authorizes_held justified.authorizes with listed | trusted
    · exact absurd noKeys listed
    · exact absurd noAuthorities trusted

/-- The sample policy lists a key that somebody holds, so under it names can be crossed. -/
theorem named_algorithm_sample : Held Sample.policy ∧ ¬ NamesMatch Sample.policy := by
  have held : Held Sample.policy := by
    refine ⟨?_, ?_, ?_, ?_⟩
    · decide
    · simp only [Sample.policy, mem_singleton]
      rintro key rfl
      exact ⟨by decide +kernel, .key Sample.signer, rfl⟩
    · simp [Sample.policy]
    · decide
  refine ⟨held, ?_⟩
  rw [named_algorithm_iff held]
  rintro ⟨noKeys, -⟩
  cases noKeys

/-- The listed bare key, presented and signed for under the name of a security key. -/
def Sample.crossed : Turn :=
  ⟨.ok (signedRequest 1 "alice" skAlgo Sample.blob
    (Sample.signer.sign .transparent (signedSpan Sample.sessionId "alice" skAlgo Sample.blob))), 101, .ok ()⟩

/-- The server accepts it, though the blob is that of a bare key. -/
theorem crossed_name_accepted :
    (server Sample.policy none Sample.sessionId Sample.opening (.ok ()) [Sample.crossed]).2 =
        .authenticated ⟨"alice", none⟩ ∧
      Reader.utf8.parse Sample.blob = .ok algo ∧ skAlgo ≠ algo := by
  refine ⟨?_, ?_, ?_⟩ <;> decide +kernel

end Names

end Auth

namespace Agent

section Usable

variable {blob : Bytes}

/-- The user key that a blob names, decoded as the server does: a key or a certificate. -/
def userKeyNamed (prim : Primitives) (blob : Bytes) : Option (UserKey prim) :=
  match UserKey.fromBlob blob with
  | .ok key => some key
  | .error _ =>
    match Certificate.parseAndVerify blob with
    | .ok cert => some cert.certifiedUserKey
    | .error _ => none

/-- A signature over data that verifies under the key the blob names. -/
def Usable (prim : Primitives) (blob data signature : Bytes) : Prop :=
  ∃ key ∈ userKeyNamed prim blob, key.verify data signature = .ok ()

theorem user_key_named_key {key} (decoded : UserKey.fromBlob blob = .ok key) :
    userKeyNamed prim blob = some key := by
  rw [userKeyNamed, decoded]

/-- A key's blob and a certificate never start alike, so a certificate is not taken for a key. -/
theorem user_key_named_certificate {cert : Certificate prim}
    (accepted : Certificate.parseAndVerify blob = .ok cert) : userKeyNamed prim blob = some cert.certifiedUserKey := by
  unfold userKeyNamed
  cases decoded : @UserKey.fromBlob prim blob with
  | error reason => simp only [accepted]
  | ok key =>
    have leads := accepted_leads accepted
    obtain ⟨rfl, -⟩ := UserKey.from_blob_ok.mp decoded
    rw [UserKey.to_blob_leads key, Except.ok.injEq] at leads
    cases key with
    | ed25519 bare =>
      split at leads
      · exact absurd leads (by decide : algo ≠ skCertAlgo)
      · exact absurd leads (by decide : algo ≠ certAlgo)
    | sk held =>
      split at leads
      · exact absurd leads (by decide : skAlgo ≠ skCertAlgo)
      · exact absurd leads (by decide : skAlgo ≠ certAlgo)

/-- A bare key's signature is no assertion of a security key. -/
theorem sk_refuses_plain (key : SkPublicKey prim) (signer : PrivateKey) (data : Bytes) :
    key.verify data (signer.sign prim data) ≠ .ok () := by
  intro verified
  obtain ⟨raw, flags, counter, read, -, -⟩ := SkPublicKey.verify_ok _ _ _ verified
  simp only [SkPublicKey.readAssertion, parse_ok, utf8_bind_ok, require_bind_ok] at read
  obtain ⟨_, name, rest, ⟨layout, short⟩, rfl, -⟩ := read
  obtain ⟨clash, -⟩ := utf8_append_injective (by decide : (utf8Bytes algo).length < 2 ^ 32) short layout
  exact absurd clash (by decide)

/-- What a held key signs can be used exactly when its blob is no security-key certificate. -/
theorem named_usable_iff {signer : PrivateKey} (named : Names prim blob signer) (data : Bytes) :
    Usable prim blob data (signer.sign prim data) ↔ Reader.utf8.parse blob ≠ .ok skCertAlgo := by
  rcases named with rfl | ⟨cert, accepted, certified⟩
  · let key : UserKey prim := .ed25519 signer.publicKey
    have decoded : UserKey.fromBlob key.toBlob = .ok key := UserKey.from_blob_ok.mpr ⟨rfl, trivial⟩
    have leads : Reader.utf8.parse key.toBlob = .ok algo := UserKey.to_blob_leads key
    refine iff_of_true ⟨key, user_key_named_key decoded, @PrivateKey.verify_sign prim signer data⟩ ?_
    intro clash
    exact absurd (Except.ok.inj (leads.symm.trans clash)) (by decide : algo ≠ skCertAlgo)
  · have key := user_key_named_certificate accepted
    have leads := accepted_leads accepted
    cases form : cert.skApplication with
    | none =>
      rw [certifiedUserKey, form, certified] at key
      rw [form] at leads
      refine iff_of_true ⟨_, key, @PrivateKey.verify_sign prim signer data⟩ ?_
      intro clash
      exact absurd (Except.ok.inj (leads.symm.trans clash)) (by decide : certAlgo ≠ skCertAlgo)
    | some application =>
      rw [certifiedUserKey, form] at key
      rw [form] at leads
      refine iff_of_false ?_ (fun differs => differs leads)
      rintro ⟨held, member, verified⟩
      rw [key, mem_some_iff] at member
      subst member
      exact @sk_refuses_plain prim ⟨cert.key, application⟩ signer data verified

/-- A signature in an answer was made by a held key, under the blob that the request names. -/
theorem answered_signature {system : System prim} {event : Event} {body data signature}
    (request : event.frame = Num.signRequest :: body) (asked : readSign.parse body = .ok (blob, data))
    (answered : system.answer event = Writer.byte Num.signResponse ++ Writer.string signature) :
    ∃ stored : Stored prim, stored.blob = blob ∧ signature = stored.key.sign prim data := by
  rw [System.answer, request, handle_sign_request] at answered
  have refusal : failure ≠ Writer.byte Num.signResponse ++ Writer.string signature := by
    intro clash
    exact absurd (List.cons.inj clash).1 (by decide : Num.failure ≠ Num.signResponse)
  split at answered
  · exact absurd answered refusal
  · cases signed : (system.store.purgeExpired event.clock.instant).sign event.clock.now body
        (system.conns event.conn).bindings with
    | none =>
      rw [signed] at answered
      exact absurd answered refusal
    | some answer =>
      rw [signed] at answered
      obtain ⟨stored, member, other, parsed, permitted, made⟩ := sign_iff.mp signed
      obtain ⟨rfl, rfl⟩ := Prod.mk.inj (Except.ok.inj (parsed.symm.trans asked))
      have same : Writer.string (stored.key.sign prim other) = Writer.string signature :=
        append_cancel_left (made.symm.trans answered)
      have length := congrArg List.length same
      rw [string_length, string_length] at length
      exact ⟨stored, rfl, (append_inj_right' same (by omega)).symm⟩

/-- **Every signature the agent returns is usable**, unless it was asked for under a
security-key certificate. After any history of requests, a signature in the answer to a sign
request verifies over its data under the user key that its blob names exactly when the blob
does not start with the name of such certificates. -/
theorem agent_signature_usable_iff (past : List Event) (event : Event) (body blob data signature : Bytes)
    (request : event.frame = Num.signRequest :: body) (asked : readSign.parse body = .ok (blob, data))
    (answered : (System.after prim past).answer event = Writer.byte Num.signResponse ++ Writer.string signature) :
    Usable prim blob data signature ↔ Reader.utf8.parse blob ≠ .ok skCertAlgo := by
  obtain ⟨stored, rfl, rfl⟩ := answered_signature request asked answered
  exact named_usable_iff stored.named data

/-- A bare key is held under its own blob, and what it signs can be used. -/
theorem agent_signature_usable_sample :
    Usable .transparent Sample.stored.blob [1] (Sample.signer.sign .transparent [1]) :=
  (agent_signature_usable_iff [⟨0, Sample.clock, Agent.addFrame .transparent Sample.signer none "work" none none⟩]
    ⟨0, Sample.clock, signFrame Sample.stored.blob [1] 0⟩ _ Sample.stored.blob [1] _ rfl (by decide +kernel)
    (by decide +kernel)).mpr (by decide +kernel)

/-- A security-key certificate for the point of a key that the agent is given as a bare one. -/
def Sample.certificate : Bytes :=
  (signCert Certificate.sampleAuthority (fun _ => 3) Certificate.sampleDraft).getD []

/-- The request that hands the key over with this certificate. -/
def Sample.certified : Event :=
  ⟨0, Sample.clock, Agent.addFrame .transparent Sample.signer (some Sample.certificate) "work" none none⟩

/-- The agent then signs for the certificate, and the signature does not verify. -/
theorem security_key_signature_unusable :
    (System.after .transparent [Sample.certified]).answer ⟨0, Sample.clock, signFrame Sample.certificate [1] 0⟩ =
        Writer.byte Num.signResponse ++ Writer.string (Sample.signer.sign .transparent [1]) ∧
      (userKeyNamed .transparent Sample.certificate).isSome ∧
      ¬ Usable .transparent Sample.certificate [1] (Sample.signer.sign .transparent [1]) := by
  have refused : ∀ key ∈ userKeyNamed .transparent Sample.certificate,
      key.verify [1] (Sample.signer.sign .transparent [1]) ≠ .ok () := by
    decide +kernel
  refine ⟨by decide +kernel, by decide +kernel, ?_⟩
  rintro ⟨key, named, verified⟩
  exact refused key named verified

end Usable

end Agent

end Shh
