import Shh.Moves

/-!
# The host a client talks to

A client decides about its host in the first key exchange and holds every later
one to that decision. The trace of a client is judged entry by entry: a secret is
noted only after the reply's signature verified over the hash of that exchange
under a vouched key, ciphers are installed only from noted secrets, and the
verifier is asked only before the first of them.

The fields that name the session and its host are those of the first noted
exchange, so they are fixed once there is one.
-/

namespace Shh.Transport

open List Wire Computations Runs

variable {prim : Primitives}

variable {trace : List (Effect prim)}

/-- A presented blob certifies a key for a host: signed by a trusted authority,
of the host type, not for a security key, in date and naming the host. -/
def Certifies (hostCas : List (PublicKey prim)) (hostname : String) (now : Nat) (blob : Bytes)
    (key : PublicKey prim) : Prop :=
  ∃ cert : Certificate prim, Certificate.parseAndVerify blob = .ok cert ∧ cert.key = key ∧
    cert.caKey ∈ hostCas ∧ cert.certType = certTypeHost ∧ cert.skApplication = none ∧
    cert.validAfter ≤ now ∧ now < cert.validBefore ∧ hostname ∈ cert.principals

def Sent (trace : List (Effect prim)) (payload : Bytes) : Prop :=
  ∃ cipher seq pad, .sealed cipher seq payload pad ∈ trace

/-- The messages an exchange hashed are those the client sent and received. -/
structure Heard (trace : List (Effect prim)) (exchange : Exchange prim) : Prop where
  ourInit : Sent trace exchange.iC
  peerInit : .opened exchange.iS ∈ trace
  ourPoint : Sent trace (ecdhInitPacket exchange.qC)
  reply : ∃ packet, .opened packet ∈ trace ∧
    readEcdhReply packet = .ok (exchange.kS, exchange.qS, exchange.signature)

/-- Some party vouches for a host key: the verifier accepted it, or a certificate
presented in this exchange or in the first one. -/
def Vouched (hostCas : List (PublicKey prim)) (hostname : String) (trace : List (Effect prim))
    (exchange : Exchange prim) (key : PublicKey prim) : Prop :=
  .asked key true ∈ trace ∨ Certifies hostCas hostname exchange.now exchange.kS key ∨
    ∃ first : Exchange prim, .keyed first ∈ trace ∧ first.first = true ∧
      Certifies hostCas hostname first.now first.kS key

/-- An exchange the client may take keys from. -/
def Trusted (hostCas : List (PublicKey prim)) (hostname : String) (trace : List (Effect prim))
    (exchange : Exchange prim) : Prop :=
  Heard trace exchange ∧ ∃ key, exchange.hostKey = some key ∧
    key.verify exchange.h exchange.signature = .ok () ∧ Vouched hostCas hostname trace exchange key ∧
    ∀ earlier, .keyed earlier ∈ trace → earlier.hostKey = some key

/-- The exchange that named the session: the first noted one. -/
def founding (trace : List (Effect prim)) : Option (Exchange prim) :=
  trace.findSome? fun effect =>
    match effect with
    | .keyed exchange => some exchange
    | _ => none

/-- What may happen after a trace. The session is named by the founding exchange. -/
def Allowed (hostCas : List (PublicKey prim)) (hostname : String) (trace : List (Effect prim)) :
    Effect prim → Prop
  | .asked _ _ => founding trace = none
  | .keyed exchange => Trusted hostCas hostname trace exchange
  | .txInstalled cipher => ∃ exchange first, .keyed exchange ∈ trace ∧ founding trace = some first ∧
      cipher = exchange.txCipher .client first.h
  | .rxInstalled cipher => ∃ exchange first, .keyed exchange ∈ trace ∧ founding trace = some first ∧
      cipher = exchange.rxCipher .client first.h
  | .completed exchange => .keyed exchange ∈ trace
  | _ => True

/-- The client's memory of its host agrees with the founding exchange. -/
def Remembers (t : Fields prim) (trace : List (Effect prim)) : Prop :=
  match founding trace with
  | none => t.sessionId = []
  | some first => first.first = true ∧ t.sessionId = first.h ∧ t.peerHostKey = first.hostKey ∧
      t.peerHostBlob = first.kS ∧ t.peerHostSig = first.signature ∧
      ∀ exchange, .keyed exchange ∈ trace → exchange.hostKey = first.hostKey

/-! ### Traces -/

/-- Every effect but the noting of a secret. -/
def Effect.Unkeyed : Effect prim → Prop
  | .keyed _ => False
  | _ => True

section

variable (trace : List (Effect prim))

theorem founding_unkeyed (effect : Effect prim) (unkeyed : effect.Unkeyed) :
    founding (trace ++ [effect]) = founding trace := by
  unfold founding
  rw [List.findSome?_append]
  cases effect with
  | keyed exchange => exact unkeyed.elim
  | _ => simp

theorem founding_keyed (exchange : Exchange prim) :
    founding (trace ++ [.keyed exchange]) = some ((founding trace).getD exchange) := by
  unfold founding
  rw [List.findSome?_append]
  cases trace.findSome? _ with
  | none | some => rfl

/-- The founding exchange was noted. -/
theorem founding_mem (first : Exchange prim) (found : founding trace = some first) : .keyed first ∈ trace := by
  obtain ⟨effect, present, names⟩ := exists_of_findSome?_eq_some found
  cases effect with
  | keyed exchange =>
    rw [← Option.some.inj names]
    exact present
  | _ => simp at names

/-- Without a founding exchange nothing was noted. -/
theorem founding_none (found : founding trace = none) (exchange : Exchange prim) : .keyed exchange ∉ trace := by
  intro present
  have unnamed := List.findSome?_eq_none_iff.mp found _ present
  simp at unnamed

end

/-- Once there is a founding exchange, it stays the founding one. -/
theorem founding_append (trace more : List (Effect prim)) (first : Exchange prim)
    (found : founding trace = some first) : founding (trace ++ more) = some first := by
  unfold founding at found ⊢
  rw [List.findSome?_append, found]
  rfl

theorem Sent.append {more payload} (sent : Sent trace payload) :
    Sent (trace ++ more) payload := by
  obtain ⟨cipher, seq, pad, present⟩ := sent
  exact ⟨cipher, seq, pad, mem_append_left _ present⟩

/-- An accepted host certificate certifies the key it returns. -/
theorem verify_host_cert_ok (t : Fields prim) (now : Nat) (blob : Bytes) (key : PublicKey prim)
    (accepted : t.verifyHostCert now blob = .ok key) : Certifies t.hostCas t.hostname now blob key := by
  unfold Fields.verifyHostCert at accepted
  cases parsed : (Certificate.parseAndVerify blob : Except Error (Certificate prim)) with
  | error reason => simp [parsed] at accepted
  | ok cert =>
    simp only [parsed] at accepted
    by_cases host : cert.certType ≠ certTypeHost
    · simp [host] at accepted
    rw [if_neg host] at accepted
    by_cases security : cert.skApplication.isSome
    · simp [security] at accepted
    rw [if_neg security] at accepted
    by_cases untrusted : cert.caKey ∉ t.hostCas
    · simp [untrusted] at accepted
    rw [if_neg untrusted] at accepted
    by_cases stale : (!cert.validAt now) = true
    · simp [stale] at accepted
    rw [if_neg stale] at accepted
    by_cases nameless : cert.principals.isEmpty = true
    · simp [nameless] at accepted
    rw [if_neg nameless] at accepted
    by_cases other : (!cert.permitsPrincipal t.hostname) = true
    · simp [other] at accepted
    rw [if_neg other] at accepted
    have window := (cert.valid_at_iff now).mp (by simpa using stale)
    have named : t.hostname ∈ cert.principals := by
      simpa [Certificate.permitsPrincipal, nameless] using other
    refine ⟨cert, parsed, Except.ok.inj accepted, ?_, ?_, ?_, window.1, window.2, named⟩
    · simpa using untrusted
    · simpa using host
    · simpa using security

/-! ### The invariant -/

section Invariant

variable (hostCas : List (PublicKey prim)) (hostname : String)

variable {kex : Kex} {eph : ClientKex} {resume : Resume}

/-- Both KEXINITs of an exchange were exchanged. -/
def Met (trace : List (Effect prim)) (kex : Kex) : Prop :=
  Sent trace kex.ours.encode ∧ .opened kex.theirsBytes ∈ trace

/-- What is known at a waiting point about its locals. -/
def AtPhase (t : Fields prim) (trace : List (Effect prim)) : Phase prim → Prop
  | .firstKexInit ours | .peerKexInit ours _ => Sent trace ours.encode
  | .guess kex _ => Met trace kex
  -- The server's half; a client is never there.
  | .ecdhInit _ _ _ => False
  | .ecdhReply kex first eph _ =>
    Met trace kex ∧ Sent trace (ecdhInitPacket (eph.publicKey prim)) ∧ first = t.sessionId.isEmpty
  | .newKeys exchange _ => .keyed exchange ∈ trace
  | _ => True

/-- The same between waiting points. -/
def AtPoint (t : Fields prim) (trace : List (Effect prim)) (now : Nat) : Point prim → Prop
  | .waiting phase => AtPhase t trace phase
  | .taken phase packet => .opened packet ∈ trace ∧ AtPhase t trace phase
  | .agreed ours theirsBytes _ => Sent trace ours.encode ∧ .opened theirsBytes ∈ trace
  | .begun kex _ => Met trace kex
  | .trusted kex first eph _ kS qS signature key =>
    Met trace kex ∧ Sent trace (ecdhInitPacket (eph.publicKey prim)) ∧ first = t.sessionId.isEmpty ∧
      (∃ packet, .opened packet ∈ trace ∧ readEcdhReply packet = .ok (kS, qS, signature)) ∧
      (first = true → .asked key true ∈ trace ∨ Certifies hostCas hostname now kS key)
  | .established exchange _ =>
    Trusted hostCas hostname trace exchange ∧ exchange.first = t.sessionId.isEmpty ∧
      t.peerHostKey = exchange.hostKey ∧
      (exchange.first = true → t.peerHostBlob = exchange.kS ∧ t.peerHostSig = exchange.signature)
  | .keyed exchange _ | .announced exchange _ | .ended exchange _ | .informed exchange _ =>
    .keyed exchange ∈ trace
  | _ => True

/-- The client's invariant. -/
structure Guarded (now : Nat) (point : Point prim) (t : Fields prim) (trace : List (Effect prim)) :
    Prop where
  client : t.side = .client
  authorities : t.hostCas = hostCas
  name : t.hostname = hostname
  judged : Licensed (Allowed hostCas hostname) trace
  remembers : Remembers t trace
  locals : AtPoint hostCas hostname t trace now point

variable {hostCas hostname} {now : Nat} {env : Env prim} {point next : Point prim} {world after : World prim}
  {t changed : Fields prim} {trace : List (Effect prim)}

theorem AtPhase.append {phase} (more : List (Effect prim)) (locals : AtPhase t trace phase)
    (session : changed.sessionId = t.sessionId) : AtPhase changed (trace ++ more) phase := by
  cases phase with
  | firstKexInit | peerKexInit => exact Sent.append locals
  | guess kex resume => exact ⟨locals.1.append, mem_append_left _ locals.2⟩
  | ecdhInit kex first resume => exact locals.elim
  | ecdhReply kex first eph resume =>
    obtain ⟨met, point, first⟩ := locals
    refine ⟨⟨met.1.append, mem_append_left _ met.2⟩, point.append, ?_⟩
    rw [session]
    exact first
  | newKeys exchange resume => exact mem_append_left _ locals
  | created | idents | receiving | polling | idle | finished | failed => trivial

/-- The fields that name the session and its host, and what the client was told
about it, are left alone. -/
structure SameHost (t changed : Fields prim) : Prop where
  side : changed.side = t.side
  hostCas : changed.hostCas = t.hostCas
  hostname : changed.hostname = t.hostname
  sessionId : changed.sessionId = t.sessionId
  peerHostKey : changed.peerHostKey = t.peerHostKey
  peerHostBlob : changed.peerHostBlob = t.peerHostBlob
  peerHostSig : changed.peerHostSig = t.peerHostSig

theorem SameHost.refl (t : Fields prim) : SameHost t t := ⟨rfl, rfl, rfl, rfl, rfl, rfl, rfl⟩

section

variable (guarded : Guarded hostCas hostname now point t trace)

include guarded

theorem Guarded.frame (same : SameHost t changed)
    (locals : AtPoint hostCas hostname changed trace now next) :
    Guarded hostCas hostname now next changed trace := by
  obtain ⟨client, authorities, name, judged, remembers, _⟩ := guarded
  refine ⟨same.side.trans client, same.hostCas.trans authorities, same.hostname.trans name, judged, ?_, locals⟩
  unfold Remembers at remembers ⊢
  rw [same.sessionId, same.peerHostKey, same.peerHostBlob, same.peerHostSig]
  exact remembers

/-- An allowed effect that notes no secret. -/
theorem Guarded.note (same : SameHost t changed) (effect : Effect prim)
    (unkeyed : effect.Unkeyed) (allowed : Allowed hostCas hostname trace effect)
    (locals : AtPoint hostCas hostname changed (trace ++ [effect]) now next) :
    Guarded hostCas hostname now next changed (trace ++ [effect]) := by
  have framed : Guarded hostCas hostname now .loop changed trace := guarded.frame same trivial
  obtain ⟨client, authorities, name, judged, remembers, _⟩ := framed
  refine ⟨client, authorities, name, licensed_snoc judged allowed, ?_, locals⟩
  unfold Remembers at remembers ⊢
  rw [founding_unkeyed trace effect unkeyed]
  cases found : founding trace with
  | none =>
    rw [found] at remembers
    exact remembers
  | some first =>
    rw [found] at remembers
    obtain ⟨named, session, key, blob, signature, constant⟩ := remembers
    refine ⟨named, session, key, blob, signature, ?_⟩
    intro exchange present
    rcases mem_append.mp present with earlier | last
    · exact constant exchange earlier
    · rw [← mem_singleton.mp last] at unkeyed
      exact unkeyed.elim

/-- Before the first secret the session has no name, and afterwards it has. -/
theorem Guarded.unnamed_iff : t.sessionId.isEmpty = true ↔ founding trace = none := by
  have remembers := guarded.remembers
  unfold Remembers at remembers
  cases found : founding trace with
  | none =>
    rw [found] at remembers
    simp [remembers]
  | some first =>
    rw [found] at remembers
    have size : first.h.length = 32 := by
      rw [first.hashed]
      exact prim.sha256_size _
    have nonempty : first.h ≠ [] := by
      intro empty
      rw [empty] at size
      exact absurd size (by decide)
    simp [remembers.2.1, nonempty]

end

theorem sends_locals {payload} (through : Bytes → Bytes)
    (sends : Sends env point world payload next)
    (guarded : Guarded hostCas hostname now point world.t world.trace) :
    AtPoint hostCas hostname (world.sent payload through).t (world.sent payload through).trace now next := by
  have locals := guarded.locals
  have new : Sent (world.sent payload through).trace payload :=
    ⟨_, _, _, mem_append_right _ (mem_singleton.mpr rfl)⟩
  cases sends with
  | kexInit proposes size =>
    cases proposes with
    | respond waits peers => exact ⟨new, mem_append_left _ locals.1⟩
    | _ => exact new
  | ecdhInit client secretSize seedSize =>
    exact ⟨⟨locals.1.append, mem_append_left _ locals.2⟩, new, rfl⟩
  | ecdhReply => exact locals.2.elim
  | newKeys | extInfo => exact mem_append_left _ locals
  | resumed | submitted => trivial
  | closing reason description able => rcases able with rfl | ⟨error, rfl⟩ <;> trivial

theorem sends_guarded {payload} (through : Bytes → Bytes)
    (guarded : Guarded hostCas hostname now point world.t world.trace)
    (locals : AtPoint hostCas hostname (world.sent payload through).t
      (world.sent payload through).trace now next) :
    Guarded hostCas hostname now next (world.sent payload through).t (world.sent payload through).trace := by
  have same : SameHost world.t (world.sent payload through).t := ⟨rfl, rfl, rfl, rfl, rfl, rfl, rfl⟩
  exact guarded.note same _ trivial trivial locals

/-- A noted secret has a founding exchange, whose memory the client keeps. -/
theorem Guarded.founded (guarded : Guarded hostCas hostname now point t trace) (exchange : Exchange prim)
    (noted : .keyed exchange ∈ trace) :
    ∃ first, founding trace = some first ∧ t.sessionId = first.h := by
  have remembers := guarded.remembers
  unfold Remembers at remembers
  cases found : founding trace with
  | none => exact absurd noted (founding_none trace found exchange)
  | some first =>
    rw [found] at remembers
    exact ⟨first, rfl, remembers.2.1⟩

/-- The founding exchange's key was vouched for, then and so now. -/
theorem Guarded.vouched (guarded : Guarded hostCas hostname now point t trace) (first : Exchange prim)
    (found : founding trace = some first) (key : PublicKey prim) (known : first.hostKey = some key)
    (exchange : Exchange prim) : Vouched hostCas hostname trace exchange key := by
  have noted := founding_mem trace first found
  have named : first.first = true := by
    have remembers := guarded.remembers
    unfold Remembers at remembers
    rw [found] at remembers
    exact remembers.1
  obtain ⟨before, rest, split⟩ := append_of_mem noted
  obtain ⟨_, signer, signed, _, vouched, _⟩ := guarded.judged before _ rest split
  obtain rfl : signer = key := Option.some.inj (signed.symm.trans known)
  rcases vouched with asked | certified | ⟨earlier, present, earlierFirst, certified⟩
  · left
    rw [split]
    exact mem_append_left _ asked
  · exact .inr (.inr ⟨first, noted, named, certified⟩)
  · refine .inr (.inr ⟨earlier, ?_, earlierFirst, certified⟩)
    rw [split]
    exact mem_append_left _ present

section

variable {first : Bool}
  {kS qS signature k : Bytes}
  {key : PublicKey prim}
  (guarded : Guarded hostCas hostname env.now (.trusted kex first eph resume kS qS signature key)
      world.t world.trace)
  (continued : first = true ∨ world.t.peerHostKey = some key)
  (signed : key.verify (kex.asClient first eph world.t.vPeer kS qS signature k key env.now).h signature
      = .ok ())

include guarded continued signed

/-- The checks on a reply make its exchange a trusted one. In the first exchange
the key was just vouched for; later it is the founding exchange's. -/
theorem verified_trusted :
    Trusted hostCas hostname world.trace
      (kex.asClient first eph world.t.vPeer kS qS signature k key env.now) := by
  obtain ⟨met, sent, isFirst, heard, vouched⟩ := guarded.locals
  refine ⟨⟨met.1, met.2, sent, heard⟩, key, rfl, signed, ?_⟩
  cases first with
  | true =>
    have none := guarded.unnamed_iff.mp isFirst.symm
    refine ⟨?_, fun earlier present => absurd present (founding_none _ none earlier)⟩
    rcases vouched rfl with asked | certified
    · exact .inl asked
    · exact .inr (.inl certified)
  | false =>
    have continues : world.t.peerHostKey = some key := continued.resolve_left nofun
    have remembers := guarded.remembers
    unfold Remembers at remembers
    cases found : founding world.trace with
    | none =>
      have unnamed := guarded.unnamed_iff.mpr found
      cases isFirst.trans unnamed
    | some founder =>
      rw [found] at remembers
      obtain ⟨_, _, known, _, _, constant⟩ := remembers
      have founderKey : founder.hostKey = some key := known.symm.trans continues
      refine ⟨guarded.vouched founder found key founderKey _, ?_⟩
      intro earlier present
      exact (constant earlier present).trans founderKey

theorem verified_guarded :
    let exchange := kex.asClient first eph world.t.vPeer kS qS signature k key env.now
    Guarded hostCas hostname env.now (.established exchange resume) (Fields.withHost exchange world.t)
      world.trace := by
  intro exchange
  have isFirst := guarded.locals.2.2.1
  have trusted := verified_trusted guarded continued signed
  refine ⟨guarded.client, guarded.authorities, guarded.name, guarded.judged, ?_, trusted, isFirst, rfl, ?_⟩
  · have remembers := guarded.remembers
    unfold Remembers at remembers ⊢
    cases found : founding world.trace with
    | none =>
      rw [found] at remembers
      exact remembers
    | some founder =>
      rw [found] at remembers
      obtain ⟨named, session, known, blob, signature, constant⟩ := remembers
      have later : first = false := by
        have unnamed := guarded.unnamed_iff
        rw [found] at unnamed
        rw [isFirst]
        simpa using unnamed
      have continues : world.t.peerHostKey = some key := continued.resolve_left (by simp [later])
      refine ⟨named, session, continues.symm.trans known, ?_, ?_, constant⟩
      · simp only [Fields.withHost, exchange, Kex.asClient, later, Bool.false_eq_true, if_false]
        exact blob
      · simp only [Fields.withHost, exchange, Kex.asClient, later, Bool.false_eq_true, if_false]
        exact signature
  · intro named
    simp only [Fields.withHost, named, if_true, and_self]

end

/-- Noting a secret: the first one names the session. -/
theorem keyed_guarded {exchange}
    (guarded : Guarded hostCas hostname now (.established exchange resume) t trace) :
    Guarded hostCas hostname now (.keyed exchange resume) (Fields.keyed exchange t)
      (trace ++ [.keyed exchange]) := by
  obtain ⟨trusted, isFirst, host, proof⟩ := guarded.locals
  refine ⟨guarded.client, guarded.authorities, guarded.name, licensed_snoc guarded.judged trusted, ?_,
    mem_append_right _ (mem_singleton.mpr rfl)⟩
  have unnamed := guarded.unnamed_iff
  have remembers := guarded.remembers
  unfold Remembers at remembers ⊢
  rw [founding_keyed]
  cases found : founding trace with
  | none =>
    have named : exchange.first = true := isFirst.trans (unnamed.mpr found)
    obtain ⟨blob, signature⟩ := proof named
    refine ⟨named, ?_, host, blob, signature, ?_⟩
    · simp only [Fields.keyed, named, if_true, Option.getD_none]
    · intro other present
      rcases mem_append.mp present with earlier | last
      · exact absurd earlier (founding_none trace found other)
      · rw [Effect.keyed.inj (mem_singleton.mp last)]
        rfl
  | some founder =>
    rw [found] at remembers unnamed
    obtain ⟨named, session, known, blob, signature, constant⟩ := remembers
    have later : exchange.first = false := by
      rw [isFirst]
      simpa using unnamed
    refine ⟨named, ?_, known, blob, signature, ?_⟩
    · simp only [Fields.keyed, later, Bool.false_eq_true, if_false]
      exact session
    · intro other present
      rcases mem_append.mp present with earlier | last
      · exact constant other earlier
      · rw [Effect.keyed.inj (mem_singleton.mp last)]
        exact host.symm.trans known

/-- The first exchange asks the verifier, before anything was noted. -/
theorem asked_guarded {packet} (key : PublicKey prim) (accepted : Bool)
    (guarded : Guarded hostCas hostname now (.taken (.ecdhReply kex true eph resume) packet) t trace)
    (locals : AtPoint hostCas hostname t (trace ++ [.asked key accepted]) now next) :
    Guarded hostCas hostname now next t (trace ++ [.asked key accepted]) := by
  have unasked : founding trace = none := guarded.unnamed_iff.mp guarded.locals.2.2.2.symm
  exact guarded.note (.refl t) _ trivial unasked locals

theorem goes_guarded (goes : Goes env point world next after)
    (guarded : Guarded hostCas hostname env.now point world.t world.trace) :
    Guarded hostCas hostname env.now next after.t after.trace := by
  have locals := guarded.locals
  have same := SameHost.refl world.t
  cases goes with
  | identified | noted | tightened => exact guarded.frame ⟨rfl, rfl, rfl, rfl, rfl, rfl, rfl⟩ trivial
  | prefaced | resumed | receives | waits | finished | recv | poll | nothing => exact guarded.frame same trivial
  | firstAgreed | agreed => exact guarded.frame same ⟨locals.2, locals.1⟩
  | skipped | dropped => exact guarded.frame same locals.2
  | held passes => exact guarded.frame ⟨rfl, rfl, rfl, rfl, rfl, rfl, rfl⟩ locals.2
  | negotiated | guessed | silent => exact guarded.frame same locals
  | serves server =>
    have both := server.symm.trans guarded.client
    cases both
  | certified parsed certificate accepted =>
    have certifies := verify_host_cert_ok _ _ _ _ accepted
    rw [guarded.authorities, guarded.name] at certifies
    obtain ⟨opened, met, sent, isFirst⟩ := locals
    exact guarded.frame same ⟨met, sent, isFirst, ⟨_, opened, parsed⟩, fun _ => .inr certifies⟩
  | asked parsed bare accepted =>
    obtain ⟨opened, met, sent, isFirst⟩ := locals
    refine asked_guarded _ true guarded ⟨⟨met.1.append, mem_append_left _ met.2⟩, sent.append,
      isFirst, ⟨_, mem_append_left _ opened, parsed⟩, fun _ => .inl ?_⟩
    exact mem_append_right _ (mem_singleton.mpr rfl)
  | refused key reason => exact asked_guarded key false guarded trivial
  | unasked parsed bare =>
    obtain ⟨opened, met, sent, isFirst⟩ := locals
    exact guarded.frame same ⟨met, sent, isFirst, ⟨_, opened, parsed⟩, nofun⟩
  | verified continued finished signed => exact verified_guarded guarded continued signed
  | keyed exchange resume => exact keyed_guarded guarded
  | installed =>
    obtain ⟨first, found, session⟩ := guarded.founded _ locals
    refine guarded.note ?_ _ ?_ ?_ ?_
    · exact ⟨rfl, rfl, rfl, rfl, rfl, rfl, rfl⟩
    · trivial
    · exact ⟨_, first, locals, found, by rw [guarded.client, session]⟩
    · exact mem_append_left _ locals
  | ended =>
    have noted := locals.2
    obtain ⟨first, found, session⟩ := guarded.founded _ noted
    refine guarded.note ?_ _ ?_ ?_ ?_
    · exact ⟨rfl, rfl, rfl, rfl, rfl, rfl, rfl⟩
    · trivial
    · exact ⟨_, first, noted, found, by rw [guarded.client, session]⟩
    · exact mem_append_left _ noted
  | completed exchange resume => exact guarded.note same _ trivial locals trivial
  | drained looks queued =>
    refine guarded.note ?_ _ ?_ ?_ ?_
    · exact ⟨rfl, rfl, rfl, rfl, rfl, rfl, rfl⟩
    all_goals trivial
  | chatter waits => cases waits <;> exact guarded.frame same trivial
  | extInfo waits => cases waits <;> exact guarded.frame ⟨rfl, rfl, rfl, rfl, rfl, rfl, rfl⟩ trivial
  | returned | submitted => exact guarded.note same _ trivial trivial trivial

theorem moves_guarded (moves : Moves env (point, world) (next, after))
    (guarded : Guarded hostCas hostname env.now point world.t world.trace) :
    Guarded hostCas hostname env.now next after.t after.trace := by
  cases moves with
  | sent sends whole => exact sends_guarded id guarded (sends_locals id sends guarded)
  | cut sends fault => exact sends_guarded _ guarded trivial
  | went goes => exact goes_guarded goes guarded
  | drew random => exact guarded
  | failed reason able => exact guarded.frame ⟨rfl, rfl, rfl, rfl, rfl, rfl, rfl⟩ trivial

theorem enters_guarded {endpoint : Endpoint prim} {input rest}
    (enters : Enters env endpoint input rest point world)
    (guarded : Guarded hostCas hostname now (.waiting endpoint.phase) endpoint.t endpoint.trace) :
    Guarded hostCas hostname env.now point world.t world.trace := by
  have locals := guarded.locals
  have renewed : ∀ reached, AtPoint hostCas hostname endpoint.t endpoint.trace env.now reached →
      Guarded hostCas hostname env.now reached endpoint.t endpoint.trace :=
    fun reached holds => ⟨guarded.client, guarded.authorities, guarded.name, guarded.judged,
      guarded.remembers, holds⟩
  cases enters with
  | packetRead waiting read =>
    refine (renewed .loop trivial).note ?_ _ ?_ ?_ ⟨?_, AtPhase.append _ locals rfl⟩
    · exact ⟨rfl, rfl, rfl, rfl, rfl, rfl, rfl⟩
    · trivial
    · trivial
    · exact mem_append_right _ (mem_singleton.mpr rfl)
  | arrived | stays => exact renewed _ locals
  | _ => exact renewed _ trivial

end Invariant

/-! ### Runs -/

/-- The clock during the last step of a history. -/
def clock (past : List (Env prim × Input)) : Nat := (past.getLast?.map fun event => event.1.now).getD 0

theorem guarded_after (hostCas : List (PublicKey prim)) (hostname : String) (instant : Nat)
    (past : List (Env prim × Input)) :
    let endpoint := Endpoint.after (.client hostCas hostname) instant past
    Guarded hostCas hostname (clock past) (.waiting endpoint.phase) endpoint.t endpoint.trace := by
  have latest : ∀ (past : List (Env prim × Input)) env input, clock (past ++ [(env, input)]) = env.now := by
    intro past env input
    simp [clock]
  refine after_invariant (.client hostCas hostname) instant
    (fun past point world => Guarded hostCas hostname (clock past) point world.t world.trace) ?_ ?_ ?_ past
    (fun _ => 0)
  · intro random
    exact ⟨rfl, rfl, rfl, licensed_nil _, rfl, trivial⟩
  · intro past env endpoint input rest point world ih enters
    rw [latest]
    exact enters_guarded enters (ih (fun _ => 0))
  · intro past env input point world next after moves ih
    rw [latest] at ih ⊢
    exact moves_guarded moves ih

/-- A noted secret was trusted when it was noted. -/
theorem Guarded.noted {hostCas hostname now point t before after effect exchange}
    (guarded : Guarded hostCas hostname now point t trace)
    (split : trace = before ++ effect :: after) (noted : .keyed exchange ∈ before) :
    ∃ earlier between, before = earlier ++ .keyed exchange :: between ∧
      Trusted hostCas hostname earlier exchange := by
  obtain ⟨earlier, between, found⟩ := append_of_mem noted
  refine ⟨earlier, between, found, guarded.judged earlier (.keyed exchange) (between ++ effect :: after) ?_⟩
  rw [split, found, append_assoc, cons_append]

/-- What the fields say about session and host is said by the founding exchange. -/
theorem Remembers.unchanged {t later : Fields prim} {more exchange}
    (before : Remembers t trace) (after : Remembers later (trace ++ more)) (noted : .keyed exchange ∈ trace) :
    later.sessionId = t.sessionId ∧ later.peerHostKey = t.peerHostKey ∧
      later.peerHostBlob = t.peerHostBlob ∧ later.peerHostSig = t.peerHostSig := by
  unfold Remembers at before after
  cases found : founding trace with
  | none => exact absurd noted (founding_none trace found exchange)
  | some first =>
    rw [found] at before
    rw [founding_append trace more first found] at after
    obtain ⟨_, session, key, blob, signature, _⟩ := before
    obtain ⟨_, laterSession, laterKey, laterBlob, laterSignature, _⟩ := after
    exact ⟨laterSession.trans session.symm, laterKey.trans key.symm, laterBlob.trans blob.symm,
      laterSignature.trans signature.symm⟩

/-- Along every run of a client: an exchange completes only when its secret was
noted, after its reply's signature verified over its own hash under a vouched key;
from the first noted secret on, the session, the host key and its binding stay as
they are and the verifier is left alone; and every installed cipher comes from a
noted secret. -/
theorem host_identity_fixed (hostCas : List (PublicKey prim)) (hostname : String) (instant : Nat)
    (past more : List (Env prim × Input)) :
    let endpoint := Endpoint.after (.client hostCas hostname) instant past
    let later := Endpoint.after (.client hostCas hostname) instant (past ++ more)
    (∀ before exchange after, endpoint.trace = before ++ .completed exchange :: after →
      ∃ earlier between, before = earlier ++ .keyed exchange :: between ∧
        Trusted hostCas hostname earlier exchange) ∧
    (∀ exchange, .keyed exchange ∈ endpoint.trace →
      later.t.sessionId = endpoint.t.sessionId ∧ later.t.peerHostKey = endpoint.t.peerHostKey ∧
      later.t.peerHostBlob = endpoint.t.peerHostBlob ∧ later.t.peerHostSig = endpoint.t.peerHostSig ∧
      ∃ new, later.trace = endpoint.trace ++ new ∧ ∀ key accepted, .asked key accepted ∉ new) ∧
    (∀ before cipher after, endpoint.trace = before ++ .txInstalled cipher :: after →
      ∃ exchange earlier between, before = earlier ++ .keyed exchange :: between ∧
        Trusted hostCas hostname earlier exchange ∧
        cipher = exchange.txCipher .client endpoint.t.sessionId) ∧
    (∀ before cipher after, endpoint.trace = before ++ .rxInstalled cipher :: after →
      ∃ exchange earlier between, before = earlier ++ .keyed exchange :: between ∧
        Trusted hostCas hostname earlier exchange ∧
        cipher = exchange.rxCipher .client endpoint.t.sessionId) := by
  intro endpoint later
  have guarded := guarded_after hostCas hostname instant past
  have guardedLater := guarded_after hostCas hostname instant (past ++ more)
  -- The session a cipher was derived for is still the session.
  have session : ∀ {before rest first effect exchange}, endpoint.trace = before ++ effect :: rest →
      founding before = some first → .keyed exchange ∈ before → endpoint.t.sessionId = first.h := by
    intro before rest first effect exchange split found noted
    have kept : founding endpoint.trace = some first := by
      rw [split]
      exact founding_append before _ first found
    have present : .keyed exchange ∈ endpoint.trace := by
      rw [split]
      exact mem_append_left _ noted
    obtain ⟨founder, founded, named⟩ := guarded.founded exchange present
    rw [named, Option.some.inj (founded.symm.trans kept)]
  refine ⟨?_, ?_, ?_, ?_⟩
  · intro before exchange after split
    exact guarded.noted split (guarded.judged before _ after split)
  · intro exchange noted
    obtain ⟨new, grown⟩ := after_trace (.client hostCas hostname) instant past more
    have remembers := guardedLater.remembers
    rw [← grown] at remembers
    obtain ⟨sessionId, key, blob, signature⟩ := guarded.remembers.unchanged remembers noted
    refine ⟨sessionId, key, blob, signature, new, grown.symm, ?_⟩
    intro host accepted asked
    obtain ⟨front, back, split⟩ := append_of_mem asked
    have unfounded := guardedLater.judged (endpoint.trace ++ front) (.asked host accepted) back (by
      rw [← grown, split, append_assoc])
    exact founding_none _ unfounded exchange (mem_append_left _ noted)
  all_goals
    intro before cipher after split
    obtain ⟨exchange, first, noted, found, derived⟩ := guarded.judged before _ after split
    obtain ⟨earlier, between, splits, trusted⟩ := guarded.noted split noted
    exact ⟨exchange, earlier, between, splits, trusted, by rw [derived, session split found noted]⟩

/-- Whether an effect is the completion of an exchange. -/
def Effect.completes : Effect prim → Bool
  | .completed _ => true
  | _ => false

/-- The sample session completes its exchange, so it was trusted. -/
theorem host_identity_fixed_session :
    ∃ earlier exchange, Trusted [] "host" earlier exchange ∧ .completed exchange ∈ Sample.client.trace := by
  have completes : Sample.client.trace.any Effect.completes = true := by decide +kernel
  obtain ⟨effect, present, completed⟩ := any_eq_true.mp completes
  cases effect with
  | completed exchange =>
    obtain ⟨before, after, split⟩ := append_of_mem present
    obtain ⟨earlier, _, _, trusted⟩ :=
      (host_identity_fixed [] "host" 0 Sample.session []).1 before exchange after split
    exact ⟨earlier, exchange, trusted, present⟩
  | _ => cases completed

end Shh.Transport
