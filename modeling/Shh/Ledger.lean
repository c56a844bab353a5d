import Shh.Moves

/-!
# The books of one endpoint

What an endpoint sealed, opened, took from its application and handed to it, and
which secrets and ciphers it got, in order. The lists are read off the trace; an
endpoint's books balance when

* application packets went out in the order they were submitted, the one waiting
  for a key exchange last;
* application packets were handed over in the order they were opened, those held
  back last;
* the key-exchange messages sent and opened are those of the noted exchanges, three
  each, and of the one in progress.

This is kept by every move of an endpoint whose peer proposes as this code does.
-/

namespace Shh.Transport

open List Wire Reader Computations Runs

variable {prim : Primitives}

/-- A sealed packet with the cipher state, number and padding it was sealed with. -/
structure Packet where
  cipher : Cipher
  seq : Nat
  payload : Bytes
  pad : Bytes
deriving DecidableEq, Repr

def Packet.wire (prim : Primitives) (packet : Packet) : Bytes :=
  packet.cipher.sealPacket prim packet.seq packet.payload packet.pad

/-- The lists, oldest first. -/
structure Ledger (prim : Primitives) where
  packets : List Packet
  opened : List Bytes
  submitted : List Bytes
  returned : List Bytes
  exchanges : List (Exchange prim)
  txs : List Cipher
  rxs : List Cipher

def Ledger.add (book : Ledger prim) : Effect prim → Ledger prim
  | .sealed cipher seq payload pad => { book with packets := book.packets ++ [⟨cipher, seq, payload, pad⟩] }
  | .opened payload => { book with opened := book.opened ++ [payload] }
  | .submitted payload => { book with submitted := book.submitted ++ [payload] }
  | .returned payload => { book with returned := book.returned ++ [payload] }
  | .keyed exchange => { book with exchanges := book.exchanges ++ [exchange] }
  | .txInstalled cipher => { book with txs := book.txs ++ [cipher] }
  | .rxInstalled cipher => { book with rxs := book.rxs ++ [cipher] }
  | .asked _ _ | .completed _ => book

def ledger (trace : List (Effect prim)) : Ledger prim := trace.foldl Ledger.add ⟨[], [], [], [], [], [], []⟩

theorem ledger_snoc (trace : List (Effect prim)) (effect : Effect prim) :
    ledger (trace ++ [effect]) = (ledger trace).add effect := by
  simp [ledger]

/-- The payloads sealed. -/
def Ledger.sent (book : Ledger prim) : List Bytes := book.packets.map Packet.payload

/-- Packets of types that the transport does not handle itself. -/
def isApp (packet : Bytes) : Bool :=
  !packet.isEmpty && !isChatter packet && !decide (kind packet = Msg.disconnect) &&
    !decide (kind packet = Msg.extInfo) && !decide (kind packet = Msg.kexInit) && !isKexMessage packet

/-- Packets of a key exchange. -/
def isKex (packet : Bytes) : Bool := decide (kind packet = Msg.kexInit) || isKexMessage packet

/-- The packet after which new keys are used. -/
def isNewKeys (packet : Bytes) : Bool := decide (packet = [Msg.newKeys])

/-- What an application may pass to `send`: no messages of the key exchange, and
short enough for the length field. -/
def Sendable (payload : Bytes) : Prop := isKex payload = false ∧ payload.length + 256 < 2 ^ 32

/-- Failed, or sending a last disconnect after a failure. -/
def Point.dead : Point prim → Bool
  | .waiting (.failed _) | .closing (.failed _) _ _ => true
  | _ => false

/-- The packet a call will still send after its key exchange. -/
def Resume.owed : Resume → List Bytes
  | .send payload => [payload]
  | .handshake | .rekey | .recv => []

def Phase.resume : Phase prim → Resume
  | .peerKexInit _ resume | .guess _ resume | .ecdhReply _ _ _ resume | .ecdhInit _ _ resume
  | .newKeys _ resume => resume
  | _ => .handshake

/-- Packets submitted and not yet sealed. -/
def Point.owed : Point prim → List Bytes
  | .sending payload => [payload]
  | .waiting phase | .taken phase _ => phase.resume.owed
  | .agreed _ _ resume | .begun _ resume | .trusted _ _ _ resume _ _ _ _ | .established _ resume
  | .keyed _ resume | .announced _ resume | .ended _ resume | .informed _ resume | .resumed resume =>
    resume.owed
  | _ => []

/-- What a call brings in. -/
def Point.offered : Point prim → List Bytes
  | .called (.send payload) => [payload]
  | _ => []

/-- The disconnect that is about to be sent. -/
def Point.farewell : Point prim → List Bytes
  | .closing _ reason description => [disconnectPacket reason description]
  | _ => []

/-- The packet opened and not yet dealt with. -/
def Point.inHand : Point prim → List Bytes
  | .taken _ packet => [packet]
  | _ => []

/-- The points at which nothing is held back. -/
def Point.drained : Point prim → Bool
  | .waiting .receiving | .waiting .polling | .taken .receiving _ | .taken .polling _ => true
  | _ => false

/-- The messages an exchange takes from each side. -/
def Exchange.messages (exchange : Exchange prim) : Side → List Bytes
  | .client => [exchange.iC, ecdhInitPacket exchange.qC, [Msg.newKeys]]
  | .server => [exchange.iS, ecdhReplyPacket exchange.kS exchange.qS exchange.signature, [Msg.newKeys]]

/-- How far the current exchange is: whether it is noted, what it has sent and
got, and which of its ciphers are installed. -/
structure Stage (prim : Primitives) where
  noted : List (Exchange prim)
  sent : List Bytes
  got : List Bytes
  txs : Nat
  rxs : Nat

def Phase.stage (side : Side) : Phase prim → Stage prim
  | .firstKexInit ours | .peerKexInit ours _ => ⟨[], [ours.encode], [], 0, 0⟩
  | .guess kex _ | .ecdhInit kex _ _ => ⟨[], [kex.ours.encode], [kex.theirsBytes], 0, 0⟩
  | .ecdhReply kex _ eph _ =>
    ⟨[], [kex.ours.encode, ecdhInitPacket (eph.publicKey prim)], [kex.theirsBytes], 0, 0⟩
  | .newKeys exchange _ =>
    ⟨[exchange], exchange.messages side, (exchange.messages side.other).take 2, 1, 0⟩
  | _ => ⟨[], [], [], 0, 0⟩

def Point.stage (side : Side) : Point prim → Stage prim
  | .waiting phase => phase.stage side
  | .taken phase packet => { phase.stage side with got := (phase.stage side).got ++ [packet].filter isKex }
  | .agreed ours theirsBytes _ => ⟨[], [ours.encode], [theirsBytes], 0, 0⟩
  | .begun kex _ => ⟨[], [kex.ours.encode], [kex.theirsBytes], 0, 0⟩
  | .trusted kex _ eph _ kS qS signature _ =>
    ⟨[], [kex.ours.encode, ecdhInitPacket (eph.publicKey prim)],
      [kex.theirsBytes, ecdhReplyPacket kS qS signature], 0, 0⟩
  | .established exchange _ =>
    ⟨[], (exchange.messages side).take 2, (exchange.messages side.other).take 2, 0, 0⟩
  | .keyed exchange _ =>
    ⟨[exchange], (exchange.messages side).take 2, (exchange.messages side.other).take 2, 0, 0⟩
  | .announced exchange _ =>
    ⟨[exchange], exchange.messages side, (exchange.messages side.other).take 2, 0, 0⟩
  | .ended exchange _ | .informed exchange _ =>
    ⟨[exchange], exchange.messages side, exchange.messages side.other, 1, 1⟩
  | _ => ⟨[], [], [], 0, 0⟩

section Kinds

variable {packet : Bytes}

/-- The types the transport keeps to itself. -/
theorem app_of_kind (handled : kind packet = Msg.disconnect ∨ kind packet = Msg.extInfo ∨ isChatter packet = true ∨
      isKex packet = true) : isApp packet = false := by
  unfold isKex at handled
  unfold isApp
  rcases handled with bye | info | chatter | kex
  · simp [bye]
  · simp [info]
  · simp [chatter]
  · rcases Bool.or_eq_true_iff.mp kex with init | message
    · simp [of_decide_eq_true init]
    · simp [message]

theorem kex_init_kind (init : KexInit) : kind init.encode = Msg.kexInit := by
  simp [KexInit.encode, kind, Writer.byte]

theorem ecdh_init_kind (qC : Bytes) : kind (ecdhInitPacket qC) = Msg.kexEcdhInit := by
  simp [ecdhInitPacket, kind, Writer.byte]

theorem ecdh_reply_kind (kS qS signature : Bytes) :
    kind (ecdhReplyPacket kS qS signature) = Msg.kexEcdhReply := by
  simp [ecdhReplyPacket, kind, Writer.byte]

theorem kex_init_is_kex (init : KexInit) : isKex init.encode = true := by
  simp [isKex, kex_init_kind]

theorem ecdh_init_is_kex (qC : Bytes) : isKex (ecdhInitPacket qC) = true := by
  simp [isKex, isKexMessage, ecdh_init_kind]

theorem ecdh_reply_is_kex (kS qS signature : Bytes) : isKex (ecdhReplyPacket kS qS signature) = true := by
  simp [isKex, isKexMessage, ecdh_reply_kind]

theorem new_keys_is_kex : isKex [Msg.newKeys] = true := rfl

theorem peers_is_kex (peers : kind packet = Msg.kexInit) : isKex packet = true := by
  simp [isKex, peers]

theorem app_of_kex (kex : isKex packet = true) : isApp packet = false :=
  app_of_kind (.inr (.inr (.inr kex)))

theorem ext_info_not_app : isApp extInfoPacket = false :=
  app_of_kind (.inr (.inl (by simp [extInfoPacket, kind, Writer.byte])))

theorem disconnect_not_app (reason : Nat) (description : String) :
    isApp (disconnectPacket reason description) = false :=
  app_of_kind (.inl (by simp [disconnectPacket, kind, Writer.byte]))

theorem passes_not_kex (passes : passes packet) : isKex packet = false := by
  simp [isKex, passes.2.2.1, passes.2.2.2]

theorem chatter_not_kex (chatter : isChatter packet = true) : isKex packet = false := by
  simp only [isChatter, Bool.or_eq_true, decide_eq_true_eq] at chatter
  rcases chatter with (same | same) | same <;> simp [isKex, isKexMessage, same] <;> decide

theorem handled_not_kex (handled : kind packet = Msg.extInfo ∨ kind packet = Msg.disconnect) :
    isKex packet = false := by
  rcases handled with same | same <;> simp [isKex, isKexMessage, same] <;> decide

theorem ext_info_not_kex : isKex extInfoPacket = false :=
  handled_not_kex (.inl (by simp [extInfoPacket, kind, Writer.byte]))

theorem disconnect_not_kex (reason : Nat) (description : String) :
    isKex (disconnectPacket reason description) = false :=
  handled_not_kex (.inr (by simp [disconnectPacket, kind, Writer.byte]))

theorem not_new_keys (other : kind packet ≠ Msg.newKeys) : isNewKeys packet = false := by
  refine decide_eq_false fun same => other ?_
  rw [same]
  rfl

theorem not_kex_not_new_keys (other : isKex packet = false) : isNewKeys packet = false := by
  apply not_new_keys
  intro same
  simp [isKex, isKexMessage, same] at other

theorem init_not_new_keys (init : kind packet = Msg.kexInit) : isNewKeys packet = false :=
  not_new_keys (by rw [init]; decide)

theorem ecdh_init_not_new_keys (qC : Bytes) : isNewKeys (ecdhInitPacket qC) = false :=
  not_new_keys (by rw [ecdh_init_kind]; decide)

theorem ecdh_reply_not_new_keys (kS qS signature : Bytes) :
    isNewKeys (ecdhReplyPacket kS qS signature) = false :=
  not_new_keys (by rw [ecdh_reply_kind]; decide)

theorem none_counted (other : isNewKeys packet = false) : [packet].countP isNewKeys = 0 := by
  simp [other]

/-- A reply parses exactly when it is the encoding of its parts. -/
theorem read_ecdh_reply_ok {kS qS signature : Bytes} :
    readEcdhReply packet = .ok (kS, qS, signature) ↔
      packet = ecdhReplyPacket kS qS signature ∧ kS.length < 2 ^ 32 ∧ qS.length < 2 ^ 32 ∧
        signature.length < 2 ^ 32 := by
  simp only [readEcdhReply, parse_ok, byte_bind_ok, require_bind_ok,
    string_bind_ok, finish_bind_ok, pure_ok, Prod.mk.injEq, ecdhReplyPacket]
  constructor
  · rintro ⟨left, first, body, rfl, rfl, key, afterKey, ⟨rfl, keyFits⟩, answer, afterAnswer,
      ⟨rfl, answerFits⟩, signed, afterSigned, ⟨rfl, signedFits⟩, rfl, ⟨rfl, rfl, rfl⟩, -⟩
    exact ⟨by simp [Writer.byte], keyFits, answerFits, signedFits⟩
  · rintro ⟨rfl, keyFits, answerFits, signedFits⟩
    exact ⟨[], Msg.kexEcdhReply, Writer.string kS ++ (Writer.string qS ++ Writer.string signature),
      by simp [Writer.byte], rfl, kS, _, ⟨rfl, keyFits⟩, qS, _, ⟨rfl, answerFits⟩, signature, [],
      ⟨by simp, signedFits⟩, rfl, ⟨rfl, rfl, rfl⟩, rfl⟩

theorem read_ecdh_init_ok {qC : Bytes} :
    readEcdhInit packet = .ok qC ↔ packet = ecdhInitPacket qC ∧ qC.length < 2 ^ 32 := by
  simp only [readEcdhInit, parse_ok, byte_bind_ok, require_bind_ok,
    string_bind_ok, finish_bind_ok, pure_ok, Prod.mk.injEq, ecdhInitPacket]
  constructor
  · rintro ⟨left, first, body, rfl, rfl, point, afterPoint, ⟨rfl, fits⟩, rfl, rfl, -⟩
    exact ⟨by simp [Writer.byte], fits⟩
  · rintro ⟨rfl, fits⟩
    exact ⟨[], Msg.kexEcdhInit, Writer.string qC, by simp [Writer.byte], rfl, qC, [], ⟨by simp, fits⟩,
      rfl, rfl, rfl⟩

end Kinds

attribute [local simp] ledger_snoc Ledger.add World.noted World.changed Point.owed Resume.owed Phase.resume

section Submitted

variable {env : Env prim} {point next : Point prim} {world after : World prim} {payload : Bytes}

/-- What was submitted is what was sealed and what is owed, and after a failure
what was lost. -/
def Owes (point : Point prim) (book : Ledger prim) : Prop :=
  ∃ lost, book.submitted.filter isApp = book.sent.filter isApp ++ point.owed.filter isApp ++ lost ∧
    (point.dead = true ∨ lost = [])

theorem Owes.sent_first {book : Ledger prim} (owes : Owes point book) :
    book.sent.filter isApp <+: book.submitted.filter isApp := by
  obtain ⟨lost, balance, _⟩ := owes
  rw [balance, append_assoc]
  exact prefix_append _ _

/-- A packet is sent because it is owed, or is the transport's own. -/
theorem sends_owed (sends : Sends env point world payload next) :
    point.owed.filter isApp = [payload].filter isApp ++ next.owed.filter isApp := by
  cases sends with
  | kexInit proposes size =>
    cases proposes with
    | respond waits peers =>
      cases waits <;> simp [app_of_kex (kex_init_is_kex _)]
    | _ => simp [app_of_kex (kex_init_is_kex _)]
  | ecdhInit client secretSize seedSize =>
    simp [app_of_kex (ecdh_init_is_kex _)]
  | ecdhReply parsed secretSize seedSize answered =>
    simp [app_of_kex (ecdh_reply_is_kex _ _ _)]
  | newKeys exchange resume => simp [app_of_kex new_keys_is_kex]
  | extInfo announced => simp [ext_info_not_app]
  | resumed | submitted => simp
  | closing reason description able =>
    rcases able with rfl | ⟨error, rfl⟩ <;>
      simp [disconnect_not_app]

theorem sends_dead (sends : Sends env point world payload next) : next.dead = point.dead := by
  cases sends with
  | kexInit proposes size => cases proposes <;> rfl
  | closing reason description able => rcases able with rfl | ⟨error, rfl⟩ <;> rfl
  | _ => rfl

theorem owes_sends (through : Bytes → Bytes) (sends : Sends env point world payload next)
    (owes : Owes point (ledger world.trace)) : Owes next (ledger (world.sent payload through).trace) := by
  obtain ⟨lost, balance, fate⟩ := owes
  refine ⟨lost, ?_, ?_⟩
  · rw [sends_owed sends] at balance
    simp only [World.sent, ledger_snoc, Ledger.add, Ledger.sent, map_append, map_cons,
      map_nil, filter_append] at balance ⊢
    rw [balance]
    simp only [append_assoc]
  · rw [sends_dead sends]
    exact fate

section

variable (goes : Goes env point world next after)

include goes

/-- After a failure only a disconnect follows. -/
theorem goes_alive : point.dead = false := by
  cases goes with
  | drained looks queued => rcases looks with rfl | rfl <;> rfl
  | _ => rfl

theorem goes_sealed : (ledger after.trace).packets = (ledger world.trace).packets := by
  cases goes <;> simp

theorem goes_submitted :
    (ledger after.trace).submitted = (ledger world.trace).submitted ++ point.offered := by
  cases goes with
  | drained looks queued =>
    rcases looks with rfl | rfl <;>
      simp [Point.offered]
  | nothing looks => rcases looks with rfl | rfl <;> simp [Point.offered]
  | _ => simp [Point.offered]

/-- A call owes what it brought in; a refusal gives up what was owed. -/
theorem goes_owed :
    next.dead = true ∧ point.offered = [] ∨ next.owed = point.owed ++ point.offered := by
  cases goes with
  | refused key reason => exact .inl ⟨rfl, rfl⟩
  | chatter waits | extInfo waits | returned waits => cases waits <;> exact .inr rfl
  | drained looks queued | nothing looks => rcases looks with rfl | rfl <;> exact .inr rfl
  | resumed finished => rcases finished with rfl | rfl <;> exact .inr rfl
  | submitted payload => exact .inr rfl
  | _ =>
    right
    simp [Point.offered]

end

theorem dead_owed (dead : point.dead = true) : point.owed = [] := by
  unfold Point.dead at dead
  split at dead
  · rfl
  · rfl
  · cases dead

theorem owes_goes (goes : Goes env point world next after) (owes : Owes point (ledger world.trace)) :
    Owes next (ledger after.trace) := by
  obtain ⟨lost, balance, fate⟩ := owes
  rw [goes_alive goes] at fate
  have none : lost = [] := fate.resolve_left Bool.false_ne_true
  unfold Owes Ledger.sent
  rw [goes_submitted goes, goes_sealed goes, filter_append, balance, none, append_nil]
  rcases goes_owed goes with ⟨dead, offered⟩ | owed
  · refine ⟨point.owed.filter isApp, ?_, .inl dead⟩
    rw [offered, dead_owed dead]
    simp [Ledger.sent]
  · refine ⟨[], ?_, .inr rfl⟩
    rw [owed, filter_append]
    simp [Ledger.sent]

end Submitted

section Delivered

variable {env : Env prim} {point next : Point prim} {world after : World prim} {payload : Bytes}

/-- What was opened is what was handed over, what is held back and what is in
hand, and after a failure what was lost. Fresh packets are handed over only when
nothing is held back. -/
def Holds (point : Point prim) (queued : List Bytes) (book : Ledger prim) : Prop :=
  (∃ lost, book.opened.filter isApp = book.returned.filter isApp ++ queued.filter isApp ++
      point.inHand.filter isApp ++ lost ∧ (point.dead = true ∨ lost = [])) ∧
    (point.drained = true → queued = [])

theorem Holds.returned_first {queued} {book : Ledger prim} (holds : Holds point queued book) :
    book.returned.filter isApp <+: book.opened.filter isApp := by
  obtain ⟨⟨lost, balance, _⟩, _⟩ := holds
  rw [balance, append_assoc, append_assoc]
  exact prefix_append _ _

theorem goes_opened (goes : Goes env point world next after) :
    (ledger after.trace).opened = (ledger world.trace).opened := by
  cases goes <;> simp

/-- A packet is answered by a packet only in a key exchange. -/
theorem sends_in_hand (sends : Sends env point world payload next) :
    point.inHand.filter isApp = [] ∧ next.inHand = [] ∧ next.drained = false := by
  cases sends with
  | kexInit proposes size =>
    cases proposes with
    | respond waits peers =>
      exact ⟨by simp [Point.inHand, app_of_kex (peers_is_kex peers)], rfl, rfl⟩
    | _ => exact ⟨rfl, rfl, rfl⟩
  | ecdhReply parsed secretSize seedSize answered =>
    rw [(read_ecdh_init_ok.mp parsed).1]
    exact ⟨by simp [Point.inHand, app_of_kex (ecdh_init_is_kex _)], rfl, rfl⟩
  | closing reason description able => rcases able with rfl | ⟨error, rfl⟩ <;> exact ⟨rfl, rfl, rfl⟩
  | _ => exact ⟨rfl, rfl, rfl⟩

theorem holds_sends (through : Bytes → Bytes) (sends : Sends env point world payload next)
    (holds : Holds point world.t.queued (ledger world.trace)) :
    Holds next (world.sent payload through).t.queued (ledger (world.sent payload through).trace) := by
  obtain ⟨⟨lost, balance, fate⟩, _⟩ := holds
  obtain ⟨answered, emptied, undrained⟩ := sends_in_hand sends
  refine ⟨⟨lost, ?_, ?_⟩, ?_⟩
  · rw [answered] at balance
    simpa [World.sent, emptied] using balance
  · rw [sends_dead sends]
    exact fate
  · intro drained
    cases undrained.symm.trans drained

/-- A move without a packet passes on what it has in hand, or it is not the
application's. -/
theorem goes_delivered (goes : Goes env point world next after)
    (known : ∀ kex resume packet, point ≠ .taken (.guess kex resume) packet)
    (drained : point.drained = true → world.t.queued = []) :
    next.dead = true ∧ next.inHand = [] ∧ (ledger after.trace).returned = (ledger world.trace).returned ∧
        after.t.queued = world.t.queued ∨
      (ledger after.trace).returned.filter isApp ++ after.t.queued.filter isApp ++
          next.inHand.filter isApp =
        (ledger world.trace).returned.filter isApp ++ world.t.queued.filter isApp ++
          point.inHand.filter isApp := by
  cases goes with
  | firstAgreed peers | agreed peers => exact .inr (by simp [Point.inHand, app_of_kex (peers_is_kex peers)])
  | skipped chatter =>
    exact .inr (by simp [Point.inHand, app_of_kind (.inr (.inr (.inl chatter)))])
  | held passes => exact .inr (by simp [Point.inHand])
  | dropped => exact absurd rfl (known _ _ _)
  | certified parsed certificate accepted | unasked parsed bare =>
    rw [(read_ecdh_reply_ok.mp parsed).1]
    exact .inr (by simp [Point.inHand, app_of_kex (ecdh_reply_is_kex _ _ _)])
  | asked parsed bare accepted =>
    rw [(read_ecdh_reply_ok.mp parsed).1]
    exact .inr (by simp [Point.inHand, app_of_kex (ecdh_reply_is_kex _ _ _)])
  | refused key reason => exact .inl ⟨rfl, rfl, by simp, rfl⟩
  | ended =>
    exact .inr (by simp [Point.inHand, app_of_kex new_keys_is_kex, Fields.withRx])
  | drained looks queued =>
    rcases looks with rfl | rfl <;>
      exact .inr (by simp [Point.inHand, queued, filter_cons]; split <;> simp)
  | noted found queued info =>
    exact .inr (by simp [Point.inHand, queued, app_of_kind (.inr (.inl info))])
  | chatter waits chatter =>
    right
    cases waits <;> simp [Point.inHand, app_of_kind (.inr (.inr (.inl chatter)))]
  | extInfo waits info found =>
    right
    cases waits <;> simp [Point.inHand, app_of_kind (.inr (.inl info))]
  | finished bye => exact .inr (by simp [Point.inHand, app_of_kind (.inl bye)])
  | returned waits passes uninformed =>
    right
    have empty : world.t.queued = [] := by cases waits <;> exact drained rfl
    simp [Point.inHand, empty]
  | _ => exact .inr (by simp [Point.inHand, Fields.withHost, Fields.keyed, Fields.withTx])

theorem goes_drained (goes : Goes env point world next after) (drained : next.drained = true) :
    after.t.queued = [] := by
  cases goes with
  | waits empty | poll empty => exact empty
  | chatter waits | extInfo waits => cases waits <;> cases drained
  | _ => cases drained

theorem holds_goes (goes : Goes env point world next after)
    (known : ∀ kex resume packet, point ≠ .taken (.guess kex resume) packet)
    (holds : Holds point world.t.queued (ledger world.trace)) :
    Holds next after.t.queued (ledger after.trace) := by
  obtain ⟨⟨lost, balance, fate⟩, drained⟩ := holds
  rw [goes_alive goes] at fate
  have none : lost = [] := fate.resolve_left Bool.false_ne_true
  rw [none, append_nil] at balance
  refine ⟨?_, goes_drained goes⟩
  rw [goes_opened goes, balance]
  rcases goes_delivered goes known drained with ⟨dead, emptied, returned, queued⟩ | same
  · refine ⟨point.inHand.filter isApp, ?_, .inl dead⟩
    rw [emptied, returned, queued, filter_nil, append_nil]
  · exact ⟨[], by rw [same, append_nil], .inr rfl⟩

end Delivered

section Progress

variable {side : Side} {env : Env prim} {point next : Point prim} {world after : World prim} {payload : Bytes}

/-- A KEXINIT as this code makes it. -/
def Ours (side : Side) (init : KexInit) : Prop :=
  ∃ withCert cookie, cookie.length = 16 ∧ init = KexInit.ours side (hostKeyAlgos withCert) cookie

/-- A packet that is a KEXINIT is one that this code made. -/
def Proposal (side : Side) (packet : Bytes) : Prop :=
  kind packet = Msg.kexInit → ∃ init, Ours side init ∧ packet = init.encode

/-- Both proposals are known and were negotiated. -/
def Agreed (side : Side) (kex : Kex) : Prop :=
  Ours side kex.ours ∧ ∃ theirs, KexInit.parse kex.theirsBytes = .ok theirs ∧
    negotiate side kex.ours theirs = .ok kex.neg

/-- How the parts of an exchange were computed at its own side. -/
def Exchange.Made (exchange : Exchange prim) : Side → Prop
  | .client => ∃ (kex : Kex) (eph : ClientKex), Agreed .client kex ∧ exchange.vC = ident ∧ exchange.vS = ident ∧
      exchange.neg = kex.neg ∧ exchange.iC = kex.ours.encode ∧ exchange.iS = kex.theirsBytes ∧
      eph.algo = kex.neg.kex ∧ exchange.qC = eph.publicKey prim ∧
      eph.finish prim exchange.qS = .ok exchange.k
  | .server => ∃ (kex : Kex) (xSecret mlkemSeed : Bytes), Agreed .server kex ∧ exchange.vC = ident ∧
    exchange.vS = ident ∧
      exchange.neg = kex.neg ∧ exchange.iS = kex.ours.encode ∧ exchange.iC = kex.theirsBytes ∧
      serverExchange prim kex.neg.kex xSecret mlkemSeed exchange.qC = .ok (exchange.qS, exchange.k)

/-- What is known of the locals at a waiting point. This code never guesses, so
no packet is dropped as a wrong guess. -/
def Phase.Known (side : Side) (session : Bytes) : Phase prim → Prop
  | .firstKexInit ours | .peerKexInit ours _ => Ours side ours
  | .guess _ _ => False
  | .ecdhReply kex first eph _ =>
    side = .client ∧ Agreed side kex ∧ first = session.isEmpty ∧ eph.algo = kex.neg.kex
  | .ecdhInit kex first _ => side = .server ∧ Agreed side kex ∧ first = session.isEmpty
  | _ => True

def Point.Known (side : Side) (session : Bytes) : Point prim → Prop
  | .waiting phase => phase.Known side session
  | .line _ _ text => text = ident
  | .taken phase packet => phase.Known side session ∧ Proposal side.other packet
  | .agreed ours theirsBytes _ => Ours side ours ∧ kind theirsBytes = Msg.kexInit ∧ Proposal side.other theirsBytes
  | .begun kex _ => Agreed side kex
  | .trusted kex first eph _ _ _ _ _ =>
    side = .client ∧ Agreed side kex ∧ first = session.isEmpty ∧ eph.algo = kex.neg.kex
  | .established exchange _ => exchange.Made side ∧ exchange.first = session.isEmpty
  | _ => True

/-- The peer's identification was read. -/
def Point.acquainted : Point prim → Bool
  | .waiting .created | .waiting (.idents _ _) | .line _ _ _ => false
  | _ => true

/-- The configuration, the peer's name and the locals. -/
structure Settled (side : Side) (point : Point prim) (t : Fields prim) : Prop where
  role : t.side = side
  algos : ∃ withCert, t.hostKeyAlgos = hostKeyAlgos withCert
  blob : t.publicBlob.length < 2 ^ 31
  cert : ∀ cert ∈ t.hostCert, cert.length < 2 ^ 31
  peer : point.acquainted = true → point.dead = true ∨ t.vPeer = ident
  known : point.Known side t.sessionId
  sendable : ∀ payload ∈ point.owed ++ point.offered ++ point.farewell, Sendable payload

/-- The noted exchanges and the one in progress account for the key-exchange
messages and the installed ciphers. -/
def Progress (side : Side) (point : Point prim) (book : Ledger prim) : Prop :=
  ∃ finished sent got, book.exchanges = finished ++ (point.stage side).noted ∧
    book.sent.filter isKex = sent ++ (point.stage side).sent ∧
    book.opened.filter isKex = got ++ (point.stage side).got ∧
    sent.length = 3 * finished.length ∧ got.length = 3 * finished.length ∧
    book.txs.length = finished.length + (point.stage side).txs ∧
    book.rxs.length = finished.length + (point.stage side).rxs

attribute [local simp] Point.stage Phase.stage

theorem sends_stage (sends : Sends env point world payload next) (settled : Settled side point world.t) :
    next.stage side =
      { point.stage side with sent := (point.stage side).sent ++ [payload].filter isKex } := by
  have sendable := settled.sendable
  cases sends with
  | kexInit proposes size =>
    cases proposes with
    | respond waits peers =>
      cases waits <;> simp [peers_is_kex peers, kex_init_is_kex]
    | _ => simp [kex_init_is_kex]
  | ecdhInit client secretSize seedSize => simp [ecdh_init_is_kex]
  | ecdhReply parsed secretSize seedSize answered =>
    obtain ⟨⟨rfl, _, _⟩, _⟩ := settled.known
    rw [(read_ecdh_init_ok.mp parsed).1]
    simp [ecdh_init_is_kex, ecdh_reply_is_kex, Exchange.messages, Kex.asServer, Side.other]
  | newKeys =>
    cases side <;> rfl
  | extInfo announced =>
    simp [ext_info_not_kex]
  | resumed payload => simp [(sendable payload (by simp [Point.owed])).1]
  | submitted notDue =>
    simp [(sendable payload (by simp [Point.owed])).1]
  | closing reason description able =>
    rcases able with rfl | ⟨error, rfl⟩ <;> simp [disconnect_not_kex]

theorem progress_sends (through : Bytes → Bytes) (sends : Sends env point world payload next)
    (settled : Settled side point world.t) (progress : Progress side point (ledger world.trace)) :
    Progress side next (ledger (world.sent payload through).trace) := by
  obtain ⟨finished, sent, got, exchanges, sentAll, gotAll, sentSize, gotSize, txs, rxs⟩ := progress
  refine ⟨finished, sent, got, ?_⟩
  rw [sends_stage sends settled]
  simp only [World.sent, ledger_snoc, Ledger.add]
  refine ⟨exchanges, ?_, gotAll, sentSize, gotSize, txs, rxs⟩
  simp only [Ledger.sent, map_append, map_cons, map_nil, filter_append] at sentAll ⊢
  rw [sentAll, append_assoc]

/-- Moves without a packet by what they do to the books: one notes a secret, two
install ciphers, one ends an exchange, and the others leave the lists, the ciphers
and the stage alone. -/
inductive Turns (env : Env prim) (side : Side) : Point prim → World prim → Point prim → World prim → Prop where
  | noted (world : World prim) (exchange : Exchange prim) (resume : Resume) :
      Turns env side (.established exchange resume) world (.keyed exchange resume)
        ((world.noted (.keyed exchange)).changed (Fields.keyed exchange))
  | sealing (world : World prim) (exchange : Exchange prim) (resume : Resume) :
      Turns env side (.announced exchange resume) world (.waiting (.newKeys exchange resume))
        ((world.changed (Fields.withTx (exchange.txCipher world.t.side world.t.sessionId))).noted
          (.txInstalled (exchange.txCipher world.t.side world.t.sessionId)))
  | opening (world : World prim) (exchange : Exchange prim) (resume : Resume) :
      Turns env side (.taken (.newKeys exchange resume) [Msg.newKeys]) world (.ended exchange resume)
        ((world.changed (Fields.withRx (exchange.rxCipher world.t.side world.t.sessionId)
            env.instant)).noted
          (.rxInstalled (exchange.rxCipher world.t.side world.t.sessionId)))
  | finished (world : World prim) (exchange : Exchange prim) (resume : Resume) :
      Turns env side (.informed exchange resume) world (.resumed resume) (world.noted (.completed exchange))
  | kept {point next : Point prim} {world after : World prim}
      (stage : next.dead = true ∨ next.stage side = point.stage side)
      (exchanges : (ledger after.trace).exchanges = (ledger world.trace).exchanges)
      (txs : (ledger after.trace).txs = (ledger world.trace).txs)
      (rxs : (ledger after.trace).rxs = (ledger world.trace).rxs)
      (session : after.t.sessionId = world.t.sessionId)
      (rx : (after.t.rx, after.t.rxSeq) = (world.t.rx, world.t.rxSeq))
      (handled : next.dead = true ∨ point.inHand.countP isNewKeys = 0 ∧ next.inHand = []) :
      Turns env side point world next after

/-- A packet that takes no part in the exchange leaves its stage alone. -/
theorem taken_stage {phase : Phase prim} {packet : Bytes} (other : isKex packet = false) :
    (Point.taken phase packet).stage side = (Point.waiting phase).stage side := by
  simp [other]

theorem goes_turns (goes : Goes env point world next after) (settled : Settled side point world.t) :
    Turns env side point world next after := by
  have known := settled.known
  cases goes with
  | keyed => exact .noted _ _ _
  | installed => exact .sealing _ _ _
  | ended => exact .opening _ _ _
  | completed => exact .finished _ _ _
  | dropped => exact absurd known.1 id
  | refused key reason =>
    exact .kept (.inl rfl) (by simp)
      (by simp) (by simp)
      rfl rfl (.inl rfl)
  | firstAgreed peers | agreed peers =>
    refine .kept (.inr ?_) rfl rfl rfl rfl rfl (.inr ⟨none_counted (init_not_new_keys peers), rfl⟩)
    simp [peers_is_kex peers]
  | skipped chatter =>
    have other := chatter_not_kex chatter
    exact .kept (.inr (taken_stage other).symm) rfl rfl rfl rfl rfl (.inr ⟨none_counted (not_kex_not_new_keys other), rfl⟩)
  | held passes =>
    have other := passes_not_kex passes
    exact .kept (.inr (taken_stage other).symm) rfl rfl rfl rfl rfl (.inr ⟨none_counted (not_kex_not_new_keys other), rfl⟩)
  | certified parsed certificate accepted | unasked parsed bare =>
    rw [(read_ecdh_reply_ok.mp parsed).1]
    refine .kept (.inr ?_) rfl rfl rfl rfl rfl (.inr ⟨none_counted (ecdh_reply_not_new_keys _ _ _), rfl⟩)
    simp [ecdh_reply_is_kex]
  | asked parsed bare accepted =>
    rw [(read_ecdh_reply_ok.mp parsed).1]
    refine .kept (.inr ?_) ?_ ?_ ?_ rfl rfl (.inr ⟨none_counted (ecdh_reply_not_new_keys _ _ _), rfl⟩)
    · simp [ecdh_reply_is_kex]
    all_goals simp
  | verified continued finished signed =>
    obtain ⟨rfl, _⟩ := known
    exact .kept (.inr rfl) rfl rfl rfl rfl rfl (.inr ⟨rfl, rfl⟩)
  | drained looks queued =>
    rcases looks with rfl | rfl <;>
      refine .kept (.inr rfl) ?_ ?_ ?_ rfl rfl (.inr ⟨rfl, rfl⟩) <;>
      simp
  | chatter waits chatter =>
    have other := chatter_not_kex chatter
    cases waits <;> refine .kept (.inr ?_) rfl rfl rfl rfl rfl (.inr ⟨none_counted (not_kex_not_new_keys other), rfl⟩)
    all_goals
      rw [taken_stage other]
      rfl
  | extInfo waits info found =>
    have other := handled_not_kex (.inl info)
    cases waits <;> refine .kept (.inr ?_) rfl rfl rfl rfl rfl (.inr ⟨none_counted (not_kex_not_new_keys other), rfl⟩)
    all_goals
      rw [taken_stage other]
      rfl
  | finished bye =>
    have other := handled_not_kex (.inr bye)
    exact .kept (.inr (taken_stage other).symm) rfl rfl rfl rfl rfl (.inr ⟨none_counted (not_kex_not_new_keys other), rfl⟩)
  | returned waits passes uninformed =>
    have other := passes_not_kex passes
    cases waits <;> refine .kept (.inr ?_) ?_ ?_ ?_ rfl rfl (.inr ⟨none_counted (not_kex_not_new_keys other), rfl⟩)
    all_goals first | exact (taken_stage other).symm | simp
  | submitted payload =>
    refine .kept (.inr rfl) ?_ ?_ ?_ rfl rfl (.inr ⟨rfl, rfl⟩) <;>
      simp
  | _ => exact .kept (.inr rfl) rfl rfl rfl rfl rfl (.inr ⟨rfl, rfl⟩)

theorem progress_goes (goes : Goes env point world next after) (settled : Settled side point world.t)
    (alive : next.dead = false) (progress : Progress side point (ledger world.trace)) :
    Progress side next (ledger after.trace) := by
  have sealed := congrArg (List.map Packet.payload) (goes_sealed goes)
  change (ledger after.trace).sent = (ledger world.trace).sent at sealed
  obtain ⟨finished, sent, got, exchanges, sentAll, gotAll, sentSize, gotSize, txs, rxs⟩ := progress
  unfold Progress
  rw [sealed, goes_opened goes]
  cases goes_turns goes settled with
  | noted exchange resume =>
    simp only [World.noted, World.changed, ledger_snoc, Ledger.add]
    refine ⟨finished, sent, got, ?_, sentAll, gotAll, sentSize, gotSize, txs, rxs⟩
    rw [exchanges]
    simp
  | sealing exchange resume =>
    simp only [World.noted, World.changed, ledger_snoc, Ledger.add]
    refine ⟨finished, sent, got, exchanges, sentAll, gotAll, sentSize, gotSize, ?_, rxs⟩
    rw [length_append, txs]
    rfl
  | opening exchange resume =>
    simp only [World.noted, World.changed, ledger_snoc, Ledger.add]
    refine ⟨finished, sent, got, exchanges, sentAll, ?_, sentSize, gotSize, txs, ?_⟩
    · rw [gotAll]
      cases side <;> rfl
    · rw [length_append, rxs]
      rfl
  | finished _ exchange resume =>
    simp only [World.noted, ledger_snoc, Ledger.add]
    refine ⟨finished ++ [exchange], sent ++ exchange.messages side, got ++ exchange.messages side.other,
      ?_, ?_, ?_, ?_, ?_, ?_, ?_⟩
    · simpa using exchanges
    · simpa using sentAll
    · simpa using gotAll
    · cases side <;> simp [Exchange.messages, sentSize] <;> omega
    · cases side <;> simp [Exchange.messages, gotSize, Side.other] <;> omega
    · simpa using txs
    · simpa using rxs
  | kept stage sameExchanges sameTxs sameRxs =>
    rcases stage with dead | same
    · cases alive.symm.trans dead
    · rw [same, sameExchanges, sameTxs, sameRxs]
      exact ⟨finished, sent, got, exchanges, sentAll, gotAll, sentSize, gotSize, txs, rxs⟩

end Progress

section Settling

variable {side : Side} {env : Env prim} {point next : Point prim} {world after : World prim} {payload : Bytes}

theorem ours_well_formed {init : KexInit} (ours : Ours side init) : init.WellFormed := by
  obtain ⟨withCert, cookie, size, rfl⟩ := ours
  have names : ∀ names ∈ (KexInit.ours side (hostKeyAlgos withCert) []).lists,
      Reader.Separable names ∧ (utf8Bytes (Writer.joinNames names)).length < 2 ^ 32 := by
    cases side <;> cases withCert <;> decide
  exact ⟨size, names⟩

/-- This code announces no guess, so its peer drops none. -/
theorem ours_no_guess {ours theirs theirsBytes} {neg : Negotiated}
    (init : kind theirsBytes = Msg.kexInit) (proposal : Proposal side.other theirsBytes)
    (parsed : KexInit.parse theirsBytes = .ok theirs) (chosen : negotiate side ours theirs = .ok neg) :
    neg.discardGuess = false := by
  obtain ⟨sent, made, rfl⟩ := proposal init
  rw [parse_encode sent (ours_well_formed made)] at parsed
  obtain ⟨withCert, cookie, size, rfl⟩ := made
  rw [← Except.ok.inj parsed] at chosen
  exact negotiate_guess chosen rfl

section

variable (sends : Sends env point world payload next)

include sends

theorem sends_known (settled : Settled side point world.t) : next.Known side world.t.sessionId := by
  have known := settled.known
  have proposed (cookie : Bytes) (size : cookie.length = 16) :
      Ours side (KexInit.ours world.t.side world.t.hostKeyAlgos cookie) := by
    obtain ⟨withCert, algos⟩ := settled.algos
    rw [settled.role, algos]
    exact ⟨withCert, cookie, size, rfl⟩
  cases sends with
  | kexInit proposes size =>
    cases proposes with
    | respond waits peers => exact ⟨proposed _ size, peers, known.2⟩
    | _ => exact proposed _ size
  | ecdhInit client secretSize seedSize => exact ⟨settled.role.symm.trans client, known, rfl, rfl⟩
  | ecdhReply parsed secretSize seedSize answered =>
    obtain ⟨⟨rfl, agreed, first⟩, _⟩ := known
    have peer := (settled.peer rfl).resolve_left Bool.false_ne_true
    exact ⟨⟨_, _, _, agreed, peer, rfl, rfl, rfl, rfl, answered⟩, first⟩
  | closing reason description able => rcases able with rfl | ⟨error, rfl⟩ <;> trivial
  | _ => trivial

theorem sends_sendable (settled : Settled side point world.t) :
    ∀ payload ∈ next.owed ++ next.offered ++ next.farewell, Sendable payload := by
  have sendable := settled.sendable
  cases sends with
  | kexInit proposes size =>
    cases proposes with
    | respond waits peers => cases waits <;> nofun
    | sending due => exact sendable
    | _ => nofun
  | resumed | submitted => nofun
  | closing reason description able => rcases able with rfl | ⟨error, rfl⟩ <;> nofun
  | _ => exact sendable

theorem sends_acquainted : point.acquainted = true := by
  cases sends with
  | kexInit proposes size => cases proposes <;> rfl
  | _ => rfl

end

theorem settled_sends (through : Bytes → Bytes) (sends : Sends env point world payload next)
    (settled : Settled side point world.t) : Settled side next (world.sent payload through).t where
  role := settled.role
  algos := settled.algos
  blob := settled.blob
  cert := settled.cert
  peer := by
    intro _
    rw [sends_dead sends]
    exact settled.peer (sends_acquainted sends)
  known := by
    have known := sends_known sends settled
    exact known
  sendable := sends_sendable sends settled

section

variable (goes : Goes env point world next after)

include goes

theorem goes_known (settled : Settled side point world.t) : next.Known side after.t.sessionId := by
  have known := settled.known
  have peer := settled.peer
  cases goes with
  | firstAgreed peers | agreed peers => exact ⟨known.1, peers, known.2⟩
  | skipped | held => exact known.1
  | negotiated parsed chosen kept =>
    rw [settled.role] at chosen
    exact ⟨known.1, _, parsed, chosen⟩
  | guessed parsed chosen discarded =>
    rw [settled.role] at chosen
    have kept := ours_no_guess known.2.1 known.2.2 parsed chosen
    cases kept.symm.trans discarded
  | dropped => exact absurd known.1 id
  | serves server => exact ⟨settled.role.symm.trans server, known, rfl⟩
  | certified | asked | unasked => exact known.1
  | verified continued finished signed =>
    obtain ⟨rfl, agreed, first, algorithm⟩ := known
    have named := (peer rfl).resolve_left Bool.false_ne_true
    exact ⟨⟨_, _, agreed, rfl, named, rfl, rfl, rfl, algorithm, rfl, finished⟩, first⟩
  | chatter waits | extInfo waits => cases waits <;> trivial
  | _ => trivial

theorem goes_fields :
    after.t.side = world.t.side ∧ after.t.hostKeyAlgos = world.t.hostKeyAlgos ∧
      after.t.publicBlob = world.t.publicBlob ∧ after.t.hostCert = world.t.hostCert := by
  cases goes <;> exact ⟨rfl, rfl, rfl, rfl⟩

theorem goes_peer (settled : Settled side point world.t) (acquainted : next.acquainted = true) :
    next.dead = true ∨ after.t.vPeer = ident := by
  have known := settled.known
  have peer := settled.peer
  rw [goes_alive goes] at peer
  have named (before : point.acquainted = true) : world.t.vPeer = ident :=
    (peer before).resolve_left Bool.false_ne_true
  cases goes with
  | identified spoken => exact .inr known
  | prefaced client unspoken => cases acquainted
  | drained looks queued => rcases looks with rfl | rfl <;> exact .inr (named rfl)
  | _ => exact .inr (named rfl)

theorem goes_sendable (settled : Settled side point world.t) :
    ∀ payload ∈ next.owed ++ next.offered ++ next.farewell, Sendable payload := by
  have nothing : next.offered = [] ∧ next.farewell = [] := by
    cases goes with
    | chatter waits | extInfo waits => cases waits <;> exact ⟨rfl, rfl⟩
    | _ => exact ⟨rfl, rfl⟩
  rw [nothing.1, nothing.2, append_nil, append_nil]
  intro payload member
  rcases goes_owed goes with ⟨dead, _⟩ | owed
  · rw [dead_owed dead] at member
    exact absurd member not_mem_nil
  · rw [owed] at member
    exact settled.sendable payload (mem_append_left _ member)

theorem settled_goes (settled : Settled side point world.t) : Settled side next after.t := by
  obtain ⟨role, algos, blob, cert⟩ := goes_fields goes
  constructor
  · exact role.trans settled.role
  · rw [algos]
    exact settled.algos
  · rw [blob]
    exact settled.blob
  · rw [cert]
    exact settled.cert
  · exact goes_peer goes settled
  · exact goes_known goes settled
  · exact goes_sendable goes settled

end

theorem settled_fails (reason : Error) (settled : Settled side point world.t) :
    Settled side (.waiting (.failed reason)) world.t where
  role := settled.role
  algos := settled.algos
  blob := settled.blob
  cert := settled.cert
  peer _ := .inl rfl
  known := trivial
  sendable := nofun

end Settling

end Shh.Transport
