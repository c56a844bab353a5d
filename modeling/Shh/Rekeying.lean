import Shh.KeySchedule

/-!
# Two endpoints over a reliable stream

A client and a server run this code, and the bytes each writes reach the other in
order, in pieces of any size. Steps of the two ends and deliveries interleave in
any way, so either end may start a key exchange at any time, also both at once.

The proof follows the bytes. What an end has yet to read, and what the other has
written and not yet delivered, is the sealed form of the packets it has not opened.
It opens the next of them with the key that packet was sealed with, because both
keys follow from the packets before it and from exchanges whose messages both ends
have seen. So each end opens a first part of what the other sealed, and the books
of the two ends give the rest.
-/

namespace Shh.Transport

open List Wire Computations Runs Streams Endpoint Ledger

variable {prim : Primitives}

section Agreement

variable {client server left right : Exchange prim} {index : Nat} {α : Type}

/-- A client's and a server's exchange with the same messages give the same secret,
hash and ciphers. -/
theorem exchanges_agree (clientMade : client.Made .client)
    (serverMade : server.Made .server) (iC : client.iC = server.iC) (iS : client.iS = server.iS)
    (kS : client.kS = server.kS) (qC : client.qC = server.qC) (qS : client.qS = server.qS) :
    client.k = server.k ∧ client.h = server.h ∧ client.neg.cipherC2s = server.neg.cipherC2s ∧
      client.neg.cipherS2c = server.neg.cipherS2c := by
  obtain ⟨atClient, eph, ⟨clientOurs, clientTheirs, clientParsed, clientChose⟩, vC, vS, clientNeg, clientInit,
    clientPeer, algorithm, clientPoint, finished⟩ := clientMade
  obtain ⟨atServer, xSecret, mlkemSeed, ⟨serverOurs, serverTheirs, serverParsed, serverChose⟩, vC', vS',
    serverNeg, serverInit, serverPeer, answered⟩ := serverMade
  -- Each end parsed the other's proposal back.
  have fromServer : clientTheirs = atServer.ours := by
    rw [← clientPeer, iS, serverInit, parse_encode _ (ours_well_formed serverOurs)] at clientParsed
    exact (Except.ok.inj clientParsed).symm
  have fromClient : serverTheirs = atClient.ours := by
    rw [← serverPeer, ← iC, clientInit, parse_encode _ (ours_well_formed clientOurs)] at serverParsed
    exact (Except.ok.inj serverParsed).symm
  rw [fromServer] at clientChose
  rw [fromClient] at serverChose
  obtain ⟨kex, _, c2s, s2c⟩ := negotiate_agrees _ _ _ _ clientChose serverChose
  rw [← kex, ← algorithm, ← qC, clientPoint, ← qS] at answered
  have secret : client.k = server.k := secrets_agree eph xSecret mlkemSeed _ _ _ answered finished
  refine ⟨secret, ?_, ?_, ?_⟩
  · rw [client.hashed, server.hashed, vC, vS, vC', vS', iC, iS, kS, qC, qS, secret]
  · rw [clientNeg, serverNeg, c2s]
  · rw [clientNeg, serverNeg, s2c]

theorem ecdh_init_injective {left right} (same : ecdhInitPacket left = ecdhInitPacket right) :
    left = right := by
  have tails := congrArg (List.drop 5) same
  simpa [ecdhInitPacket, Writer.byte, Writer.string, drop_append_of_le_length] using tails

/-- A reply that fits its length field determines its parts. -/
theorem ecdh_reply_injective {kS qS signature kS' qS' signature'}
    (same : ecdhReplyPacket kS qS signature = ecdhReplyPacket kS' qS' signature')
    (short : (ecdhReplyPacket kS qS signature).length < 2 ^ 32) :
    kS = kS' ∧ qS = qS' := by
  have parts (kS qS signature : Bytes) : (ecdhReplyPacket kS qS signature).length =
      13 + kS.length + qS.length + signature.length := by
    simp only [ecdhReplyPacket, Writer.byte, length_append, length_cons, length_nil,
      Writer.string_length]
    omega
  have left : readEcdhReply (ecdhReplyPacket kS qS signature) = .ok (kS, qS, signature) := by
    rw [parts] at short
    exact read_ecdh_reply_ok.mpr ⟨rfl, by omega, by omega, by omega⟩
  have right : readEcdhReply (ecdhReplyPacket kS' qS' signature') = .ok (kS', qS', signature') := by
    rw [same, parts] at short
    exact read_ecdh_reply_ok.mpr ⟨rfl, by omega, by omega, by omega⟩
  rw [same, right] at left
  have equal := Except.ok.inj left
  exact ⟨(congrArg Prod.fst equal).symm, (congrArg (fun parsed => parsed.2.1) equal).symm⟩

/-- The first two messages of each side determine the exchange. -/
theorem messages_agree (clientMade : client.Made .client) (serverMade : server.Made .server)
    (same : ∀ side, (client.messages side).take 2 = (server.messages side).take 2)
    (short : ∀ packet ∈ (client.messages .server).take 2, packet.length < 2 ^ 32) :
    client.k = server.k ∧ client.h = server.h ∧ client.neg.cipherC2s = server.neg.cipherC2s ∧
      client.neg.cipherS2c = server.neg.cipherS2c := by
  have ours := same .client
  have theirs := same .server
  simp only [Exchange.messages, take_succ_cons, take_zero, List.cons.injEq, and_true] at ours theirs
  obtain ⟨iC, init⟩ := ours
  obtain ⟨iS, reply⟩ := theirs
  obtain ⟨kS, qS⟩ := ecdh_reply_injective reply (short _ (by simp [Exchange.messages]))
  exact exchanges_agree clientMade serverMade iC iS kS (ecdh_init_injective init) qS

/-- Exchanges of the two ends with the same messages give the same hash and the same
ciphers. -/
theorem tx_ciphers_agree {mine other : Exchange prim} (mineMade : mine.Made side) (otherMade : other.Made side.other)
    (same : ∀ side, (mine.messages side).take 2 = (other.messages side).take 2)
    (short : ∀ packet ∈ (mine.messages .server).take 2, packet.length < 2 ^ 32) :
    mine.h = other.h ∧ ∀ direction session, mine.txCipher direction session = other.txCipher direction session := by
  have agree : mine.k = other.k ∧ mine.h = other.h ∧ mine.neg.cipherC2s = other.neg.cipherC2s ∧
      mine.neg.cipherS2c = other.neg.cipherS2c := by
    cases side with
    | client => exact messages_agree mineMade otherMade same short
    | server =>
      rw [same] at short
      obtain ⟨k, h, c2s, s2c⟩ := messages_agree otherMade mineMade (fun side => (same side).symm) short
      exact ⟨k.symm, h.symm, c2s.symm, s2c.symm⟩
  obtain ⟨k, h, c2s, s2c⟩ := agree
  refine ⟨h, fun direction session => ?_⟩
  cases direction with
  | client => simp only [Exchange.txCipher, k, h, c2s]
  | server => simp only [Exchange.txCipher, k, h, s2c]

variable {side : Side} {mine other : Ledger prim} {session otherSession : Bytes}

theorem side_or_other (side party : Side) : party = side ∨ party = side.other := by
  cases side <;> cases party <;> simp [Side.other]

@[simp] theorem other_other (side : Side) : side.other.other = side := by
  cases side <;> rfl

/-- Two exchanges whose messages begin at the same place of one log took the same
messages. -/
theorem same_messages {party log}
    (leftThere : (left.messages party).take 2 <+: log) (rightThere : (right.messages party).take 2 <+: log) :
    (left.messages party).take 2 = (right.messages party).take 2 := by
  have size (exchange : Exchange prim) : ((exchange.messages party).take 2).length = 2 := by
    cases party <;> rfl
  have among := prefix_of_prefix_length_le leftThere rightThere (by rw [size, size])
  exact among.eq_of_length (by rw [size, size])

/-- The exchanges that two ends noted at the same place took the same messages, if
each opened only what the other sent. -/
theorem recorded_agree (archive : Archive side session mine) (otherArchive : Archive side.other otherSession other)
    (there : mine.opened <+: other.sent) (back : other.opened <+: mine.sent)
    (leftNoted : mine.exchanges[index]? = some left)
    (rightNoted : other.exchanges[index]? = some right) (party : Side) :
    (left.messages party).take 2 = (right.messages party).take 2 := by
  obtain ⟨leftOurs, leftTheirs⟩ := archive.recorded index left leftNoted
  obtain ⟨rightOurs, rightTheirs⟩ := otherArchive.recorded index right rightNoted
  rw [other_other] at rightTheirs
  rcases side_or_other side party with rfl | rfl
  · exact same_messages leftOurs (rightTheirs.trans ((back.filter isKex).drop _))
  · exact same_messages (leftTheirs.trans ((there.filter isKex).drop _)) rightOurs

theorem recorded_short (archive : Archive side session mine) (there : mine.opened <+: other.sent)
    (short : ∀ payload ∈ mine.sent, payload.length < 2 ^ 32)
    (otherShort : ∀ payload ∈ other.sent, payload.length < 2 ^ 32) {exchange : Exchange prim}
    (noted : mine.exchanges[index]? = some exchange) (party : Side) :
    ∀ packet ∈ (exchange.messages party).take 2, packet.length < 2 ^ 32 := by
  obtain ⟨ours, theirs⟩ := archive.recorded index exchange noted
  intro packet member
  rcases side_or_other side party with rfl | rfl
  · exact short packet (mem_of_mem_filter (mem_of_mem_drop (ours.subset member)))
  · exact otherShort packet (there.subset (mem_of_mem_filter (mem_of_mem_drop (theirs.subset member))))

theorem entry_of_prefix_map {β : Type} {image : List β} {source : List α} {f : α → β}
    (agrees : image <+: source.map f) (inside : index < image.length) :
    ∃ entry, source[index]? = some entry ∧ f entry = image[index] := by
  have mapped := prefix_iff_getElem?.mp agrees index inside
  rw [List.getElem?_map] at mapped
  exact Option.map_eq_some_iff.mp mapped

theorem first_of_entry {list : List α} {entry : α} (there : list[index]? = some entry) :
    ∃ first, list[0]? = some first := by
  cases list with
  | nil => simp at there
  | cons first rest => exact ⟨first, rfl⟩

/-- The ciphers one end receives with are the first of those the other sends with. -/
theorem ciphers_agree (archive : Archive side session mine) (otherArchive : Archive side.other otherSession other)
    (there : mine.opened <+: other.sent) (back : other.opened <+: mine.sent)
    (short : ∀ payload ∈ mine.sent, payload.length < 2 ^ 32)
    (otherShort : ∀ payload ∈ other.sent, payload.length < 2 ^ 32)
    (fewer : mine.rxs.length ≤ other.txs.length) : mine.rxs <+: other.txs := by
  have agree {index : Nat} {left right : Exchange prim} (leftNoted : mine.exchanges[index]? = some left)
      (rightNoted : other.exchanges[index]? = some right) :=
    tx_ciphers_agree (archive.made left (mem_of_getElem? leftNoted))
      (otherArchive.made right (mem_of_getElem? rightNoted))
      (recorded_agree archive otherArchive there back leftNoted rightNoted)
      (recorded_short archive there short otherShort leftNoted .server)
  rw [prefix_iff_getElem?]
  intro index inside
  have otherInside : index < other.txs.length := Nat.lt_of_lt_of_le inside fewer
  obtain ⟨left, leftNoted, rx⟩ := entry_of_prefix_map archive.rxs inside
  obtain ⟨right, rightNoted, tx⟩ := entry_of_prefix_map otherArchive.txs otherInside
  have sameSession : session = otherSession := by
    obtain ⟨first, firstNoted⟩ := first_of_entry leftNoted
    obtain ⟨otherFirst, otherFirstNoted⟩ := first_of_entry rightNoted
    rw [archive.name, otherArchive.name, List.head?_eq_getElem?, List.head?_eq_getElem?, firstNoted,
      otherFirstNoted]
    exact (agree firstNoted otherFirstNoted).1
  rw [List.getElem?_eq_getElem otherInside, ← tx, ← rx, sameSession, left.rx_cipher_mirrors]
  exact congrArg some ((agree leftNoted rightNoted).2 side.other otherSession).symm

end Agreement

section Net

/-- What an end of the network may be asked to do: bytes come from the other end
only, and applications keep to `Sendable`. -/
def Input.Allowed : Input → Prop
  | .arrive _ => False
  | .call (.send payload) => Sendable payload
  | .disconnect reason description => Sendable (disconnectPacket reason description)
  | _ => True

/-- How the two ends are set up: the server's key and certificate, the client's
trusted authorities and host name, and when each was made. -/
structure Setup (prim : Primitives) where
  host : PrivateKey
  hostCert : Option Bytes
  certShort : ∀ cert ∈ hostCert, cert.length < 2 ^ 31
  hostCas : List (PublicKey prim)
  hostname : String
  instant : Side → Nat

def Setup.config (setup : Setup prim) : Side → Config prim
  | .client => .client setup.hostCas setup.hostname
  | .server => .server (setup.host.publicKey : PublicKey prim).toBlob setup.hostCert

/-- The outside of a step: the host's own key signs, and writes go through. -/
def Setup.env (setup : Setup prim) (env : Env prim) : Env prim :=
  { env with signer := setup.host.sign prim, fault := fun _ => none }

/-- One end takes a step, or some of the bytes it wrote reach the other. -/
inductive Event (prim : Primitives) where
  | acts (side : Side) (env : Env prim) (input : Input) (allowed : input.Allowed)
  | carries (sender : Side) (count : Nat)

abbrev Net (prim : Primitives) := Side → Endpoint prim

def Net.step (setup : Setup prim) (net : Net prim) : Event prim → Net prim
  | .acts actor env input _ => fun side =>
    if side = actor then (net actor).step (setup.env env) input else net side
  | .carries sender count => fun side =>
    if side = sender then { net side with out := (net side).out.drop count }
    else { net side with input := (net side).input ++ (net sender).out.take count }

/-- The network after some events, from two transports that have done nothing. -/
def Net.after (setup : Setup prim) (events : List (Event prim)) : Net prim :=
  Runs.run (Net.step setup) (fun side => Endpoint.create (setup.config side) (setup.instant side)) events

end Net

section Reading

variable {side : Side} {env : Env prim} {point next : Point prim} {world after : World prim} {rest : Bytes}
  {sender : Endpoint prim}

variable {payload more : Bytes} {text : String} {input : Input}

/-- The other end's identification line is still to be read. -/
def Point.greets : Point prim → Bool
  | .waiting .created | .waiting (.idents _ _) => true
  | _ => false

/-- What an end has written before its first packet. -/
def Endpoint.greeting (sender : Endpoint prim) : Bytes :=
  match sender.phase with
  | .created => []
  | _ => identLine

/-- The bytes an end has yet to read: a line if it still greets, and the packets it
has not opened. -/
def unread (sender : Endpoint prim) (greets : Bool) (opened : Nat) : Bytes :=
  (if greets then sender.greeting else []) ++
    ((ledger sender.trace).packets.drop opened).flatMap (Packet.wire prim)

/-- What an end opened was sent, and what it will read, with what is still to be
delivered, is what it has not opened. -/
structure Reads (sender : Endpoint prim) (point : Point prim) (world : World prim) (rest : Bytes) : Prop where
  delivered : (ledger world.trace).opened <+: (ledger sender.trace).sent
  stream : point.dead = false →
    rest ++ sender.out = unread sender point.greets (ledger world.trace).opened.length
  met : point.dead = false → point.greets = false → sender.phase ≠ .created

theorem sends_greets (sends : Sends env point world payload next) :
    point.greets = false ∧ next.greets = false := by
  cases sends with
  | kexInit proposes size => cases proposes <;> exact ⟨rfl, rfl⟩
  | closing reason description able => rcases able with rfl | ⟨error, rfl⟩ <;> exact ⟨rfl, rfl⟩
  | _ => exact ⟨rfl, rfl⟩

theorem goes_greets (goes : Goes env point world next after) (settled : Settled side point world.t) :
    point.greets = false ∧ next.greets = false := by
  have known := settled.known
  cases goes with
  | prefaced client unspoken =>
    rw [(known : _ = ident)] at unspoken
    exact absurd unspoken (by decide)
  | chatter waits | extInfo waits => cases waits <;> exact ⟨rfl, rfl⟩
  | drained looks queued => rcases looks with rfl | rfl <;> exact ⟨rfl, rfl⟩
  | _ => exact ⟨rfl, rfl⟩

theorem Reads.goOn (reads : Reads sender point world rest)
    (opened : (ledger after.trace).opened = (ledger world.trace).opened)
    (alive : next.dead = false → point.dead = false) (greets : next.greets = point.greets) :
    Reads sender next after rest := by
  obtain ⟨delivered, stream, met⟩ := reads
  constructor
  · rw [opened]
    exact delivered
  · rw [opened, greets]
    exact fun living => stream (alive living)
  · rw [greets]
    exact fun living => met (alive living)

/-- Moves read nothing. -/
theorem reads_moves (moves : Moves env (point, world) (next, after)) (settled : Settled side point world.t)
    (reads : Reads sender point world rest) : Reads sender next after rest := by
  cases moves with
  | sent sends whole =>
    obtain ⟨before, later⟩ := sends_greets sends
    refine reads.goOn ?_ (fun alive => (sends_dead sends).symm.trans alive) (later.trans before.symm)
    simp [World.sent, ledger_snoc, add]
  | cut sends fault =>
    refine ⟨?_, by rintro ⟨⟩, by rintro ⟨⟩⟩
    simpa [World.sent, ledger_snoc, add] using reads.delivered
  | went goes =>
    obtain ⟨before, later⟩ := goes_greets goes settled
    exact reads.goOn (goes_opened goes) (fun _ => goes_alive goes) (later.trans before.symm)
  | drew random => exact ⟨reads.delivered, reads.stream, reads.met⟩
  | failed => exact ⟨reads.delivered, by rintro ⟨⟩, by rintro ⟨⟩⟩

/-- A line read so far stands when more arrives. -/
theorem read_line_more {line input : Bytes}
    (read : readLine line input = .line text rest) : readLine line (input ++ more) = .line text (rest ++ more) := by
  induction input generalizing line with
  | nil => cases read
  | cons byte input ih =>
    simp only [cons_append, readLine] at read ⊢
    split at read
    · rename_i lineEnd
      rw [if_pos lineEnd]
      split at read
      · obtain ⟨rfl, rfl⟩ := LineResult.line.inj read
        rfl
      · cases read
    · rename_i inLine
      rw [if_neg inLine]
      split at read
      · rename_i carriageReturn
        rw [if_pos carriageReturn]
        exact ih read
      · rename_i ordinary
        rw [if_neg ordinary]
        split at read
        · cases read
        · rename_i room
          rw [if_neg room]
          exact ih read

theorem read_ident (tail : Bytes) : readLine [] (identLine ++ tail) = .line ident tail := by
  rfl

/-- A line read from the first bytes of an end's stream is its identification. -/
theorem read_greeting {input tail} (stream : input ++ more = identLine ++ tail)
    (read : readLine [] input = .line text rest) : text = ident ∧ rest ++ more = tail := by
  have later := @read_line_more _ more _ _ _ read
  rw [stream, read_ident] at later
  obtain ⟨same, left⟩ := LineResult.line.inj later
  exact ⟨same.symm, left.symm⟩

variable {reader : Endpoint prim} {random : Nat → UInt8}

theorem sent_short {book : Ledger prim} {t} (sealing : Sealing side point t book) :
    ∀ payload ∈ book.sent, payload.length < 2 ^ 32 := by
  intro payload member
  obtain ⟨packet, there, rfl⟩ := mem_map.mp member
  have fits := (sealing.framed packet there).2
  omega

/-- The ciphers a waiting end receives with are the first of those the other sends
with: each was announced by a NEWKEYS that the end has opened. -/
theorem waiting_ciphers_agree (booked : Booked side (.waiting reader.phase) (reader.world random))
    (alive : (Point.waiting reader.phase).dead = false)
    (senderBooked : Booked side.other (.waiting sender.phase) (sender.world random))
    (there : (ledger reader.trace).opened <+: (ledger sender.trace).sent)
    (back : (ledger sender.trace).opened <+: (ledger reader.trace).sent) :
    (ledger reader.trace).rxs <+: (ledger sender.trace).txs ∧
      (ledger reader.trace).opened.countP isNewKeys = (ledger reader.trace).rxs.length := by
  obtain ⟨_, earlier, all, switches⟩ := booked.opening alive
  obtain ⟨sealedEarlier, allSealed, installed⟩ := senderBooked.sealing.switched
  have opened : (ledger reader.trace).opened = earlier := all.trans (append_nil _)
  have sent : (ledger sender.trace).sent = sealedEarlier := allSealed.trans (append_nil _)
  rw [← opened] at switches
  rw [← sent] at installed
  refine ⟨?_, switches⟩
  apply ciphers_agree booked.archive senderBooked.archive there back (sent_short booked.sealing)
    (sent_short senderBooked.sealing)
  have counted := there.sublist.countP_le (p := isNewKeys)
  rw [switches, installed] at counted
  exact counted

theorem awaits_greets {phase : Phase prim} (awaits : phase.awaitsPacket = true) :
    (Point.waiting phase).greets = false := by
  cases phase with
  | created | idents => cases awaits
  | _ => rfl

/-- The packet an end reads next is the next one the other sealed. -/
theorem read_next {size} (booked : Booked side (.waiting reader.phase) (reader.world random))
    (senderBooked : Booked side.other (.waiting sender.phase) (sender.world random))
    (reads : Reads sender (.waiting reader.phase) (reader.world random) reader.input)
    (back : (ledger sender.trace).opened <+: (ledger reader.trace).sent)
    (awaits : reader.phase.awaitsPacket = true)
    (read : readPacket prim reader.t.rx reader.t.rxSeq reader.input = .packet payload size rest) :
    ∃ (packet : Packet) (left : List Packet),
      (ledger sender.trace).packets.drop (ledger reader.trace).opened.length = packet :: left ∧
        payload = packet.payload ∧ rest ++ sender.out = left.flatMap (Packet.wire prim) := by
  have alive := (awaits_alive awaits).1
  have stream := reads.stream alive
  rw [awaits_greets awaits] at stream
  obtain ⟨agreed, switches⟩ := waiting_ciphers_agree booked alive senderBooked reads.delivered back
  obtain ⟨current, _⟩ := booked.opening alive
  cases next : (ledger sender.trace).packets.drop (ledger reader.trace).opened.length with
  | nil =>
    have empty : reader.input ++ sender.out = [] := by
      rw [stream]
      simp [unread, world, next]
    rw [(append_eq_nil_iff.mp empty).1] at read
    cases read
  | cons packet left =>
    have member : packet ∈ (ledger sender.trace).packets :=
      mem_of_mem_drop (next ▸ mem_cons_self)
    have opened : (ledger reader.trace).opened =
        ((ledger sender.trace).packets.take (ledger reader.trace).opened.length).map Packet.payload := by
      rw [map_take]
      exact prefix_iff_eq_take.mp reads.delivered
    have split : (ledger sender.trace).packets =
        (ledger sender.trace).packets.take (ledger reader.trace).opened.length ++ packet :: left := by
      rw [← next, take_append_drop]
    have key : packet.key = (reader.t.rx, reader.t.rxSeq) := by
      have sealedWith := senderBooked.sealing.keyed.receiver split (agreed.map (·, 0))
        (by rw [← opened, switches, length_map])
      rw [← opened] at sealedWith
      exact sealedWith.trans current.symm
    obtain ⟨padded, fits⟩ := senderBooked.sealing.framed packet member
    have padding := packet.cipher.pad_for_short packet.payload.length
    rw [← padded] at padding
    obtain ⟨cipher, seq⟩ := Prod.mk.inj key
    have whole : reader.input ++ sender.out = reader.t.rx.sealPacket prim reader.t.rxSeq packet.payload packet.pad ++
        left.flatMap (Packet.wire prim) := by
      rw [stream, ← cipher, ← seq]
      simp [unread, world, next, Packet.wire]
    rw [cipher] at padded
    obtain ⟨same, leaves⟩ := read_first prim _ _ padded (by omega) whole read
    exact ⟨packet, left, rfl, same, leaves⟩

/-- The line an end reads is the other's identification. -/
theorem read_line_next {lines total}
    (senderBooked : Booked side.other (.waiting sender.phase) (sender.world random))
    (reads : Reads sender (.waiting reader.phase) (reader.world random) reader.input)
    (waiting : reader.phase = .idents lines total) (read : readLine [] reader.input = .line text rest) :
    text = ident ∧ sender.phase ≠ .created ∧
      rest ++ sender.out = unread sender false (ledger reader.trace).opened.length := by
  have stream := reads.stream
  rw [waiting] at stream
  have started : sender.phase ≠ .created := by
    intro created
    have packets := senderBooked.sealing.fresh (by rw [created]; rfl)
    change (ledger sender.trace).packets = [] at packets
    have empty : reader.input ++ sender.out = [] := by
      rw [stream rfl]
      simp [unread, greeting, created, packets]
    rw [(append_eq_nil_iff.mp empty).1] at read
    cases read
  have greeting : sender.greeting = identLine := by
    unfold greeting
    split
    · exact absurd ‹_› started
    · rfl
  have whole : reader.input ++ sender.out =
      identLine ++ unread sender false (ledger reader.trace).opened.length := by
    rw [stream rfl, unread, unread, Point.greets, if_pos rfl, greeting]
    rfl
  obtain ⟨spoken, left⟩ := read_greeting whole read
  exact ⟨spoken, started, left⟩

/-- A step of an end begins by reading what the other sent next, or nothing. -/
theorem reads_enters (booked : reader.Booked side) (senderBooked : sender.Booked side.other)
    (reads : ∀ random, Reads sender (.waiting reader.phase) (reader.world random) reader.input)
    (back : (ledger sender.trace).opened <+: (ledger reader.trace).sent) (allowed : input.Allowed)
    (enters : Enters env reader input rest point world) : Reads sender point world rest := by
  have before := reads env.random
  cases enters with
  | greeted created whole =>
    rw [created] at before
    exact before.goOn rfl (fun _ => rfl) rfl
  | greetingCut created fault => exact ⟨before.delivered, nofun, nofun⟩
  | arrived bytes => exact absurd allowed id
  | lineRead waiting read =>
    obtain ⟨_, started, left⟩ := read_line_next (senderBooked env.random) before waiting read
    exact ⟨before.delivered, fun _ => left, fun _ _ => started⟩
  | packetRead waiting read =>
    obtain ⟨packet, left, next, rfl, leaves⟩ :=
      read_next (booked env.random) (senderBooked env.random) before back waiting read
    have further : (ledger sender.trace).packets.drop ((ledger reader.trace).opened.length + 1) = left := by
      rw [← drop_drop, next]
      rfl
    have through : (ledger reader.trace).opened ++ [packet.payload] <+: (ledger sender.trace).sent := by
      refine ⟨left.map Packet.payload, ?_⟩
      have split := prefix_append_drop before.delivered
      simp only [world, sent, ← map_drop, next, map_cons] at split
      rw [sent, split]
      simp only [append_assoc, singleton_append]
    constructor
    · simp only [World.noted, World.changed, ledger_snoc, add]
      exact through
    · intro _
      simp only [World.noted, World.changed, ledger_snoc, add, length_append, length_singleton]
      rw [leaves, ← further]
      rfl
    · intro _ _
      exact before.met (awaits_alive waiting).1 (awaits_greets waiting)
  | cancelled waiting =>
    rw [waiting] at before
    exact before.goOn rfl (fun _ => rfl) rfl
  | called idle =>
    rw [idle] at before
    exact before.goOn rfl (fun _ => rfl) rfl
  | closing able =>
    rcases able with idle | ⟨error, failed⟩
    · rw [idle] at before ⊢
      exact before.goOn rfl (fun _ => rfl) rfl
    · rw [failed] at before ⊢
      exact before.goOn rfl (fun alive => alive) rfl
  | stays => exact before

/-- Over the network the surroundings do everything right. -/
theorem proper_of_reads (booked : reader.Booked side) (senderBooked : sender.Booked side.other)
    (reads : ∀ random, Reads sender (.waiting reader.phase) (reader.world random) reader.input)
    (back : (ledger sender.trace).opened <+: (ledger reader.trace).sent) (allowed : input.Allowed)
    (random : Nat → UInt8) : Proper side reader input where
  greeting text rest read waiting := by
    obtain ⟨lines, total, waiting⟩ := waiting
    exact (read_line_next (senderBooked random) (reads random) waiting read).1
  proposal payload size rest awaits read := by
    obtain ⟨packet, left, next, same, _⟩ :=
      read_next (booked random) (senderBooked random) (reads random) back awaits read
    apply (senderBooked random).sealing.proposals
    rw [same]
    exact mem_map_of_mem (mem_of_mem_drop (next ▸ mem_cons_self))
  sendable payload call := by
    rw [call] at allowed
    exact allowed
  closing reason description bye := by
    rw [bye] at allowed
    exact allowed

/-- An end's step keeps its books and reads on. -/
theorem step_reads (short : ∀ message, (env.signer message).length < 2 ^ 16)
    (faultless : ∀ count, env.fault count = none) (booked : reader.Booked side)
    (senderBooked : sender.Booked side.other)
    (reads : ∀ random, Reads sender (.waiting reader.phase) (reader.world random) reader.input)
    (back : (ledger sender.trace).opened <+: (ledger reader.trace).sent) (allowed : input.Allowed) :
    let after := reader.step env input
    ∀ random, Booked side (.waiting after.phase) (after.world random) ∧
      Reads sender (.waiting after.phase) (after.world random) after.input := by
  have proper := proper_of_reads booked senderBooked reads back allowed env.random
  refine step_invariant reader env input
    (fun rest point world => Booked side point world ∧ Reads sender point world rest) ?_ ?_
  · intro rest point world entered
    exact ⟨booked_enters faultless proper booked entered,
      reads_enters booked senderBooked reads back allowed entered⟩
  · intro rest point world next after moves held
    exact ⟨booked_moves short faultless moves held.1, reads_moves moves held.1.settled held.2⟩

end Reading

section Writing

variable {env : Env prim} {point : Point prim} {world : World prim} {rest : Bytes} {sender : Endpoint prim}
  {input : Input}

/-- What is written since a step began is the sealed form of the packets sealed
since. -/
def Writes (sender : Endpoint prim) (world : World prim) : Prop :=
  ∃ fresh, (ledger world.trace).packets = (ledger sender.trace).packets ++ fresh ∧
    world.out = sender.out ++ fresh.flatMap (Packet.wire prim)

theorem writes_nothing (sender : Endpoint prim) (random : Nat → UInt8) : Writes sender (sender.world random) :=
  ⟨[], (append_nil _).symm, (append_nil _).symm⟩

/-- The packet that sending a payload now seals. -/
def World.packet (world : World prim) (payload : Bytes) : Packet where
  cipher := world.t.tx
  seq := world.t.txSeq
  payload := payload
  pad := (List.range (world.t.tx.padFor payload.length)).map world.random

section

variable (faultless : ∀ count, env.fault count = none)

include faultless

theorem writes_moves {next : Point prim} {after}
    (moves : Moves env (point, world) (next, after)) (born : point.unborn = false)
    (writes : Writes sender world) : next.unborn = false ∧ Writes sender after := by
  cases moves with
  | @sent _ _ _ payload sends whole =>
    obtain ⟨fresh, packets, out⟩ := writes
    refine ⟨sends_born sends, fresh ++ [world.packet payload], ?_, ?_⟩
    · simp only [World.sent, ledger_snoc, add, packets, append_assoc]
      rfl
    · simp only [World.sent, out, flatMap_append, flatMap_singleton, append_assoc]
      rfl
  | cut sends fault => cases (faultless _).symm.trans fault
  | went goes =>
    obtain ⟨fresh, packets, out⟩ := writes
    refine ⟨goes_born goes, fresh, ?_, ?_⟩
    · rw [goes_sealed goes, packets]
    · rw [← out]
      cases goes <;> rfl
  | drew random => exact ⟨born, writes⟩
  | failed => exact ⟨rfl, writes⟩

/-- After it has greeted, an end writes packets. -/
theorem step_writes (started : sender.phase ≠ .created) (random : Nat → UInt8) :
    (sender.step env input).phase ≠ .created ∧ Writes sender ((sender.step env input).world random) := by
  have born : (Point.waiting sender.phase).unborn = false := by
    unfold Point.unborn
    split
    · rename_i same
      exact absurd (Point.waiting.inj same) started
    · rfl
  have begins (rest : Bytes) (point : Point prim) (world : World prim)
      (entered : Enters env sender input rest point world) : point.unborn = false ∧ Writes sender world := by
    cases entered with
    | greeted created | greetingCut created => exact absurd created started
    | arrived | stays => exact ⟨born, writes_nothing _ _⟩
    | packetRead waiting read =>
      obtain ⟨fresh, packets, out⟩ := writes_nothing sender env.random
      exact ⟨rfl, fresh, by simpa [World.noted, World.changed, ledger_snoc, add] using packets, out⟩
    | _ => exact ⟨rfl, writes_nothing _ _⟩
  have held := step_invariant sender env input (fun _ point world => point.unborn = false ∧ Writes sender world)
    begins (fun _ _ _ _ _ moves held => writes_moves faultless moves held.1 held.2) random
  refine ⟨?_, held.2⟩
  intro created
  have still := held.1
  rw [created] at still
  cases still

/-- An end that has not greeted yet does nothing else first. -/
theorem created_step (created : sender.phase = .created) (allowed : input.Allowed) :
    sender.step env input = sender ∨
      sender.step env input = { sender with phase := .idents 0 0, out := sender.out ++ identLine } := by
  cases input with
  | start =>
    right
    simp only [Endpoint.step, created, Endpoint.run, writeIdent, faultless]
  | arrive bytes => exact absurd allowed id
  | wake => exact .inl (by simp [Endpoint.step, Endpoint.wake, created, Phase.awaitsPacket])
  | close => exact .inl (by simp [Endpoint.step, created, Phase.awaitsPacket])
  | cancel | call | disconnect => exact .inl (by simp [Endpoint.step, created])

end

theorem greeting_started (started : sender.phase ≠ .created) : sender.greeting = identLine := by
  unfold greeting
  split
  · exact absurd ‹_› started
  · rfl

/-- The other end's step adds to what is to be read. -/
theorem reads_step {side} {random : Nat → UInt8} (faultless : ∀ count, env.fault count = none)
    (allowed : input.Allowed) (booked : Booked side (.waiting sender.phase) (sender.world random))
    (reads : Reads sender point world rest) : Reads (sender.step env input) point world rest := by
  obtain ⟨delivered, stream, met⟩ := reads
  by_cases created : sender.phase = .created
  · rcases created_step faultless created allowed with same | greeted
    · rw [same]
      exact ⟨delivered, stream, met⟩
    · have packets := booked.sealing.fresh (by rw [created]; rfl)
      change (ledger sender.trace).packets = [] at packets
      rw [greeted]
      refine ⟨delivered, ?_, fun _ _ => nofun⟩
      intro alive
      cases greets : point.greets with
      | false => exact absurd created (met alive greets)
      | true =>
        have before := stream alive
        simp only [unread, greets, if_true, greeting, created, packets, drop_nil,
          flatMap_nil, append_nil] at before
        simp only [unread, if_true, greeting, packets, drop_nil, flatMap_nil,
          append_nil]
        rw [← append_assoc, before, nil_append]
  · obtain ⟨started, fresh, packets, out⟩ := @step_writes _ _ _ input faultless created random
    change (ledger (sender.step env input).trace).packets = _ at packets
    change (sender.step env input).out = _ at out
    have inside : (ledger world.trace).opened.length ≤ (ledger sender.trace).packets.length := by
      have shorter := delivered.length_le
      rw [sent, length_map] at shorter
      exact shorter
    constructor
    · refine delivered.trans ?_
      rw [sent, sent, packets, map_append]
      exact prefix_append _ _
    · intro alive
      rw [out, ← append_assoc, stream alive, unread, unread, packets, greeting_started created,
        greeting_started started, drop_append_of_le_length inside, flatMap_append, append_assoc]
    · exact fun _ _ => started

end Writing

section Order

variable {side : Side} {net : Net prim} {setup : Setup prim}

/-- Both ends keep their books and read what the other wrote. -/
structure Net.Ordered (net : Net prim) : Prop where
  booked : ∀ side, (net side).Booked side
  reads : ∀ (side : Side) (random : Nat → UInt8),
    Reads (net side.other) (.waiting (net side).phase) ((net side).world random) (net side).input

theorem signer_short (host : PrivateKey) (message : Bytes) : (host.sign prim message).length < 2 ^ 16 := by
  rw [PrivateKey.sign, length_append, Writer.string_length, prim.sign_size]
  decide

theorem config_settled (setup : Setup prim) (side : Side) :
    Settled side (.waiting .created) (Endpoint.create (setup.config side) (setup.instant side)).t := by
  have blob : (setup.host.publicKey : PublicKey prim).toBlob.length < 2 ^ 31 := by
    rw [PublicKey.toBlob, length_append, Writer.string_length, PublicKey.size]
    decide
  have unsent : ∀ payload ∈ ([] : List Bytes), Sendable payload := fun _ member => absurd member not_mem_nil
  have uncertified : ∀ cert ∈ (none : Option Bytes), cert.length < 2 ^ 31 := fun _ member => by cases member
  cases side with
  | client =>
    refine ⟨rfl, ⟨_, rfl⟩, ?_, uncertified, by rintro ⟨⟩, trivial, unsent⟩
    exact (by decide : ([] : Bytes).length < 2 ^ 31)
  | server => exact ⟨rfl, ⟨_, rfl⟩, blob, setup.certShort, by rintro ⟨⟩, trivial, unsent⟩

/-- Two transports that have done nothing are in order. -/
theorem created_ordered (setup : Setup prim) :
    Net.Ordered (fun side => Endpoint.create (setup.config side) (setup.instant side)) := by
  constructor
  · intro side random
    have nobody (packet : Bytes) (member : packet ∈ ([] : List Bytes)) : Proposal side packet :=
      absurd member not_mem_nil
    have noPacket (packet : Packet) (member : packet ∈ []) : packet.Framed := absurd member not_mem_nil
    have noExchange (exchange : Exchange prim) (member : exchange ∈ []) : exchange.Made side :=
      absurd member not_mem_nil
    constructor
    · exact ⟨[], rfl, .inr rfl⟩
    · exact ⟨⟨[], rfl, .inr rfl⟩, fun _ => rfl⟩
    · exact config_settled setup side
    · exact fun _ => ⟨[], [], [], rfl, rfl, rfl, rfl, rfl, rfl, rfl⟩
    · exact ⟨licensed_nil _, rfl, ⟨[], rfl, rfl⟩, noPacket, nobody, fun _ => rfl⟩
    · exact fun _ => ⟨rfl, [], rfl, rfl⟩
    · refine ⟨⟨rfl, nil_prefix, nil_prefix⟩, ?_, noExchange⟩
      intro index exchange noted
      exact absurd (mem_of_getElem? noted) not_mem_nil
  · intro side random
    exact ⟨⟨_, rfl⟩, fun _ => rfl, fun _ greets => absurd greets.symm Bool.false_ne_true⟩

theorem other_ne (side : Side) : side.other ≠ side := by
  cases side <;> nofun

theorem other_of_ne {actor} (different : side ≠ actor) : side.other = actor := by
  cases side <;> cases actor <;> first | rfl | exact absurd rfl different

/-- Carrying bytes changes neither what is to be read nor the books. -/
theorem carries_ordered (sender : Side) (count : Nat) (ordered : net.Ordered) :
    (net.step setup (.carries sender count)).Ordered := by
  constructor
  · intro side random
    have kept := ordered.booked side random
    simp only [Net.step]
    split
    · exact ⟨kept.owes, kept.holds, kept.settled, kept.progress, kept.sealing, kept.opening, kept.archive⟩
    · exact kept
  · intro side random
    obtain ⟨delivered, stream, met⟩ := ordered.reads side random
    by_cases same : side = sender
    · have apart : side.other ≠ sender := same ▸ other_ne side
      simp only [Net.step, if_pos same, if_neg apart]
      exact ⟨delivered, stream, met⟩
    · simp only [Net.step, if_neg same, if_pos (other_of_ne same)]
      refine ⟨delivered, ?_, met⟩
      intro alive
      rw [← other_of_ne same, append_assoc, take_append_drop]
      exact stream alive

theorem acts_ordered (actor : Side) (env : Env prim) (input : Input) (allowed : input.Allowed)
    (ordered : net.Ordered) : (net.step setup (.acts actor env input allowed)).Ordered := by
  have faultless (count : Nat) : (setup.env env).fault count = none := rfl
  have back := (ordered.reads actor.other fun _ => 0).delivered
  rw [other_other] at back
  have stepped := step_reads (signer_short setup.host) faultless (ordered.booked actor)
    (ordered.booked actor.other) (ordered.reads actor) back allowed
  constructor
  · intro side random
    by_cases same : side = actor
    · simp only [Net.step, if_pos same]
      rw [same]
      exact (stepped random).1
    · simp only [Net.step, if_neg same]
      exact ordered.booked side random
  · intro side random
    by_cases same : side = actor
    · have apart : side.other ≠ actor := same ▸ other_ne side
      simp only [Net.step, if_pos same, if_neg apart]
      rw [same]
      exact (stepped random).2
    · simp only [Net.step, if_neg same, if_pos (other_of_ne same)]
      have reads := ordered.reads side random
      rw [other_of_ne same] at reads
      exact reads_step faultless allowed (ordered.booked actor random) reads

theorem after_ordered (setup : Setup prim) (events : List (Event prim)) : (Net.after setup events).Ordered := by
  refine run_invariant _ _ (fun _ net => Net.Ordered net) (created_ordered setup) ?_ events
  intro past net event ordered
  cases event with
  | acts actor env input allowed => exact acts_ordered actor env input allowed ordered
  | carries sender count => exact carries_ordered sender count ordered

/-- The packets that one end's application got are, at every moment and whatever key
exchanges took place, the first of those the other's application submitted. -/
theorem rekeying_keeps_order (setup : Setup prim) (events : List (Event prim)) (side : Side) :
    (ledger (Net.after setup events side).trace).returned.filter isApp <+:
      (ledger (Net.after setup events side.other).trace).submitted.filter isApp := by
  have ordered := after_ordered setup events
  have returned := (ordered.booked side fun _ => 0).holds.returned_first
  have delivered := (ordered.reads side fun _ => 0).delivered.filter isApp
  have submitted := (ordered.booked side.other fun _ => 0).owes.sent_first
  exact (returned.trans delivered).trans submitted

end Order

end Shh.Transport
