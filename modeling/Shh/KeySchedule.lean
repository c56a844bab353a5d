import Shh.Ledger
import Shh.Streams

/-!
# The keys of one endpoint

Which key each packet is sealed or opened with follows from the packets before it
and the ciphers installed, and the installed ciphers follow from the noted
exchanges. Each exchange in turn is recorded by the messages it took from both
sides. So two endpoints that have seen the same messages have the same keys, and
no more of an endpoint's state has to be compared.
-/

namespace Shh.Transport

open List Wire Computations Runs Streams

variable {prim : Primitives}

section Sealing

variable {side : Side} {env : Env prim} {point next : Point prim} {world after : World prim} {payload : Bytes}

theorem ours_short {init : KexInit} (ours : Ours side init) : init.encode.length < 2 ^ 16 := by
  obtain ⟨withCert, cookie, size, rfl⟩ := ours
  have shared : (KexInit.ours side (hostKeyAlgos withCert) cookie).encode.length =
      (KexInit.ours side (hostKeyAlgos withCert) []).encode.length + cookie.length := by
    simp only [KexInit.encode, KexInit.lists, KexInit.ours, length_append, length_nil]
    omega
  have fixed : (KexInit.ours side (hostKeyAlgos withCert) []).encode.length < 2 ^ 15 := by
    cases side <;> cases withCert <;> decide +kernel
  omega

theorem presented_short (kex : Kex) (settled : Settled side point world.t) :
    (world.t.presented kex).length < 2 ^ 31 := by
  unfold Fields.presented
  split
  · cases configured : world.t.hostCert with
    | none => decide
    | some cert => exact settled.cert cert configured
  · exact settled.blob

/-- Whatever is sent fits the length field, if the host signer's signatures are
short. -/
theorem sends_short (short : ∀ message, (env.signer message).length < 2 ^ 16)
    (sends : Sends env point world payload next) (settled : Settled side point world.t) :
    payload.length + 256 < 2 ^ 32 := by
  have sendable := settled.sendable
  cases sends with
  | kexInit proposes size =>
    obtain ⟨withCert, algos⟩ := settled.algos
    have bound := ours_short (⟨withCert, _, size, by rw [algos]⟩ :
      Ours world.t.side (KexInit.ours world.t.side world.t.hostKeyAlgos _))
    omega
  | @ecdhInit _ kex resume xSecret mlkemSeed client secretSize seedSize =>
    have bound := @ClientKex.public_key_short prim ⟨kex.neg.kex, xSecret, mlkemSeed⟩
    simp only [ecdhInitPacket, Writer.byte, length_append, length_cons, length_nil,
      Writer.string_length]
    omega
  | @ecdhReply _ kex _ _ _ qC qS k _ _ parsed secretSize seedSize answered =>
    have point := server_exchange_short answered
    have signature := short (exchangeHash prim world.t.vPeer ident kex.theirsBytes kex.ours.encode
      (world.t.presented kex) qC qS k)
    have blob := presented_short kex settled
    simp only [ecdhReplyPacket, Kex.asServer, Writer.byte, length_append, length_cons,
      length_nil, Writer.string_length]
    omega
  | newKeys | extInfo => decide
  | resumed payload => exact (sendable payload (by simp [Point.owed, Resume.owed])).2
  | submitted notDue => exact (sendable payload (by simp [Point.owed])).2
  | closing reason description able => exact (sendable _ (by simp [Point.farewell])).2

/-- The cipher state and number that a packet is sealed with. -/
def Packet.key (packet : Packet) : Cipher × Nat := (packet.cipher, packet.seq)

/-- Cipher state and number after a packet. -/
def advanceKey (key : Cipher × Nat) : Cipher × Nat := (key.1.advance, (key.2 + 1) % 2 ^ 32)

/-- The cipher state and number after some packets, given the ciphers installed. -/
def keyAfter (installed : List Cipher) (packets : List Bytes) : Cipher × Nat :=
  (track advanceKey isNewKeys (Cipher.plain, 0) (installed.map (·, 0)) packets).1

/-- NEWKEYS was sent and its keys are not installed yet. -/
def Point.unsealed : Point prim → List Bytes
  | .announced _ _ => [[Msg.newKeys]]
  | _ => []

/-- The identification was not written. -/
def Point.unborn : Point prim → Bool
  | .waiting .created => true
  | _ => false

/-- A packet is padded as its cipher asks and fits the length field. -/
def Packet.Framed (packet : Packet) : Prop :=
  packet.pad.length = packet.cipher.padFor packet.payload.length ∧ packet.payload.length + 256 < 2 ^ 32

/-- Every packet was sealed under the key that the packets before it determine, and
so will the next be. -/
structure Sealing (side : Side) (point : Point prim) (t : Fields prim) (book : Ledger prim) : Prop where
  keyed : Keyed advanceKey isNewKeys Packet.key Packet.payload (Cipher.plain, 0) (book.txs.map (·, 0))
    book.packets
  current : (t.tx, t.txSeq) = keyAfter book.txs book.sent
  switched : ∃ earlier, book.sent = earlier ++ point.unsealed ∧ earlier.countP isNewKeys = book.txs.length
  framed : ∀ packet ∈ book.packets, packet.Framed
  proposals : ∀ payload ∈ book.sent, Proposal side payload
  fresh : point.unborn = true → book.packets = []

theorem sends_born (sends : Sends env point world payload next) : next.unborn = false := by
  cases sends with
  | kexInit proposes size => cases proposes <;> rfl
  | closing reason description able => rcases able with rfl | ⟨error, rfl⟩ <;> rfl
  | _ => rfl

theorem goes_born (goes : Goes env point world next after) : next.unborn = false := by
  cases goes with
  | chatter waits | extInfo waits => cases waits <;> rfl
  | _ => rfl

theorem sends_unsealed (sends : Sends env point world payload next) (settled : Settled side point world.t) :
    point.unsealed = [] ∧ next.unsealed = [payload].filter isNewKeys := by
  have sendable := settled.sendable
  cases sends with
  | kexInit proposes size =>
    cases proposes <;> exact ⟨rfl, by simp [Point.unsealed, init_not_new_keys (kex_init_kind _)]⟩
  | ecdhInit client secretSize seedSize => exact ⟨rfl, by simp [Point.unsealed, ecdh_init_not_new_keys]⟩
  | ecdhReply parsed secretSize seedSize answered =>
    exact ⟨rfl, by simp [Point.unsealed, ecdh_reply_not_new_keys]⟩
  | newKeys => exact ⟨rfl, rfl⟩
  | extInfo announced => exact ⟨rfl, by simp [Point.unsealed, not_kex_not_new_keys ext_info_not_kex]⟩
  | resumed payload =>
    have other := not_kex_not_new_keys (sendable payload (by simp [Point.owed, Resume.owed])).1
    exact ⟨rfl, by simp [Point.unsealed, other]⟩
  | submitted notDue =>
    have other := not_kex_not_new_keys (sendable payload (by simp [Point.owed])).1
    exact ⟨rfl, by simp [Point.unsealed, other]⟩
  | closing reason description able =>
    have other := not_kex_not_new_keys (disconnect_not_kex reason description)
    exact ⟨rfl, by simp [Point.unsealed, other]⟩

theorem not_kex_proposal {packet} (other : isKex packet = false) : Proposal side packet := by
  intro init
  rw [peers_is_kex init] at other
  cases other.symm

theorem other_kind_proposal {packet type} (other : kind packet = type)
    (different : type ≠ Msg.kexInit) : Proposal side packet :=
  fun init => absurd (other.symm.trans init) different

theorem sends_proposal (sends : Sends env point world payload next) (settled : Settled side point world.t) :
    Proposal side payload := by
  have sendable := settled.sendable
  cases sends with
  | kexInit proposes size =>
    obtain ⟨withCert, algos⟩ := settled.algos
    intro _
    exact ⟨_, ⟨withCert, _, size, by rw [settled.role, algos]⟩, rfl⟩
  | ecdhInit => exact other_kind_proposal (ecdh_init_kind _) (by decide)
  | ecdhReply => exact other_kind_proposal (ecdh_reply_kind _ _ _) (by decide)
  | newKeys => exact other_kind_proposal rfl (by decide)
  | extInfo announced => exact not_kex_proposal ext_info_not_kex
  | resumed payload => exact not_kex_proposal (sendable payload (by simp [Point.owed, Resume.owed])).1
  | submitted notDue => exact not_kex_proposal (sendable payload (by simp [Point.owed])).1
  | closing reason description able => exact not_kex_proposal (disconnect_not_kex _ _)

/-- A packet is sealed when all announced keys are installed, so its key is the
current one and the next is its successor. -/
theorem sealing_sends (through : Bytes → Bytes) (short : ∀ message, (env.signer message).length < 2 ^ 16)
    (sends : Sends env point world payload next) (settled : Settled side point world.t)
    (sealing : Sealing side point world.t (ledger world.trace)) :
    Sealing side next (world.sent payload through).t (ledger (world.sent payload through).trace) := by
  obtain ⟨keyed, current, ⟨earlier, all, switches⟩, framed, proposals, _⟩ := sealing
  obtain ⟨before, announces⟩ := sends_unsealed sends settled
  rw [before, append_nil] at all
  rw [← all] at switches
  have exhausted : ((ledger world.trace).txs.map (·, 0)).length = (ledger world.trace).sent.countP isNewKeys := by
    rw [length_map, switches]
  have log : (ledger (world.sent payload through).trace).sent = (ledger world.trace).sent ++ [payload] := by
    simp [World.sent, ledger_snoc, Ledger.add, Ledger.sent]
  constructor
  · simp only [World.sent, ledger_snoc, Ledger.add]
    exact keyed.snoc (Nat.le_of_eq exhausted.symm) current
  · rw [log]
    simp only [World.sent, ledger_snoc, Ledger.add, keyAfter] at current ⊢
    rw [track_exhausted (Nat.le_of_eq exhausted), ← current]
    rfl
  · rw [log, announces]
    simp only [World.sent, ledger_snoc, Ledger.add]
    cases switch : isNewKeys payload with
    | true => exact ⟨(ledger world.trace).sent, by simp [switch], switches⟩
    | false => exact ⟨(ledger world.trace).sent ++ [payload], by simp [switch], by simp [switch, switches]⟩
  · simp only [World.sent, ledger_snoc, Ledger.add, mem_append, mem_singleton]
    rintro packet (old | rfl)
    · exact framed packet old
    · exact ⟨by rw [length_map, length_range], sends_short short sends settled⟩
  · rw [log]
    simp only [mem_append, mem_singleton]
    rintro packet (old | rfl)
    · exact proposals packet old
    · exact sends_proposal sends settled
  · intro unborn
    cases (sends_born sends).symm.trans unborn

theorem goes_tx (goes : Goes env point world next after) (installed : point.unsealed = []) :
    (ledger after.trace).txs = (ledger world.trace).txs ∧ after.t.tx = world.t.tx ∧
      after.t.txSeq = world.t.txSeq ∧ next.unsealed = [] := by
  cases goes with
  | installed => exact absurd installed (cons_ne_nil _ _)
  | chatter waits | extInfo waits => cases waits <;> exact ⟨rfl, rfl, rfl, rfl⟩
  | _ => exact ⟨by simp [World.noted, World.changed, ledger_snoc, Ledger.add], rfl, rfl, rfl⟩

/-- The new cipher is used right after the NEWKEYS that announced it. -/
theorem sealing_installed (exchange : Exchange prim) (resume : Resume) (cipher : Cipher)
    (sealing : Sealing side (.announced exchange resume) world.t (ledger world.trace)) :
    Sealing side (.waiting (.newKeys exchange resume)) (world.t.withTx cipher)
      (ledger (world.trace ++ [.txInstalled cipher])) := by
  obtain ⟨keyed, current, ⟨earlier, all, switches⟩, framed, proposals, _⟩ := sealing
  have sent : (ledger (world.trace ++ [.txInstalled cipher])).sent = earlier ++ [[Msg.newKeys]] := by
    rw [ledger_snoc]
    exact all
  rw [ledger_snoc] at sent ⊢
  constructor
  · simp only [Ledger.add, map_append]
    exact keyed.extend
  · rw [sent]
    simp only [Ledger.add, keyAfter, map_append, map_cons, map_nil]
    rw [track_switch (by rw [switches, length_map]) rfl]
    rfl
  · rw [sent]
    refine ⟨_, (append_nil _).symm, ?_⟩
    simp [Ledger.add, switches, isNewKeys]
  · exact framed
  · exact proposals
  · intro clash
    cases clash

theorem sealing_goes (goes : Goes env point world next after)
    (sealing : Sealing side point world.t (ledger world.trace)) :
    Sealing side next after.t (ledger after.trace) := by
  by_cases installed : point.unsealed = []
  · obtain ⟨keyed, current, switched, framed, proposals, fresh⟩ := sealing
    obtain ⟨txs, tx, txSeq, still⟩ := goes_tx goes installed
    have packets := goes_sealed goes
    have sent : (ledger after.trace).sent = (ledger world.trace).sent :=
      congrArg (List.map Packet.payload) packets
    rw [installed] at switched
    constructor
    · rw [txs, packets]
      exact keyed
    · rw [txs, sent, tx, txSeq]
      exact current
    · rw [txs, sent, still]
      exact switched
    · rw [packets]
      exact framed
    · rw [sent]
      exact proposals
    · intro unborn
      cases (goes_born goes).symm.trans unborn
  · cases goes with
    | installed => exact sealing_installed _ _ _ sealing
    | drained looks queued => rcases looks with rfl | rfl <;> exact absurd rfl installed
    | _ => exact absurd rfl installed

theorem sealing_fails (reason : Error) (able : point.mayFail = true)
    (sealing : Sealing side point world.t (ledger world.trace)) :
    Sealing side (.waiting (.failed reason)) world.t (ledger world.trace) := by
  obtain ⟨keyed, current, switched, framed, proposals, fresh⟩ := sealing
  refine ⟨keyed, current, ?_, framed, proposals, nofun⟩
  -- The code does not give up between NEWKEYS and the new keys.
  cases point with
  | announced exchange resume => cases able
  | _ => exact switched

end Sealing

section Opening

variable {side : Side} {env : Env prim} {point next : Point prim} {world after : World prim} {payload : Bytes}

/-- The next packet will be opened under the key that the packets before it
determine, once the one in hand is dealt with. -/
def Opening (point : Point prim) (t : Fields prim) (book : Ledger prim) : Prop :=
  (t.rx, t.rxSeq) = keyAfter book.rxs book.opened ∧
    ∃ earlier, book.opened = earlier ++ point.inHand ∧ earlier.countP isNewKeys = book.rxs.length

theorem sends_handled (sends : Sends env point world payload next) :
    point.inHand.countP isNewKeys = 0 ∧ next.inHand = [] := by
  cases sends with
  | kexInit proposes size =>
    cases proposes with
    | respond waits peers => exact ⟨none_counted (init_not_new_keys peers), rfl⟩
    | _ => exact ⟨rfl, rfl⟩
  | ecdhReply parsed secretSize seedSize answered =>
    rw [(read_ecdh_init_ok.mp parsed).1]
    exact ⟨none_counted (ecdh_init_not_new_keys _), rfl⟩
  | _ => exact ⟨rfl, rfl⟩

/-- Nothing is left in hand, and it was not NEWKEYS. -/
theorem opening_handled (handled : point.inHand.countP isNewKeys = 0) (emptied : next.inHand = [])
    {t : Fields prim} {book : Ledger prim} (opening : Opening point t book) : Opening next t book := by
  obtain ⟨current, earlier, all, switches⟩ := opening
  refine ⟨current, book.opened, ?_, ?_⟩
  · rw [emptied, append_nil]
  · rw [all, countP_append, switches, handled, Nat.add_zero]

theorem opening_sends (through : Bytes → Bytes) (sends : Sends env point world payload next)
    (opening : Opening point world.t (ledger world.trace)) :
    Opening next (world.sent payload through).t (ledger (world.sent payload through).trace) := by
  obtain ⟨handled, emptied⟩ := sends_handled sends
  have kept := opening_handled handled emptied opening
  simpa only [World.sent, ledger_snoc, Ledger.add, Opening] using kept

/-- The new cipher is used right after the NEWKEYS that announced it. -/
theorem opening_installed (exchange : Exchange prim) (resume : Resume) (cipher : Cipher) (instant : Nat)
    (opening : Opening (.taken (.newKeys exchange resume) [Msg.newKeys]) world.t (ledger world.trace)) :
    Opening (.ended exchange resume) (world.t.withRx cipher instant)
      (ledger (world.trace ++ [.rxInstalled cipher])) := by
  obtain ⟨current, earlier, all, switches⟩ := opening
  have opened : (ledger (world.trace ++ [.rxInstalled cipher])).opened = earlier ++ [[Msg.newKeys]] := by
    rw [ledger_snoc]
    exact all
  rw [ledger_snoc] at opened ⊢
  unfold Opening
  rw [opened]
  refine ⟨?_, _, (append_nil _).symm, ?_⟩
  · simp only [Ledger.add, keyAfter, map_append, map_cons, map_nil]
    rw [track_switch (by rw [switches, length_map]) rfl]
    rfl
  · simp [Ledger.add, switches, isNewKeys]

theorem opening_goes (goes : Goes env point world next after) (settled : Settled side point world.t)
    (alive : next.dead = false) (opening : Opening point world.t (ledger world.trace)) :
    Opening next after.t (ledger after.trace) := by
  have opened := goes_opened goes
  cases goes_turns goes settled with
  | noted | sealing | finished =>
    simp only [World.noted, World.changed, ledger_snoc, Ledger.add]
    exact opening
  | opening exchange resume => exact opening_installed _ _ _ _ opening
  | kept stage sameExchanges sameTxs sameRxs session rx handled =>
    rcases handled with dead | ⟨handled, emptied⟩
    · cases alive.symm.trans dead
    · unfold Opening
      rw [opened, sameRxs, rx]
      exact opening_handled handled emptied opening

end Opening

section Schedule

variable {side : Side} {session : Bytes} {book : Ledger prim} {exchange : Exchange prim}

/-- The session and the installed ciphers are those of the noted exchanges. -/
structure Schedule (side : Side) (session : Bytes) (book : Ledger prim) : Prop where
  name : session = (book.exchanges.head?.map Exchange.h).getD []
  txs : book.txs <+: book.exchanges.map (fun exchange => exchange.txCipher side session)
  rxs : book.rxs <+: book.exchanges.map (fun exchange => exchange.rxCipher side session)

/-- Either no exchange is noted and the session has no name yet, or it has one. -/
theorem Schedule.named (schedule : Schedule side session book) :
    book.exchanges = [] ∧ session = [] ∨ book.exchanges ≠ [] ∧ session ≠ [] := by
  have name := schedule.name
  cases noted : book.exchanges with
  | nil =>
    rw [noted] at name
    exact .inl ⟨rfl, name⟩
  | cons first rest =>
    rw [noted] at name
    have size : first.h.length = 32 := by
      rw [first.hashed]
      exact prim.sha256_size _
    change session = first.h at name
    refine .inr ⟨cons_ne_nil _ _, ?_⟩
    rintro rfl
    rw [← name] at size
    exact absurd size (by decide)

/-- A new exchange names the session if it is the first. -/
theorem schedule_noted (schedule : Schedule side session book) (first : exchange.first = session.isEmpty) :
    Schedule side (if exchange.first then exchange.h else session) (book.add (.keyed exchange)) := by
  obtain ⟨name, txs, rxs⟩ := schedule
  rcases Schedule.named ⟨name, txs, rxs⟩ with ⟨none, unnamed⟩ | ⟨some, named⟩
  · -- The first exchange: no cipher is installed yet.
    rw [none] at txs rxs
    refine ⟨?_, ?_, ?_⟩
    · simp [Ledger.add, none, first, unnamed]
    · simp [Ledger.add, prefix_nil.mp txs]
    · simp [Ledger.add, prefix_nil.mp rxs]
  · have notFirst : exchange.first = false := by
      rw [first]
      exact isEmpty_eq_false_iff.mpr named
    simp only [notFirst, Bool.false_eq_true, if_false]
    refine ⟨?_, ?_, ?_⟩
    · simp only [Ledger.add]
      rw [List.head?_append_of_ne_nil _ some]
      exact name
    · simp only [Ledger.add, map_append]
      exact txs.trans (prefix_append _ _)
    · simp only [Ledger.add, map_append]
      exact rxs.trans (prefix_append _ _)

/-- A list that agrees with the first entries of a mapped list agrees with one more
when it is extended by the next. -/
theorem prefix_map_next {α β : Type} {image : List β} {front : List α} {last} {f : α → β}
    (agrees : image <+: (front ++ [last]).map f) (size : image.length = front.length) :
    image ++ [f last] <+: (front ++ [last]).map f := by
  have same : image = front.map f := by
    rw [map_append] at agrees
    have shorter := prefix_of_prefix_length_le agrees (prefix_append _ _)
      (by rw [length_map, size])
    exact shorter.eq_of_length (by rw [length_map, size])
  rw [same, map_append]
  exact prefix_refl _

section

variable {front : List (Exchange prim)}
  (schedule : Schedule side session book)
  (noted : book.exchanges = front ++ [exchange])

include schedule noted

/-- The last exchange's ciphers are installed when the earlier ones' are. -/
theorem schedule_sealing (size : book.txs.length = front.length) :
    Schedule side session (book.add (.txInstalled (exchange.txCipher side session))) := by
  refine ⟨schedule.name, ?_, schedule.rxs⟩
  have agrees := schedule.txs
  simp only [Ledger.add]
  rw [noted] at agrees ⊢
  exact prefix_map_next agrees size

theorem schedule_opening (size : book.rxs.length = front.length) :
    Schedule side session (book.add (.rxInstalled (exchange.rxCipher side session))) := by
  refine ⟨schedule.name, schedule.txs, ?_⟩
  have agrees := schedule.rxs
  simp only [Ledger.add]
  rw [noted] at agrees ⊢
  exact prefix_map_next agrees size

end

end Schedule

section Archive

variable {side : Side} {env : Env prim} {point next : Point prim} {world after : World prim} {payload : Bytes}
  {session : Bytes} {book later : Ledger prim}

/-- The noted exchanges: where their first two messages stand in the traffic, how
they were computed, and the session and the ciphers they gave. -/
structure Archive (side : Side) (session : Bytes) (book : Ledger prim) : Prop
    extends Schedule side session book where
  recorded : ∀ (index : Nat) (exchange : Exchange prim), book.exchanges[index]? = some exchange →
    (exchange.messages side).take 2 <+: (book.sent.filter isKex).drop (3 * index) ∧
      (exchange.messages side.other).take 2 <+: (book.opened.filter isKex).drop (3 * index)
  made : ∀ exchange ∈ book.exchanges, exchange.Made side

/-- More traffic leaves the archive as it is. -/
theorem Archive.grow (archive : Archive side session book) (exchanges : later.exchanges = book.exchanges)
    (txs : later.txs = book.txs) (rxs : later.rxs = book.rxs) (sent : book.sent <+: later.sent)
    (opened : book.opened <+: later.opened) : Archive side session later := by
  refine ⟨⟨?_, ?_, ?_⟩, ?_, ?_⟩
  · rw [exchanges]
    exact archive.name
  · rw [exchanges, txs]
    exact archive.txs
  · rw [exchanges, rxs]
    exact archive.rxs
  · rw [exchanges]
    intro index exchange entry
    obtain ⟨ours, theirs⟩ := archive.recorded index exchange entry
    exact ⟨ours.trans ((sent.filter isKex).drop _), theirs.trans ((opened.filter isKex).drop _)⟩
  · rw [exchanges]
    exact archive.made

/-- A new exchange is noted: its messages are the last ones, and it names the
session if it is the first. -/
theorem archive_noted {exchange : Exchange prim} {sent got : List Bytes}
    (archive : Archive side session book) (made : exchange.Made side) (first : exchange.first = session.isEmpty)
    (sentAll : book.sent.filter isKex = sent ++ (exchange.messages side).take 2)
    (gotAll : book.opened.filter isKex = got ++ (exchange.messages side.other).take 2)
    (sentSize : sent.length = 3 * book.exchanges.length) (gotSize : got.length = 3 * book.exchanges.length) :
    Archive side (if exchange.first then exchange.h else session) (book.add (.keyed exchange)) := by
  have recorded : ∀ (index : Nat) (other : Exchange prim), (book.exchanges ++ [exchange])[index]? = some other →
      (other.messages side).take 2 <+: (book.sent.filter isKex).drop (3 * index) ∧
        (other.messages side.other).take 2 <+: (book.opened.filter isKex).drop (3 * index) := by
    intro index other entry
    rcases Nat.lt_trichotomy index book.exchanges.length with earlier | same | beyond
    · rw [List.getElem?_append_left earlier] at entry
      exact archive.recorded index other entry
    · rw [same, List.getElem?_concat_length] at entry
      rw [same, ← Option.some.inj entry, sentAll, gotAll, drop_left' sentSize, drop_left' gotSize]
      exact ⟨prefix_refl _, prefix_refl _⟩
    · rw [List.getElem?_eq_none (by rw [length_append, length_singleton]; omega)] at entry
      cases entry
  have made : ∀ other ∈ book.exchanges ++ [exchange], other.Made side := by
    intro other member
    rcases mem_append.mp member with old | new
    · exact archive.made other old
    · rw [mem_singleton.mp new]
      exact made
  exact ⟨schedule_noted archive.toSchedule first, recorded, made⟩

theorem archive_sends (through : Bytes → Bytes)
    (archive : Archive side world.t.sessionId (ledger world.trace)) :
    Archive side (world.sent payload through).t.sessionId (ledger (world.sent payload through).trace) := by
  simp only [World.sent, ledger_snoc]
  refine archive.grow rfl rfl rfl ?_ (prefix_refl _)
  simp only [Ledger.add, Ledger.sent, map_append]
  exact prefix_append _ _

theorem archive_goes (goes : Goes env point world next after) (settled : Settled side point world.t)
    (progress : Progress side point (ledger world.trace))
    (archive : Archive side world.t.sessionId (ledger world.trace)) :
    Archive side after.t.sessionId (ledger after.trace) := by
  have known := settled.known
  have packets := goes_sealed goes
  have opened := goes_opened goes
  obtain ⟨finished, sent, got, exchanges, sentAll, gotAll, sentSize, gotSize, txs, rxs⟩ := progress
  cases goes_turns goes settled with
  | noted _ exchange resume =>
    have all : (ledger world.trace).exchanges = finished := by
      rw [exchanges]
      exact append_nil _
    rw [← all] at sentSize gotSize
    simp only [World.noted, World.changed, ledger_snoc]
    exact archive_noted archive known.1 known.2 sentAll gotAll sentSize gotSize
  | sealing _ exchange resume =>
    simp only [World.noted, World.changed, ledger_snoc, settled.role]
    exact ⟨schedule_sealing archive.toSchedule exchanges txs, archive.recorded, archive.made⟩
  | opening _ exchange resume =>
    simp only [World.noted, World.changed, ledger_snoc, settled.role]
    exact ⟨schedule_opening archive.toSchedule exchanges rxs, archive.recorded, archive.made⟩
  | finished =>
    simp only [World.noted, ledger_snoc]
    exact archive
  | kept stage sameExchanges sameTxs sameRxs session rx handled =>
    rw [session]
    refine archive.grow sameExchanges sameTxs sameRxs ?_ ?_
    · rw [Ledger.sent, Ledger.sent, packets]
    · rw [opened]

end Archive

section Books

variable {side : Side} {env : Env prim} {point next : Point prim} {world after : World prim} {payload : Bytes}

variable {phase : Phase prim} {size : Nat}

/-- All the books of an endpoint. After a failure some of them are closed: nothing
more is received. -/
structure Booked (side : Side) (point : Point prim) (world : World prim) : Prop where
  owes : Owes point (ledger world.trace)
  holds : Holds point world.t.queued (ledger world.trace)
  settled : Settled side point world.t
  progress : point.dead = false → Progress side point (ledger world.trace)
  sealing : Sealing side point world.t (ledger world.trace)
  opening : point.dead = false → Opening point world.t (ledger world.trace)
  archive : Archive side world.t.sessionId (ledger world.trace)

theorem booked_sends (through : Bytes → Bytes) (short : ∀ message, (env.signer message).length < 2 ^ 16)
    (sends : Sends env point world payload next) (booked : Booked side point world) :
    Booked side next (world.sent payload through) where
  owes := owes_sends through sends booked.owes
  holds := holds_sends through sends booked.holds
  settled := settled_sends through sends booked.settled
  progress := by
    rw [sends_dead sends]
    intro alive
    exact progress_sends through sends booked.settled (booked.progress alive)
  sealing := sealing_sends through short sends booked.settled booked.sealing
  opening := by
    rw [sends_dead sends]
    intro alive
    exact opening_sends through sends (booked.opening alive)
  archive := archive_sends through booked.archive

theorem booked_goes (goes : Goes env point world next after) (booked : Booked side point world) :
    Booked side next after where
  owes := owes_goes goes booked.owes
  holds := by
    refine holds_goes goes ?_ booked.holds
    rintro kex resume packet rfl
    exact booked.settled.known.1
  settled := settled_goes goes booked.settled
  progress alive := progress_goes goes booked.settled alive (booked.progress (goes_alive goes))
  sealing := sealing_goes goes booked.sealing
  opening alive := opening_goes goes booked.settled alive (booked.opening (goes_alive goes))
  archive := archive_goes goes booked.settled (booked.progress (goes_alive goes)) booked.archive

theorem booked_fails (reason : Error) (able : point.mayFail = true) (booked : Booked side point world) :
    Booked side (.waiting (.failed reason)) world where
  owes := by
    obtain ⟨lost, balance, _⟩ := booked.owes
    refine ⟨point.owed.filter isApp ++ lost, ?_, .inl rfl⟩
    rw [balance]
    simp [Point.owed, Phase.resume, Resume.owed]
  holds := by
    obtain ⟨⟨lost, balance, _⟩, _⟩ := booked.holds
    refine ⟨⟨point.inHand.filter isApp ++ lost, ?_, .inl rfl⟩, by rintro ⟨⟩⟩
    rw [balance]
    simp [Point.inHand]
  settled := settled_fails reason booked.settled
  progress := by rintro ⟨⟩
  sealing := sealing_fails reason able booked.sealing
  opening := by rintro ⟨⟩
  archive := booked.archive

/-- The books stay in order along the moves of an endpoint whose writes go
through. -/
theorem booked_moves (short : ∀ message, (env.signer message).length < 2 ^ 16)
    (faultless : ∀ count, env.fault count = none) (moves : Moves env (point, world) (next, after))
    (booked : Booked side point world) : Booked side next after := by
  cases moves with
  | sent sends whole => exact booked_sends id short sends booked
  | cut sends fault => cases (faultless _).symm.trans fault
  | went goes => exact booked_goes goes booked
  | drew random => exact ⟨booked.owes, booked.holds, booked.settled, booked.progress, booked.sealing,
      booked.opening, booked.archive⟩
  | failed _ reason able => exact booked_fails reason able booked

/-- What an endpoint's surroundings do right: the peer runs this code, and the
application submits what may be sent. -/
structure Proper (side : Side) (endpoint : Endpoint prim) (input : Input) : Prop where
  greeting : ∀ text rest, readLine [] endpoint.input = .line text rest →
    (∃ lines total, endpoint.phase = .idents lines total) → text = ident
  proposal : ∀ payload size rest, endpoint.phase.awaitsPacket = true →
    readPacket prim endpoint.t.rx endpoint.t.rxSeq endpoint.input = .packet payload size rest →
    Proposal side.other payload
  sendable : ∀ payload, input = .call (.send payload) → Sendable payload
  closing : ∀ reason description, input = .disconnect reason description →
    Sendable (disconnectPacket reason description)

/-- A step begins with the same books where it had stopped. -/
theorem Booked.goOn (booked : Booked side point world) (owed : next.owed = point.owed)
    (inHand : next.inHand = point.inHand) (dead : next.dead = point.dead)
    (stage : next.stage side = point.stage side) (unsealed : next.unsealed = point.unsealed)
    (born : next.unborn = false) (drained : next.drained = false)
    (settled : Settled side next world.t) : Booked side next world where
  owes := by
    unfold Owes
    rw [owed, dead]
    exact booked.owes
  holds := by
    unfold Holds
    rw [inHand, dead]
    exact ⟨booked.holds.1, fun looks => absurd (drained.symm.trans looks) Bool.false_ne_true⟩
  settled := settled
  progress := by
    unfold Progress
    rw [dead, stage]
    exact booked.progress
  sealing := by
    obtain ⟨keyed, current, switched, framed, proposals, _⟩ := booked.sealing
    rw [← unsealed] at switched
    exact ⟨keyed, current, switched, framed, proposals,
      fun unborn => absurd (born.symm.trans unborn) Bool.false_ne_true⟩
  opening := by
    unfold Opening
    rw [dead, inHand]
    exact booked.opening
  archive := booked.archive

theorem awaits_alive (awaits : phase.awaitsPacket = true) :
    (Point.waiting phase).dead = false ∧ (Point.waiting phase).acquainted = true := by
  cases phase with
  | created | idents | failed => cases awaits
  | _ => exact ⟨rfl, rfl⟩

theorem settled_opened (awaits : phase.awaitsPacket = true)
    (proposal : Proposal side.other payload) (settled : Settled side (.waiting phase) world.t) :
    Settled side (.taken phase payload) (world.t.counting size) where
  role := settled.role
  algos := settled.algos
  blob := settled.blob
  cert := settled.cert
  peer _ := by
    obtain ⟨alive, acquainted⟩ := awaits_alive awaits
    exact .inr ((settled.peer acquainted).resolve_left (by rw [alive]; exact Bool.false_ne_true))
  known := ⟨settled.known, proposal⟩
  sendable := settled.sendable

/-- A packet is opened under the current key, which advances; its effect on the
key comes when it is dealt with. -/
theorem opening_opened (opening : Opening (.waiting phase) world.t (ledger world.trace)) :
    Opening (.taken phase payload) (world.t.counting size) ((ledger world.trace).add (.opened payload)) := by
  obtain ⟨current, earlier, all, switches⟩ := opening
  rw [← all.trans (append_nil _)] at switches
  refine ⟨?_, (ledger world.trace).opened, rfl, switches⟩
  simp only [Ledger.add, keyAfter] at current ⊢
  rw [track_exhausted (by rw [length_map, switches]), ← current]
  rfl

/-- A packet is opened and taken in hand. -/
theorem booked_opened (awaits : phase.awaitsPacket = true)
    (proposal : Proposal side.other payload) (booked : Booked side (.waiting phase) world) :
    Booked side (.taken phase payload) ((world.changed (Fields.counting size)).noted (.opened payload)) := by
  obtain ⟨alive, _⟩ := awaits_alive awaits
  obtain ⟨owes, ⟨⟨lost, balance, fate⟩, drained⟩, settled, progress, sealing, opening, archive⟩ := booked
  rw [alive] at fate
  have none : lost = [] := fate.resolve_left Bool.false_ne_true
  constructor
  all_goals simp only [World.noted, World.changed, ledger_snoc]
  · obtain ⟨lost, balance, fate⟩ := owes
    rw [alive] at fate
    exact ⟨lost, balance, fate⟩
  · refine ⟨⟨[], ?_, .inr rfl⟩, ?_⟩
    · simp only [Ledger.add, filter_append, balance, none, Point.inHand, filter_nil, append_nil]
      rfl
    · cases phase with
      | receiving | polling => exact drained
      | _ => exact fun looks => absurd looks Bool.false_ne_true
  · exact settled_opened awaits proposal settled
  · intro _
    obtain ⟨finished, sent, got, exchanges, sentAll, gotAll, sizes⟩ := progress alive
    refine ⟨finished, sent, got, exchanges, sentAll, ?_, sizes⟩
    simp only [Ledger.add, filter_append, gotAll, Point.stage, append_assoc]
  · obtain ⟨keyed, current, switched, framed, proposals, fresh⟩ := sealing
    exact ⟨keyed, current, switched, framed, proposals, by rintro ⟨⟩⟩
  · intro _
    exact opening_opened (opening alive)
  · exact archive.grow rfl rfl rfl (prefix_refl _) (prefix_append _ _)

theorem booked_enters {endpoint : Endpoint prim} {input rest}
    (faultless : ∀ count, env.fault count = none) (proper : Proper side endpoint input)
    (booked : ∀ random, Booked side (.waiting endpoint.phase) (endpoint.world random))
    (enters : Enters env endpoint input rest point world) : Booked side point world := by
  have before := booked env.random
  obtain ⟨role, algos, blob, cert, peer, known, sendable⟩ := before.settled
  have nothing : ∀ payload ∈ ([] : List Bytes), Sendable payload := fun _ member => absurd member not_mem_nil
  cases enters with
  | greeted created whole =>
    rw [created] at before
    have going : Booked side (.waiting (.idents 0 0)) (endpoint.world env.random) :=
      before.goOn rfl rfl rfl rfl rfl rfl rfl ⟨role, algos, blob, cert, by rintro ⟨⟩, trivial, nothing⟩
    exact ⟨going.owes, going.holds, going.settled, going.progress, going.sealing, going.opening, going.archive⟩
  | greetingCut created fault => cases (faultless _).symm.trans fault
  | arrived bytes => exact before
  | lineRead waiting read =>
    have spoken := proper.greeting _ _ read ⟨_, _, waiting⟩
    rw [waiting] at before
    exact before.goOn rfl rfl rfl rfl rfl rfl rfl ⟨role, algos, blob, cert, by rintro ⟨⟩, spoken, nothing⟩
  | packetRead waiting read => exact booked_opened waiting (proper.proposal _ _ _ waiting read) before
  | cancelled waiting =>
    rw [waiting] at before
    have named := before.settled.peer rfl
    exact before.goOn rfl rfl rfl rfl rfl rfl rfl ⟨role, algos, blob, cert, fun _ => named, trivial, nothing⟩
  | @called call idle =>
    rw [idle] at before
    have named := before.settled.peer rfl
    have offered : ∀ payload ∈ (Point.called call : Point prim).offered, Sendable payload := by
      intro payload member
      cases call with
      | send submitted =>
        rw [mem_singleton.mp member]
        exact proper.sendable submitted rfl
      | _ => exact absurd member not_mem_nil
    refine before.goOn rfl rfl rfl rfl rfl rfl rfl ⟨role, algos, blob, cert, fun _ => named, trivial, ?_⟩
    simpa [Point.owed, Point.farewell] using offered
  | @closing reason description able =>
    have last : Sendable (disconnectPacket reason description) := proper.closing _ _ rfl
    rcases able with idle | ⟨error, failed⟩
    · rw [idle] at before ⊢
      have named := before.settled.peer rfl
      refine before.goOn rfl rfl rfl rfl rfl rfl rfl ⟨role, algos, blob, cert, fun _ => named, trivial, ?_⟩
      simpa [Point.owed, Point.offered, Point.farewell] using last
    · rw [failed] at before ⊢
      refine before.goOn rfl rfl rfl rfl rfl rfl rfl ⟨role, algos, blob, cert, fun _ => .inl rfl, trivial, ?_⟩
      simpa [Point.owed, Point.offered, Point.farewell] using last
  | stays => exact before

/-- An endpoint with its books in order. -/
def Endpoint.Booked (side : Side) (endpoint : Endpoint prim) : Prop :=
  ∀ random, Transport.Booked side (.waiting endpoint.phase) (endpoint.world random)

end Books

end Shh.Transport
