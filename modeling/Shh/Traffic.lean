import Shh.Connections

/-!
# What the loop sends

Every packet the loop sends has one of three origins. A message of a channel comes out of
a turn on that channel, taken for a packet of the peer or for a command of its task. A
global request comes with an entry in the queue of those that await their replies. All
else answers the peer's opens and requests, opens a channel, or says goodbye.
-/

namespace Shh.Connections

open List Wire Channels Runs Computations Connection

variable {config : Config} {conn next : Connection} {world : World} {payload : Bytes} {event : Event}

variable {parked : Bool}

/-- The packet has the kind of a message for a channel. -/
def forChannel (packet : Bytes) : Bool :=
  Msg.channelWindowAdjust ≤ packet.headD 0 && packet.headD 0 ≤ Msg.channelFailure

/-- The packet is a global request. -/
def isGlobalRequest (packet : Bytes) : Bool := packet.headD 0 = Msg.globalRequest

/-- The turn on a channel that an event comes to, with the channel's identifier and record. -/
def Connection.turn (config : Config) (conn : Connection) : Event → Option (Nat × Entry × Turn)
  | .packet _ payload _ =>
    if forChannel payload then
      match channelMessage.parse payload with
      | .ok (id, message) =>
        match conn.channel id with
        | some (entry, line) =>
          match entry.chan.deliver config.platform line message with
          | .ok turn => some (id, entry, turn)
          | .error _ => none
        | none => none
      | .error _ => none
    else none
  | .order =>
    match conn.orders with
    | .channel id cmd :: _ => (conn.channel id).map fun (entry, line) => (id, entry, entry.chan.command line cmd)
    | _ => none
  | _ => none

/-- The global requests that an event has the loop send. -/
def Connection.asks (config : Config) (conn : Connection) : Event → List PendingGlobal
  | .order =>
    match conn.orders with
    | .remoteForward bind port targetHost targetPort :: _ => [.forward bind port (targetHost, targetPort)]
    | _ => []
  | .tick =>
    if conn.recvSinceTick = false ∧ conn.keepaliveOutstanding < config.keepaliveMaxMissed then [.keepalive] else []
  | _ => []

/-- A global request on the wire. Both kinds want a reply. -/
def PendingGlobal.packet : PendingGlobal → Bytes
  | .forward bind port _ =>
    Writer.byte Msg.globalRequest ++ Writer.utf8 "tcpip-forward" ++ Writer.boolean true ++ Writer.utf8 bind ++
      Writer.u32 port
  | .keepalive => Writer.byte Msg.globalRequest ++ Writer.utf8 "keepalive@openssh.com" ++ Writer.boolean true

/-- What is sent for an event. -/
inductive Traffic (config : Config) (conn : Connection) (event : Event) : List Bytes → Prop where
  | turns {id : Nat} {entry : Entry} {turn : Turn} (turned : conn.turn config event = some (id, entry, turn))
      (quiet : conn.asks config event = []) :
      Traffic config conn event (turn.sent.map (encode entry.chan.peerId) ++ if turn.done then [goodbye] else [])
  | asks {request : PendingGlobal} (idle : conn.turn config event = none) (asked : conn.asks config event = [request]) :
      Traffic config conn event [request.packet]
  | other {more : List Bytes} (idle : conn.turn config event = none) (quiet : conn.asks config event = [])
      (kinds : ∀ packet ∈ more, forChannel packet = false ∧ isGlobalRequest packet = false) :
      Traffic config conn event more

theorem Traffic.nothing (idle : conn.turn config event = none) (quiet : conn.asks config event = []) :
    Traffic config conn event [] :=
  .other idle quiet fun _ member => absurd member not_mem_nil

theorem Traffic.single {packet} (idle : conn.turn config event = none) (quiet : conn.asks config event = [])
    (kind : forChannel packet = false ∧ isGlobalRequest packet = false) : Traffic config conn event [packet] :=
  .other idle quiet fun _ member => mem_singleton.mp member ▸ kind

theorem Traffic.unmarked {before : Connection} {more} (traffic : Traffic config before event more)
    (turns : before.turn config event = conn.turn config event)
    (asks : before.asks config event = conn.asks config event) :
    Traffic config conn event more := by
  cases traffic with
  | turns turned quiet => exact .turns (turns.symm.trans turned) (asks.symm.trans quiet)
  | asks idle asked => exact .asks (turns.symm.trans idle) (asks.symm.trans asked)
  | other idle quiet kinds => exact .other (turns.symm.trans idle) (asks.symm.trans quiet) kinds

/-- A packet of another kind turns no channel. -/
theorem turn_of_kind (other : forChannel payload = false) :
    conn.turn config (.packet parked payload world) = none := by
  simp only [Connection.turn, other, Bool.false_eq_true, if_false]

/-- The turn of a packet. -/
theorem packet_turn {result}
    (turned : conn.turn config (.packet parked payload world) = some result) :
    forChannel payload = true ∧ ∃ id message entry line turn, channelMessage.parse payload = .ok (id, message) ∧
      conn.channel id = some (entry, line) ∧ entry.chan.deliver config.platform line message = .ok turn ∧
      result = (id, entry, turn) := by
  simp only [Connection.turn] at turned
  split at turned
  · rename_i kind
    split at turned
    · rename_i id message read
      split at turned
      · rename_i entry line there
        split at turned
        · rename_i turn ok
          exact ⟨kind, id, message, entry, line, turn, read, there, ok, (Option.some.inj turned).symm⟩
        · cases turned
      · cases turned
    · cases turned
  · cases turned

theorem packet_for_channel {id message} (kind : forChannel payload = true)
    (read : channelMessage.parse payload = .ok (id, message)) :
    conn.onPacket config world payload = conn.onChannelMessage config id message := by
  obtain ⟨least, most⟩ := (Bool.and_eq_true _ _).mp kind
  have least := UInt8.le_iff_toNat_le.mp (of_decide_eq_true least)
  have most := UInt8.le_iff_toNat_le.mp (of_decide_eq_true most)
  have apart (other : UInt8) (outside : other.toNat < 93 ∨ 100 < other.toNat) : payload.headD 0 ≠ other := by
    rintro rfl
    have low : (93 : Nat) ≤ (payload.headD 0).toNat := least
    have high : (payload.headD 0).toNat ≤ 100 := most
    omega
  unfold onPacket
  dsimp only
  rw [if_neg (by rintro (same | same | same) <;> exact apart _ (by decide) same),
    if_neg (by rintro (same | same) <;> exact apart _ (by decide) same), if_neg (apart _ (by decide)),
    if_neg (apart _ (by decide)), if_neg (apart _ (by decide)), if_neg (apart _ (by decide)), if_neg
      (apart _ (by decide)),
    if_neg (apart _ (by decide)), if_neg (apart _ (by decide)), read]
  by_cases plain : Msg.channelWindowAdjust ≤ payload.headD 0 ∧ payload.headD 0 ≤ Msg.channelRequest
  · rw [if_pos plain]
    rfl
  · -- What is left are the two kinds of reply.
    have beyond : 98 < (payload.headD 0).toNat := by
      refine Nat.lt_of_not_le fun within => plain ⟨UInt8.le_iff_toNat_le.mpr least, UInt8.le_iff_toNat_le.mpr within⟩
    have reply : payload.headD 0 = Msg.channelSuccess ∨ payload.headD 0 = Msg.channelFailure := by
      have high : (payload.headD 0).toNat ≤ 100 := most
      simp only [← UInt8.toNat_inj]
      show (payload.headD 0).toNat = 99 ∨ (payload.headD 0).toNat = 100
      omega
    rw [if_neg plain, if_pos reply]

section Packets

/-- Not a message of a channel and not a global request. -/
def Aloof (packet : Bytes) : Prop := forChannel packet = false ∧ isGlobalRequest packet = false

/-- At most one packet is sent, and it is neither for a channel nor a global request. What
we have asked for and were granted stays. -/
structure Answers (conn next : Connection) : Prop where
  sent : next.sent = conn.sent ∨ ∃ packet, next.sent = conn.sent ++ [packet] ∧ Aloof packet
  pendingGlobal : next.pendingGlobal = conn.pendingGlobal
  remoteForwards : next.remoteForwards = conn.remoteForwards

theorem Answers.send {packet} (aloof : Aloof packet) : Answers conn (conn.send packet) :=
  ⟨.inr ⟨packet, rfl, aloof⟩, rfl, rfl⟩

theorem Answers.maybe {packet : Bytes} {wantReply : Bool} (aloof : Aloof packet) :
    Answers conn (if wantReply then conn.send packet else conn) := by
  split
  · exact .send aloof
  · exact ⟨.inl rfl, rfl, rfl⟩

theorem replied_aloof {kind rest} (either : kind = Msg.requestSuccess ∨ kind = Msg.requestFailure) :
    Aloof (Writer.byte kind ++ rest) := by
  rcases either with rfl | rfl <;> exact ⟨rfl, rfl⟩

theorem rejected_aloof (peer reason : Nat) (description : String) : Aloof (openFailurePacket peer reason description) :=
  ⟨rfl, rfl⟩

theorem open_answers (ok : conn.onChannelOpen config payload = .ok next) : Answers conn next := by
  obtain ⟨⟨⟨name, sender, window, max⟩, rest⟩, header, ok⟩ := except_bind_ok.mp ok
  have rejects (reason : Nat) (description : String) : Answers conn (conn.rejectOpen sender reason description) :=
    .send (rejected_aloof _ _ _)
  dsimp only at ok
  split at ok
  · exact Except.ok.inj ok ▸ rejects _ _
  split at ok
  · split at ok
    · cases ok
      exact ⟨.inr ⟨_, rfl, rfl, rfl⟩, rfl, rfl⟩
    · exact Except.ok.inj ok ▸ rejects _ _
  split at ok
  · obtain ⟨⟨host, port⟩, _, ok⟩ := except_bind_ok.mp ok
    dsimp only at ok
    split at ok
    · cases ok
      exact ⟨.inl rfl, rfl, rfl⟩
    · exact Except.ok.inj ok ▸ rejects _ _
  split at ok
  · obtain ⟨⟨addr, port⟩, _, ok⟩ := except_bind_ok.mp ok
    dsimp only at ok
    split at ok
    · cases ok
      exact ⟨.inl rfl, rfl, rfl⟩
    · exact Except.ok.inj ok ▸ rejects _ _
  split at ok
  · obtain ⟨_, _, ok⟩ := except_bind_ok.mp ok
    split at ok
    · cases ok
      exact ⟨.inl rfl, rfl, rfl⟩
    · exact Except.ok.inj ok ▸ rejects _ _
  · exact Except.ok.inj ok ▸ rejects _ _

theorem confirm_answers (ok : conn.onOpenConfirm config payload = .ok next) : Answers conn next := by
  obtain ⟨⟨ours, peer, window, max⟩, _, ok⟩ := except_bind_ok.mp ok
  dsimp only at ok
  split at ok
  · cases ok
  all_goals
    cases ok
    exact ⟨.inl rfl, rfl, rfl⟩

theorem failure_answers (ok : conn.onOpenFailure payload = .ok next) : Answers conn next := by
  obtain ⟨ours, _, ok⟩ := except_bind_ok.mp ok
  dsimp only at ok
  split at ok
  all_goals
    cases ok
    exact ⟨.inl rfl, rfl, rfl⟩

theorem forward_answers {bind port wantReply} :
    Answers conn (conn.handleTcpipForward config world bind port wantReply) := by
  have refused : Answers conn (if wantReply then conn.send (Writer.byte Msg.requestFailure) else conn) :=
    .maybe ⟨rfl, rfl⟩
  unfold handleTcpipForward
  dsimp only
  split
  · split
    · exact refused
    · have answered {rest} :
          Answers conn (if wantReply then conn.send (Writer.byte Msg.requestSuccess ++ rest) else conn) :=
        .maybe (replied_aloof (.inl rfl))
      exact ⟨answered.sent, answered.pendingGlobal, answered.remoteForwards⟩
  · exact refused

theorem global_answers (ok : conn.onGlobalRequest config world payload = .ok next) : Answers conn next := by
  obtain ⟨⟨⟨name, wantReply⟩, rest⟩, _, ok⟩ := except_bind_ok.mp ok
  dsimp only at ok
  split at ok
  · obtain ⟨⟨bind, port⟩, _, ok⟩ := except_bind_ok.mp ok
    cases ok
    exact forward_answers
  split at ok
  · obtain ⟨⟨bind, port⟩, _, ok⟩ := except_bind_ok.mp ok
    cases ok
    dsimp only
    cases conn.listeners.lookup (normalizeBind bind, fitPort port) with
    | none => exact .maybe ⟨rfl, rfl⟩
    | some handle =>
      have answered : Answers { conn with
          listeners := conn.listeners.erase (normalizeBind bind, fitPort port), effects := conn.effects ++ [.closed handle] } _ :=
        @Answers.maybe _ (Writer.byte Msg.requestSuccess) wantReply ⟨rfl, rfl⟩
      exact ⟨answered.sent, answered.pendingGlobal, answered.remoteForwards⟩
  · cases ok
    exact .maybe ⟨rfl, rfl⟩

theorem reply_sent {success} : (conn.onGlobalReply payload success).sent = conn.sent := by
  unfold onGlobalReply
  split
  · rfl
  · rfl
  · dsimp only
    split
    · rfl
    · rfl

theorem Answers.traffic (answers : Answers conn next) (idle : conn.turn config event = none)
    (quiet : conn.asks config event = []) : ∃ more, next.sent = conn.sent ++ more ∧ Traffic config conn event more := by
  rcases answers.sent with same | ⟨packet, same, aloof⟩
  · exact ⟨[], by rw [same, append_nil], .nothing idle quiet⟩
  · exact ⟨[packet], same, .single idle quiet aloof⟩

theorem message_traffic {parked id message} (kind : forChannel payload = true)
    (read : channelMessage.parse payload = .ok (id, message))
    (ok : conn.onChannelMessage config id message = .ok next) :
    ∃ more, next.sent = conn.sent ++ more ∧ Traffic config conn (.packet parked payload world) more := by
  rcases channel_message_ok ok with ⟨absent, rfl⟩ | ⟨entry, line, turn, there, delivered, rfl⟩
  · refine ⟨[], (append_nil _).symm, .nothing ?_ rfl⟩
    simp only [Connection.turn, kind, if_true, read, absent]
  · have turned : conn.turn config (.packet parked payload world) = some (id, entry, turn) := by
      simp only [Connection.turn, kind, if_true, read, there, delivered]
    exact ⟨_, append_assoc _ _ _, .turns turned rfl⟩

theorem packet_traffic {parked} (ok : conn.onPacket config world payload = .ok next) :
    ∃ more, next.sent = conn.sent ++ more ∧ Traffic config conn (.packet parked payload world) more := by
  have other {kind} (named : payload.headD 0 = kind)
      (apart : (Msg.channelWindowAdjust ≤ kind && kind ≤ Msg.channelFailure) = false) :
      conn.turn config (.packet parked payload world) = none := by
    refine turn_of_kind ?_
    rw [forChannel, named]
    exact apart
  cases packet_dispatched ok with
  | ignored _ unread =>
    refine ⟨[], (append_nil _).symm, .nothing ?_ rfl⟩
    cases kind : forChannel payload with
    | false => exact turn_of_kind kind
    | true =>
      have within := (Bool.and_eq_true _ _).mp kind
      obtain ⟨reason, failed⟩ := unread (of_decide_eq_true within.1) (of_decide_eq_true within.2)
      simp only [Connection.turn, kind, if_true, failed]
  | stopped kind => exact ⟨[], (append_nil _).symm, .nothing (other kind rfl) rfl⟩
  | requests kind ok => exact (global_answers ok).traffic (other kind rfl) rfl
  | @replies success kind =>
    refine ⟨[], by rw [reply_sent, append_nil], .nothing (other kind ?_) rfl⟩
    cases success <;> rfl
  | opens kind ok => exact (open_answers ok).traffic (other kind rfl) rfl
  | confirms kind ok => exact (confirm_answers ok).traffic (other kind rfl) rfl
  | declines kind ok => exact (failure_answers ok).traffic (other kind rfl) rfl
  | message kind read ok =>
    exact message_traffic ((Bool.and_eq_true _ _).mpr ⟨decide_eq_true kind.1, decide_eq_true kind.2⟩) read ok

end Packets

theorem order_traffic {order rest} (queued : conn.orders = order :: rest) :
    ∃ more, ({ conn with orders := rest }.onOrder config order).sent = conn.sent ++ more ∧
      Traffic config conn .order more := by
  -- An order that is not for a channel turns none.
  have idle (other : ∀ id cmd, order ≠ .channel id cmd) : conn.turn config .order = none := by
    simp only [Connection.turn, queued]
    split
    · rename_i id cmd _ same
      exact absurd (List.cons.inj same).1 (other id cmd)
    · rfl
  cases order with
  | openTunnel | openSession =>
    have quiet : conn.asks config .order = [] := by simp only [Connection.asks, queued]
    have none_ := idle nofun
    simp only [onOrder]
    split
    · exact ⟨[], (append_nil _).symm, .nothing none_ quiet⟩
    · exact ⟨_, rfl, .single none_ quiet ⟨rfl, rfl⟩⟩
  | remoteForward bind port targetHost targetPort =>
    have asked : conn.asks config .order = [.forward bind port (targetHost, targetPort)] := by
      simp only [Connection.asks, queued]
    exact ⟨_, rfl, .asks (idle nofun) asked⟩
  | connected peerId peerWindow peerMax result =>
    have quiet : conn.asks config .order = [] := by simp only [Connection.asks, queued]
    have none_ := idle nofun
    cases result with
    | ok => exact ⟨_, rfl, .single none_ quiet ⟨rfl, rfl⟩⟩
    | error reason => exact ⟨_, rfl, .single none_ quiet (rejected_aloof _ _ _)⟩
  | channel id cmd =>
    have quiet : conn.asks config .order = [] := by simp only [Connection.asks, queued]
    have turned : conn.turn config .order =
        (conn.channel id).map fun (entry, line) => (id, entry, entry.chan.command line cmd) := by
      simp only [Connection.turn, queued]
    have same : channel { conn with orders := rest } id = conn.channel id := rfl
    simp only [onOrder, same]
    cases there : conn.channel id with
    | none =>
      rw [there] at turned
      exact ⟨[], (append_nil _).symm, .nothing turned quiet⟩
    | some pair =>
      rw [there] at turned
      exact ⟨_, append_assoc _ _ _, .turns turned quiet⟩

theorem tick_traffic (ok : conn.onKeepaliveTick config = .ok next) :
    ∃ more, next.sent = conn.sent ++ more ∧ Traffic config conn .tick more := by
  unfold onKeepaliveTick at ok
  split at ok
  · rename_i heard
    cases ok
    refine ⟨[], (append_nil _).symm, .nothing rfl ?_⟩
    simp only [Connection.asks, heard, Bool.true_eq_false, false_and, if_false]
  · rename_i silent
    split at ok
    · cases ok
    · rename_i patient
      cases ok
      refine ⟨[PendingGlobal.keepalive.packet], rfl, .asks rfl ?_⟩
      exact if_pos ⟨(Bool.not_eq_true _).mp silent, Nat.lt_of_not_le patient⟩

/-- A packet that is refused turns no channel. -/
theorem broken_idle {reason}
    (failed : onPacket config (conn.marked parked) world payload = .error reason) :
    conn.turn config (.packet parked payload world) = none := by
  cases turned : conn.turn config (.packet parked payload world) with
  | none => rfl
  | some result =>
    obtain ⟨kind, id, message, entry, line, turn, read, there, ok, -⟩ := packet_turn turned
    rw [packet_for_channel kind read, onChannelMessage] at failed
    have same : channel (conn.marked parked) id = some (entry, line) := there
    rw [same] at failed
    dsimp only at failed
    rw [ok] at failed
    cases failed

/-- What each step sends. -/
theorem step_traffic (ran : conn.step config event = some next) :
    ∃ more, next.sent = conn.sent ++ more ∧ Traffic config conn event more := by
  obtain ⟨after, moves, same⟩ := step_moves ran
  have kept : next.sent = after.sent := by
    rcases same with rfl | rfl <;> rfl
  rw [kept]
  cases moves with
  | @packet parked _ _ _ running ok =>
    obtain ⟨more, sent, traffic⟩ := @packet_traffic _ _ _ _ _ parked ok
    exact ⟨more, sent, traffic.unmarked rfl rfl⟩
  | broken running failed => exact ⟨[], (append_nil _).symm, .nothing (broken_idle failed) rfl⟩
  | order queued => exact order_traffic queued
  | tick running ok => exact tick_traffic ok
  | @silent reason running failed =>
    refine ⟨[], (append_nil _).symm, .nothing rfl ?_⟩
    unfold onKeepaliveTick at failed
    split at failed
    · cases failed
    · split at failed
      · rename_i missed
        exact if_neg fun both => absurd missed (Nat.not_le.mpr both.2)
      · cases failed
  | fall | submit => exact ⟨[], (append_nil _).symm, .nothing rfl rfl⟩
  | act ran =>
    obtain ⟨_, _, _, _, _, rfl⟩ := act_some ran
    exact ⟨[], (append_nil _).symm, .nothing rfl rfl⟩
  | dialEnds => exact ⟨[], (append_nil _).symm, .nothing rfl rfl⟩

end Shh.Connections
