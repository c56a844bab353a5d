import Shh.Traffic
import Shh.Unasked

/-!
# Global requests and their replies

A client sends two kinds of global request, for a remote forward and to see whether its
server is alive. Replies carry no name: the first one is for the oldest request that has
none yet. The loop keeps a queue of those, and what a reply means depends on what is at
its front.

Here the requests that were sent and the replies that came are written down in order,
next to the loop. With a peer that answers each request once and in order, the queue is
always the rest of the requests after those that were answered, whatever else happens in
between, and so every remote forward in the table comes from a request for it and from
the reply to that very request.
-/

namespace Shh.Connections

open List Wire Channels Runs Computations Connection

variable {config : Config} {conn next : Connection} {world : World} {payload : Bytes} {event : Event}

/-- The reply that an event brings. -/
def Connection.Event.reply : Event → Option (Bool × Bytes)
  | .packet _ payload _ =>
    if payload.headD 0 = Msg.requestSuccess then some (true, payload)
    else if payload.headD 0 = Msg.requestFailure then some (false, payload)
    else none
  | _ => none

/-- A connection, with the global requests it has sent and the replies it was sent. -/
structure Exchange where
  conn : Connection
  asked : List PendingGlobal
  answers : List (Bool × Bytes)

namespace Exchange

def start : Exchange := ⟨.start, [], []⟩

def step (config : Config) (exchange : Exchange) (event : Event) : Option Exchange :=
  (exchange.conn.step config event).map fun next =>
    ⟨next, exchange.asked ++ exchange.conn.asks config event, exchange.answers ++ event.reply.toList⟩

/-- The peer answers what was asked, and nothing else: a reply comes only while a request
is without one. -/
def orderly (exchange : Exchange) (event : Event) : Bool :=
  event.reply.isNone || exchange.answers.length < exchange.asked.length

end Exchange

/-- What a reply registers under which address: with a port of our choice that one, with
port `0` the one in the reply. -/
def boundPort (port : Nat) (payload : Bytes) : Nat := if port = 0 then allocatedPort payload else port

section Steps

variable {parked : Bool}

/-- What a step does to the queue of requests and to the table of remote forwards. -/
inductive Globally (config : Config) (conn : Connection) (event : Event) (next : Connection) : Prop where
  | asks (unanswered : event.reply = none) (pending : next.pendingGlobal = conn.pendingGlobal ++ conn.asks config event)
      (forwards : next.remoteForwards = conn.remoteForwards)
  | uncalled {answer} (answered : event.reply = some answer) (empty : conn.pendingGlobal = [])
  | settles {answer first} (answered : event.reply = some answer)
      (quiet : conn.asks config event = []) (queued : conn.pendingGlobal = first :: next.pendingGlobal)
      (forwards : next.remoteForwards = conn.remoteForwards)
  | registers {payload bind port target}
      (answered : event.reply = some (true, payload)) (quiet : conn.asks config event = [])
      (queued : conn.pendingGlobal = .forward bind port target :: next.pendingGlobal)
      (forwards : next.remoteForwards = conn.remoteForwards.insert (bind, boundPort port payload) target)

theorem Globally.falls (globally : Globally config conn event next) : Globally config conn event next.fallen := by
  cases globally with
  | asks unanswered pending forwards => exact .asks unanswered pending forwards
  | uncalled answered empty => exact .uncalled answered empty
  | settles answered quiet queued forwards => exact .settles answered quiet queued forwards
  | registers answered quiet queued forwards => exact .registers answered quiet queued forwards

/-- A step that neither asks nor is answered. -/
theorem Globally.keeps (unanswered : event.reply = none) (quiet : conn.asks config event = [])
    (pending : next.pendingGlobal = conn.pendingGlobal) (forwards : next.remoteForwards = conn.remoteForwards) :
    Globally config conn event next :=
  .asks unanswered (by rw [quiet, pending, append_nil]) forwards

theorem Globally.answers (unanswered : Event.reply (.packet parked payload world) = none)
    (answers : Answers conn next) : Globally config conn (.packet parked payload world) next :=
  .keeps unanswered rfl answers.pendingGlobal answers.remoteForwards

/-- A packet whose kind is not that of a reply brings none. -/
theorem unanswered_of_kind (other : payload.headD 0 ≠ Msg.requestSuccess ∧ payload.headD 0 ≠ Msg.requestFailure) :
    Event.reply (.packet parked payload world) = none := by
  simp only [Event.reply, if_neg other.1, if_neg other.2]

theorem reply_globally {success : Bool}
    (kind : payload.headD 0 = if success then Msg.requestSuccess else Msg.requestFailure) :
    Globally config conn (.packet parked payload world) (conn.onGlobalReply payload success) := by
  have answered : Event.reply (.packet parked payload world) = some (success, payload) := by
    simp only [Event.reply, kind]
    cases success <;> rfl
  cases queued : conn.pendingGlobal with
  | nil => exact .uncalled answered queued
  | cons first rest =>
    cases first with
    | keepalive =>
      have result : conn.onGlobalReply payload success = { conn with pendingGlobal := rest, keepaliveOutstanding := 0 } := by
        simp only [onGlobalReply, queued]
      rw [result]
      exact .settles answered rfl queued rfl
    | forward bind port target =>
      cases success with
      | false =>
        have result : conn.onGlobalReply payload false = { conn with pendingGlobal := rest } := by
          simp only [onGlobalReply, queued, Bool.false_eq_true, if_false]
        rw [result]
        exact .settles answered rfl queued rfl
      | true =>
        have result : conn.onGlobalReply payload true = { conn with
            pendingGlobal := rest
            remoteForwards := conn.remoteForwards.insert (bind, boundPort port payload) target
            granted := conn.granted ++ [(bind, port, target)] } := by
          simp only [onGlobalReply, queued, if_true, boundPort]
        rw [result]
        exact .registers answered rfl queued rfl

theorem packet_globally (ok : conn.onPacket config world payload = .ok next) :
    Globally config conn (.packet parked payload world) next := by
  have unanswered {kind} (named : payload.headD 0 = kind)
      (other : kind ≠ Msg.requestSuccess ∧ kind ≠ Msg.requestFailure) :
      Event.reply (.packet parked payload world) = none :=
    unanswered_of_kind (named ▸ other)
  cases packet_dispatched ok with
  | ignored other => exact .keeps (unanswered_of_kind other) rfl rfl rfl
  | stopped kind => exact .keeps (unanswered kind (by decide)) rfl rfl rfl
  | requests kind ok => exact .answers (unanswered kind (by decide)) (global_answers ok)
  | replies kind => exact reply_globally kind
  | opens kind ok => exact .answers (unanswered kind (by decide)) (open_answers ok)
  | confirms kind ok => exact .answers (unanswered kind (by decide)) (confirm_answers ok)
  | declines kind ok => exact .answers (unanswered kind (by decide)) (failure_answers ok)
  | @message id message _ kind read ok =>
    have unheard : Event.reply (.packet parked payload world) = none := by
      refine unanswered_of_kind ⟨fun clash => ?_, fun clash => ?_⟩
      all_goals exact absurd (clash ▸ kind.1) (by decide)
    rcases channel_message_ok ok with ⟨_, rfl⟩ | ⟨_, _, _, _, _, rfl⟩ <;> exact .keeps unheard rfl rfl rfl

/-- A packet that is a reply is taken for one. -/
theorem reply_packet {answer : Bool × Bytes} (answered : Event.reply (.packet parked payload world) = some answer) :
    conn.onPacket config world payload = .ok (conn.onGlobalReply payload answer.1) := by
  simp only [Event.reply] at answered
  split at answered
  · rename_i kind
    cases answered
    rw [onPacket, kind]
    rfl
  · split at answered
    · rename_i kind
      cases answered
      rw [onPacket, kind]
      rfl
    · cases answered

theorem order_globally {order rest} (queued : conn.orders = order :: rest) :
    Globally config conn .order ({ conn with orders := rest }.onOrder config order) := by
  cases order with
  | openTunnel | openSession =>
    have quiet : conn.asks config .order = [] := by simp only [Connection.asks, queued]
    simp only [onOrder]
    split <;> exact .keeps rfl quiet rfl rfl
  | remoteForward bind port targetHost targetPort =>
    have asked : conn.asks config .order = [.forward bind port (targetHost, targetPort)] := by
      simp only [Connection.asks, queued]
    refine .asks rfl ?_ rfl
    rw [asked]
    rfl
  | connected peerId peerWindow peerMax result =>
    have quiet : conn.asks config .order = [] := by simp only [Connection.asks, queued]
    cases result <;> exact .keeps rfl quiet rfl rfl
  | channel id cmd =>
    have quiet : conn.asks config .order = [] := by simp only [Connection.asks, queued]
    simp only [onOrder]
    split <;> exact .keeps rfl quiet rfl rfl

theorem tick_globally (ok : conn.onKeepaliveTick config = .ok next) : Globally config conn .tick next := by
  unfold onKeepaliveTick at ok
  split at ok
  · rename_i heard
    cases ok
    exact .keeps rfl (if_neg fun both => absurd (heard.symm.trans both.1) (by decide)) rfl rfl
  · rename_i silent
    split at ok
    · cases ok
    · rename_i patient
      cases ok
      have asked : conn.asks config .tick = [.keepalive] :=
        if_pos ⟨(Bool.not_eq_true _).mp silent, Nat.lt_of_not_le patient⟩
      refine .asks rfl ?_ rfl
      rw [asked]
      rfl

/-- Only what the loop's queue and table depend on matters. -/
theorem Globally.since {before : Connection} (globally : Globally config before event next)
    (pending : before.pendingGlobal = conn.pendingGlobal) (forwards : before.remoteForwards = conn.remoteForwards)
    (asks : before.asks config event = conn.asks config event) : Globally config conn event next := by
  cases globally with
  | asks unanswered queue table => exact .asks unanswered (by rw [queue, pending, asks]) (table.trans forwards)
  | uncalled answered empty => exact .uncalled answered (pending.symm.trans empty)
  | settles answered quiet queued table =>
    exact .settles answered (asks.symm.trans quiet) (pending.symm.trans queued) (table.trans forwards)
  | registers answered quiet queued table =>
    exact .registers answered (asks.symm.trans quiet) (pending.symm.trans queued) (by rw [table, forwards])

theorem step_globally (ran : conn.step config event = some next) : Globally config conn event next := by
  have moved (after : Connection) (moves : Moves config conn event after) : Globally config conn event after := by
    cases moves with
    | packet _ ok => exact (packet_globally ok).since rfl rfl rfl
    | @broken parked payload world _ _ failed =>
      cases answered : Event.reply (.packet parked payload world) with
      | none => exact .keeps answered rfl rfl rfl
      | some answer => cases (reply_packet answered).symm.trans failed
    | order queued => exact order_globally queued
    | tick _ ok => exact tick_globally ok
    | silent _ failed =>
      refine .keeps rfl ?_ rfl rfl
      unfold onKeepaliveTick at failed
      split at failed
      · cases failed
      · split at failed
        · rename_i missed
          exact if_neg fun both => absurd missed (Nat.not_le.mpr both.2)
        · cases failed
    | fall | submit => exact .keeps rfl rfl rfl rfl
    | act ran =>
      obtain ⟨_, _, _, _, _, rfl⟩ := act_some ran
      exact .keeps rfl rfl rfl rfl
    | dialEnds => exact .keeps rfl rfl rfl rfl
  obtain ⟨after, moves, rfl | rfl⟩ := step_moves ran
  · exact moved _ moves
  · exact (moved _ moves).falls

end Steps

section Matching

/-- A remote forward comes from a request for it and the reply to that request. -/
def Registered (exchange : Exchange) (bind : String) (port : Nat) (target : String × Nat) : Prop :=
  ∃ (index wanted : Nat) (payload : Bytes), exchange.asked[index]? = some (.forward bind wanted target) ∧
    exchange.answers[index]? = some (true, payload) ∧ port = boundPort wanted payload

/-- What holds of a connection next to its record. -/
structure Matched (exchange : Exchange) : Prop where
  /-- The record of requests is what went over the wire. -/
  requests : exchange.conn.sent.filter isGlobalRequest = exchange.asked.map PendingGlobal.packet
  within : exchange.answers.length ≤ exchange.asked.length
  pending : exchange.conn.pendingGlobal = exchange.asked.drop exchange.answers.length
  forwards : ∀ bind port target, exchange.conn.remoteForwards.lookup (bind, port) = some target →
    Registered exchange bind port target

theorem matched_start : Matched .start where
  requests := rfl
  within := Nat.le_refl 0
  pending := rfl
  forwards := by
    intro bind port target found
    cases (AList.lookup_empty _).symm.trans found

variable {exchange later : Exchange}

/-- More requests and replies leave what was registered. -/
theorem Registered.extends {bind port target} (registered : Registered exchange bind port target)
    (asked : exchange.asked <+: later.asked) (answers : exchange.answers <+: later.answers) :
    Registered later bind port target := by
  obtain ⟨index, wanted, payload, request, answer, same⟩ := registered
  obtain ⟨_, asked⟩ := asked
  obtain ⟨_, answers⟩ := answers
  refine ⟨index, wanted, payload, ?_, ?_, same⟩
  · rw [← asked, List.getElem?_append_left (List.getElem?_eq_some_iff.mp request).1]
    exact request
  · rw [← answers, List.getElem?_append_left (List.getElem?_eq_some_iff.mp answer).1]
    exact answer

/-- A packet that was encoded as a message of a channel is no global request. -/
theorem encoded_plain (peer : Nat) (message : Message) : isGlobalRequest (encode peer message) = false := by
  cases message with
  | reply success => cases success <;> rfl
  | data | extData | adjust | eof | close | request => rfl

/-- The requests among what is sent in a step are those it asks. -/
theorem Traffic.requests {more : List Bytes} (traffic : Traffic config conn event more) :
    more.filter isGlobalRequest = (conn.asks config event).map PendingGlobal.packet := by
  cases traffic with
  | @turns id entry turn _ quiet =>
    rw [quiet, map_nil, filter_eq_nil_iff]
    intro packet member
    rcases mem_append.mp member with said | last
    · obtain ⟨message, _, rfl⟩ := mem_map.mp said
      rw [encoded_plain]
      decide
    · split at last
      · obtain rfl := mem_singleton.mp last
        decide
      · cases last
  | @asks request _ asked =>
    rw [asked]
    cases request <;> rfl
  | other _ quiet kinds =>
    rw [quiet, map_nil, filter_eq_nil_iff]
    intro packet member
    rw [(kinds packet member).2]
    decide

theorem matched_step (orderly : exchange.orderly event = true) (ran : exchange.step config event = some later)
    (matched : Matched exchange) : Matched later := by
  obtain ⟨next, moved, rfl⟩ := Option.map_eq_some_iff.mp ran
  obtain ⟨more, sent, traffic⟩ := step_traffic moved
  have requests : next.sent.filter isGlobalRequest =
      (exchange.asked ++ exchange.conn.asks config event).map PendingGlobal.packet := by
    rw [sent, filter_append, matched.requests, traffic.requests, map_append]
  have kept (bind : String) (port : Nat) (target : String × Nat) (registered : Registered exchange bind port target) :
      Registered ⟨next, exchange.asked ++ exchange.conn.asks config event,
      exchange.answers ++ event.reply.toList⟩ bind port
        target :=
    registered.extends (prefix_append _ _) (prefix_append _ _)
  -- The queue is never empty when a reply comes.
  have waiting {answer} (answered : event.reply = some answer) :
      exchange.answers.length < exchange.asked.length := by
    simpa only [Exchange.orderly, answered, Option.isNone_some, Bool.false_or, decide_eq_true_eq] using orderly
  cases step_globally moved with
  | asks unanswered pending forwards =>
    rw [unanswered, Option.toList_none, append_nil] at kept ⊢
    refine ⟨requests, ?_, ?_, ?_⟩
    · rw [length_append]
      exact Nat.le_trans matched.within (Nat.le_add_right _ _)
    · rw [pending, matched.pending, drop_append_of_le_length matched.within]
    · intro bind port target found
      exact kept bind port target (matched.forwards bind port target (forwards ▸ found))
  | uncalled answered empty =>
    rw [matched.pending, drop_eq_nil_iff] at empty
    exact absurd empty (Nat.not_le.mpr (waiting answered))
  | @settles answer first answered quiet queued forwards =>
    have before := waiting answered
    rw [answered, Option.toList_some, quiet, append_nil] at kept ⊢
    rw [quiet, append_nil] at requests
    refine ⟨requests, ?_, ?_, ?_⟩
    · rw [length_append, length_singleton]
      exact before
    · rw [matched.pending] at queued
      rw [length_append, length_singleton, ← drop_drop, queued]
      rfl
    · intro bind port target found
      exact kept bind port target (matched.forwards bind port target (forwards ▸ found))
  | @registers payload bind wanted target answered quiet queued forwards =>
    have before := waiting answered
    rw [answered, Option.toList_some, quiet, append_nil] at kept ⊢
    rw [quiet, append_nil] at requests
    rw [matched.pending] at queued
    refine ⟨requests, ?_, ?_, ?_⟩
    · rw [length_append, length_singleton]
      exact before
    · rw [length_append, length_singleton, ← drop_drop, queued]
      rfl
    · intro other port aim found
      rw [forwards] at found
      by_cases same : (other, port) = (bind, boundPort wanted payload)
      · rw [same, AList.lookup_insert] at found
        obtain rfl := Option.some.inj found
        obtain ⟨rfl, rfl⟩ := Prod.mk.inj same
        -- The request at the front is the one with the number of this reply.
        have request : exchange.asked[exchange.answers.length]? = some (.forward other wanted target) := by
          rw [← List.head?_drop, queued]
          rfl
        exact ⟨exchange.answers.length, wanted, payload, request, List.getElem?_concat_length, rfl⟩
      · rw [AList.lookup_insert_ne same] at found
        exact kept other port aim (matched.forwards other port aim found)

end Matching

section Dialing

/-- The packet opens a stream to an address that was forwarded. -/
def OpensForwarded (payload : Bytes) (addr : String) (port : Nat) : Prop :=
  payload.headD 0 = Msg.channelOpen ∧ ∃ sender window max rest,
    openHeader payload = .ok (("forwarded-tcpip", sender, window, max), rest) ∧
    tunnelAddress.parse rest = .ok (addr, port)

/-- The target of a remote forward: the one for that very address, and only when there is
none, that for any address on that port. -/
def ForwardsTo (conn : Connection) (addr : String) (port : Nat) (target : String × Nat) : Prop :=
  conn.remoteForwards.lookup (addr, port) = some target ∨
    conn.remoteForwards.lookup (addr, port) = none ∧
      ∃ wild ∈ ["", "0.0.0.0", "::", "*"], conn.remoteForwards.lookup (wild, port) = some target

theorem lookup_remote_target {addr port target}
    (found : conn.lookupRemote addr port = some target) : ForwardsTo conn addr port target := by
  rcases Option.or_eq_some_iff.mp found with here | ⟨absent, wild⟩
  · exact .inl here
  · obtain ⟨name, listed, there⟩ := exists_of_findSome?_eq_some wild
    exact .inr ⟨absent, name, listed, there⟩

theorem forwarded_dials {parked addr port} (opens : OpensForwarded payload addr port)
    (ran : conn.step config (.packet parked payload world) = some next) :
    next.effects = conn.effects ∨
      ∃ target, next.effects = conn.effects ++ [.dialed (.host target.1 target.2)] ∧
      ForwardsTo conn addr port target := by
  obtain ⟨kind, sender, window, max, rest, header, address⟩ := opens
  obtain ⟨after, moves, same⟩ := step_moves ran
  have kept : next.effects = after.effects := by
    rcases same with rfl | rfl <;> rfl
  rw [kept]
  cases moves with
  | broken => exact .inl rfl
  | packet running ok =>
    have opened : onPacket config (conn.marked parked) world payload =
        onChannelOpen config (conn.marked parked) payload := by
      rw [onPacket, kind]
      rfl
    rw [opened, onChannelOpen, header] at ok
    simp only [bind, Except.bind] at ok
    split at ok
    · cases ok
      exact .inl rfl
    · rw [if_neg (by decide), if_neg (by decide), if_pos trivial, address] at ok
      dsimp only at ok
      split at ok
      · rename_i host local_ found
        cases ok
        exact .inr ⟨(host, local_), rfl, lookup_remote_target found⟩
      · cases ok
        exact .inl rfl

end Dialing

/-- With a peer that answers each global request once and in order, whatever else happens:
the loop's queue is the requests that have no reply yet, in the order they were sent; each
remote forward in the table was asked for, and comes from a successful reply to that very
request; and a stream that is opened to a forwarded address is connected to the target of
that address, or of any address on that port, and to nothing else. -/
theorem remote_forwards_matched {events : List Event} {exchange : Exchange}
    (path : Path (guarded (Exchange.step config) Exchange.orderly) .start events exchange) :
    exchange.conn.sent.filter isGlobalRequest = exchange.asked.map PendingGlobal.packet ∧
      exchange.conn.pendingGlobal = exchange.asked.drop exchange.answers.length ∧
      (∀ bind port target, exchange.conn.remoteForwards.lookup (bind, port) = some target →
        Registered exchange bind port target) ∧
      ∀ parked payload world addr port next, OpensForwarded payload addr port →
        exchange.conn.step config (.packet parked payload world) = some next →
        next.effects = exchange.conn.effects ∨
          ∃ target, next.effects = exchange.conn.effects ++ [.dialed (.host target.1 target.2)] ∧
            ForwardsTo exchange.conn addr port target := by
  have matched : Matched exchange := by
    refine path_invariant (fun _ => Matched) matched_start ?_ path
    intro past exchange event later _ ran matched
    obtain ⟨orderly, moved⟩ := guarded_eq_some.mp ran
    exact matched_step orderly moved matched
  refine ⟨matched.requests, matched.pending, matched.forwards, ?_⟩
  intro parked payload world addr port next opens ran
  exact forwarded_dials opens ran

/-- A client asks for two forwards, one on a port of the server's choice, and probes in
between. The server grants the second, and connects to it. -/
def forwardsAsked : List Event :=
  [.submit (.remoteForward "" 8080 "localhost" 80),
   .order,
   .tick,
   .tick,
   .submit (.remoteForward "" 0 "localhost" 81),
   .order,
   .packet false (Writer.byte Msg.requestFailure) ⟨none, none⟩,
   .packet false (Writer.byte Msg.requestFailure) ⟨none, none⟩,
   .packet true (Writer.byte Msg.requestSuccess ++ Writer.u32 40000) ⟨none, none⟩]

/-- The server connects to the port it has allocated. -/
def forwardedOpen : Bytes :=
  openPacket "forwarded-tcpip" 0 ++ (Writer.utf8 "10.0.0.1" ++ Writer.u32 40000 ++ Writer.utf8 "" ++ Writer.u32 0)

theorem forwards_asked_run :
    (forwardsAsked.foldlM (guarded (Exchange.step plainClient) Exchange.orderly) .start).isSome =
    true := by decide +kernel

/-- Where that leads to. -/
def forwardsGranted : Exchange :=
  (forwardsAsked.foldlM (guarded (Exchange.step plainClient) Exchange.orderly) .start).get forwards_asked_run

theorem allocated_port_matched : ∃ next : Connection,
    forwardsGranted.asked = [.forward "" 8080 ("localhost", 80), .keepalive, .forward "" 0 ("localhost", 81)] ∧
    forwardsGranted.answers.length = 3 ∧ forwardsGranted.conn.pendingGlobal = [] ∧
    Registered forwardsGranted "" 40000 ("localhost", 81) ∧
    forwardsGranted.conn.step plainClient (.packet false forwardedOpen ⟨none, none⟩) = some next ∧
    next.effects = [.dialed (.host "localhost" 81)] ∧
    (next.effects = forwardsGranted.conn.effects ∨
      ∃ target, next.effects = forwardsGranted.conn.effects ++ [.dialed (.host target.1 target.2)] ∧
        ForwardsTo forwardsGranted.conn "10.0.0.1" 40000 target) := by
  have matched := remote_forwards_matched (path_of_some forwardsAsked forwards_asked_run)
  have found : forwardsGranted.conn.remoteForwards.lookup ("", 40000) = some ("localhost", 81) := by decide +kernel
  have opens : OpensForwarded forwardedOpen "10.0.0.1" 40000 := by
    refine ⟨by decide +kernel, 0, localWindow, maxChunk,
      Writer.utf8 "10.0.0.1" ++ Writer.u32 40000 ++ Writer.utf8 "" ++ Writer.u32 0, ?_, ?_⟩
    all_goals decide +kernel
  have effects : (forwardsGranted.conn.step plainClient (.packet false forwardedOpen ⟨none,
    none⟩)).map Connection.effects =
      some [.dialed (.host "localhost" 81)] := by decide +kernel
  obtain ⟨next, moved, dialed⟩ := Option.map_eq_some_iff.mp effects
  refine ⟨next, by decide +kernel, by decide +kernel, by decide +kernel, matched.2.2.1 _ _ _ found, moved, dialed, ?_⟩
  exact matched.2.2.2 _ _ _ _ _ _ opens moved

end Shh.Connections
