import Shh.Receiving

/-!
# What the transport keeps to itself

A packet reaches the application by two ways: read by `recv` or by the multiplexer, or held back
during a rekey of our own and handed over after it. The two ways filter differently. Both keep
chatter, disconnects and the messages of a key exchange. An EXT_INFO is read into the signature
algorithms on the first, but held back and handed over on the second; and where the peer's
guess is dropped, whatever comes in its place is dropped unread.

As long as no EXT_INFO comes at these two waiting points, no message of the transport is handed
over, and what each EXT_INFO announces is known before anything later is.
-/

namespace Shh.Transport

open List Wire Computations Runs

variable {prim : Primitives}

/-- The types of the transport's own messages. -/
def transportKinds : List UInt8 :=
  [Msg.disconnect, Msg.ignore, Msg.unimplemented, Msg.debug, Msg.extInfo, Msg.kexInit, Msg.newKeys, Msg.kexEcdhInit,
    Msg.kexEcdhReply]

/-- Waiting for the packet that the peer guessed wrong. -/
def Phase.guessing : Phase prim → Bool
  | .guess _ _ => true
  | _ => false

/-- A step in which no EXT_INFO is read while our own rekey waits for the peer's KEXINIT, nor in
place of a guess. -/
def Timely (endpoint : Endpoint prim) (input : Input) : Prop :=
  input = .wake → (endpoint.phase.proposed || endpoint.phase.guessing) = true →
    ∀ payload ∈ endpoint.found, kind payload ≠ Msg.extInfo

instance (endpoint : Endpoint prim) (input : Input) : Decidable (Timely endpoint input) :=
  inferInstanceAs (Decidable (input = .wake → (endpoint.phase.proposed || endpoint.phase.guessing) = true →
    ∀ payload ∈ endpoint.found, kind payload ≠ Msg.extInfo))

/-- What `note_ext_info` makes of the packet, if it is an EXT_INFO that was opened. -/
def Effect.informs (found : Option (List String)) : Effect prim → Except Error (Option (List String))
  | .opened payload => if kind payload = Msg.extInfo then readExtInfo found payload else .ok found
  | _ => .ok found

/-- What it makes of every EXT_INFO received, one after the other. -/
def learned (trace : List (Effect prim)) : Except Error (Option (List String)) :=
  trace.foldlM Effect.informs none

section Moves

variable {env : Env prim} {point next : Point prim} {world after : World prim} {payload : Bytes}
  {trace : List (Effect prim)} {t changed : Fields prim} {found : Option (List String)}

variable {effect : Effect prim}

theorem learned_snoc (trace : List (Effect prim)) (effect : Effect prim) :
    learned (trace ++ [effect]) = learned trace >>= fun found => effect.informs found := by
  rw [learned, foldlM_append]
  refine congrArg (learned trace >>= ·) (funext fun found => ?_)
  exact bind_pure _

/-- An effect that is not an EXT_INFO tells nothing. -/
theorem learned_other (other : ∀ packet, effect = .opened packet → kind packet ≠ Msg.extInfo) :
    learned (trace ++ [effect]) = learned trace := by
  have silent (found : Option (List String)) : effect.informs found = .ok found := by
    cases effect with
    | opened packet => exact if_neg (other packet rfl)
    | _ => rfl
  simp only [learned_snoc, silent]
  exact bind_pure _

/-- How the announced algorithms compare with what was received. A packet in hand has not been
looked at, and a transport that failed hands nothing over any more. -/
def Point.Learned (found : Option (List String)) (trace : List (Effect prim)) : Point prim → Prop
  | .taken phase packet => ∃ earlier, trace = earlier ++ [.opened packet] ∧ learned earlier = .ok found ∧
      ((phase.proposed || phase.guessing) = true → kind packet ≠ Msg.extInfo)
  | .waiting (.failed _) | .closing (.failed _) _ _ =>
      ∀ before packet, trace = before ++ [.returned packet] → learned trace = .ok found
  | _ => learned trace = .ok found

/-- What was handed over, and what is held back to be, is no message of the transport's. -/
structure Noting (point : Point prim) (t : Fields prim) (trace : List (Effect prim)) : Prop where
  returned : ∀ packet, .returned packet ∈ trace → kind packet ∉ transportKinds
  queued : ∀ packet ∈ t.queued, kind packet ∉ transportKinds
  told : point.Learned t.serverSigAlgs trace

/-- Packets that the filters let through are not the transport's, unless they are EXT_INFO. -/
theorem passes_visible {packet} (passes : passes packet) (uninformed : kind packet ≠ Msg.extInfo) :
    kind packet ∉ transportKinds := by
  obtain ⟨chatter, bye, init, message⟩ := passes
  simp only [isChatter, isKexMessage, Bool.or_eq_false_iff, decide_eq_false_iff_not] at chatter message
  simp only [transportKinds, mem_cons, not_mem_nil, or_false, not_or]
  exact ⟨bye, chatter.1.1, chatter.2, chatter.1.2, uninformed, init, message.1.1, message.1.2, message.2⟩

/-- With no EXT_INFO in hand, everything received has been noted. -/
theorem Noting.whole (noting : Noting point t trace) (live : point.dead = false)
    (plain : ∀ packet ∈ point.inHand, kind packet ≠ Msg.extInfo) : learned trace = .ok t.serverSigAlgs := by
  have known := noting.told
  cases point with
  | taken phase packet =>
    obtain ⟨earlier, rfl, told, -⟩ := known
    rw [learned_other (fun other same => Effect.opened.inj same ▸ plain packet mem_cons_self)]
    exact told
  | waiting phase | closing phase =>
    cases phase with
    | failed reason => cases live
    | _ => exact known
  | _ => exact known

theorem learned_point (known : learned trace = .ok found) (emptied : point.inHand = []) :
    point.Learned found trace := by
  cases point with
  | taken phase packet => cases emptied
  | waiting phase | closing phase =>
    cases phase with
    | failed reason => exact fun _ _ _ => known
    | _ => exact known
  | _ => exact known

/-- Going on with no EXT_INFO in hand. -/
theorem Noting.goOn (noting : Noting point t trace) (live : point.dead = false)
    (plain : ∀ packet ∈ point.inHand, kind packet ≠ Msg.extInfo) (same : changed.serverSigAlgs = t.serverSigAlgs)
    (queued : ∀ packet ∈ changed.queued, kind packet ∉ transportKinds) (emptied : next.inHand = []) :
    Noting next changed trace := by
  refine ⟨noting.returned, queued, learned_point ?_ emptied⟩
  rw [same]
  exact noting.whole live plain

/-- Effects after which the transport has nothing new to note, and nothing of its own was handed
over. -/
def Effect.Proper : Effect prim → Prop
  | .opened _ => False
  | .returned packet => kind packet ∉ transportKinds
  | _ => True

theorem proper_returned (proper : effect.Proper)
    (returned : ∀ packet, .returned packet ∈ trace → kind packet ∉ transportKinds) :
    ∀ packet, .returned packet ∈ trace ++ [effect] → kind packet ∉ transportKinds := by
  intro packet member
  rcases mem_append.mp member with earlier | last
  · exact returned packet earlier
  · rw [← mem_singleton.mp last] at proper
    exact proper

/-- Going on with an effect. -/
theorem Noting.note (proper : effect.Proper) (noting : Noting point t trace) (live : point.dead = false)
    (plain : ∀ packet ∈ point.inHand, kind packet ≠ Msg.extInfo) (same : changed.serverSigAlgs = t.serverSigAlgs)
    (queued : ∀ packet ∈ changed.queued, kind packet ∉ transportKinds) (emptied : next.inHand = []) :
    Noting next changed (trace ++ [effect]) := by
  refine ⟨proper_returned proper noting.returned, queued, learned_point ?_ emptied⟩
  rw [same, learned_other]
  · exact noting.whole live plain
  · rintro packet rfl
    exact absurd proper id

/-- A failed transport whose last act was not to hand a packet over. -/
theorem noting_failed (reason : Error) (returned : ∀ packet, .returned packet ∈ trace → kind packet ∉ transportKinds)
    (queued : ∀ packet ∈ t.queued, kind packet ∉ transportKinds)
    (other : ∀ before packet, trace ≠ before ++ [.returned packet]) : Noting (.waiting (.failed reason)) t trace :=
  ⟨returned, queued, fun before packet last => absurd last (other before packet)⟩

/-- When a packet was handed over last, everything received has been noted. -/
theorem noting_last {phase} (noting : Noting (.waiting phase) t trace) :
    ∀ before packet, trace = before ++ [.returned packet] → learned trace = .ok t.serverSigAlgs := by
  have told := noting.told
  cases phase with
  | failed reason => exact told
  | _ => exact fun _ _ _ => told

/-- Giving up. -/
theorem Noting.fails (noting : Noting point t trace) (reason : Error) : Noting (.waiting (.failed reason)) t trace := by
  have told := noting.told
  cases point with
  | taken phase packet =>
    obtain ⟨earlier, split, -⟩ := told
    refine noting_failed reason noting.returned noting.queued fun before other last => ?_
    cases (append_inj' (split.symm.trans last) rfl).2
  | waiting phase => exact ⟨noting.returned, noting.queued, noting_last noting⟩
  | closing phase =>
    cases phase with
    | failed reason => exact ⟨noting.returned, noting.queued, told⟩
    | _ => exact ⟨noting.returned, noting.queued, fun _ _ _ => told⟩
  | _ => exact ⟨noting.returned, noting.queued, fun _ _ _ => told⟩

/-- Failing with an effect, whatever the point. -/
theorem Noting.failNoted (noting : Noting point t trace) (queued : changed.queued = t.queued) (reason : Error)
    (effect : Effect prim) (proper : effect.Proper) (unreturned : ∀ packet, effect ≠ .returned packet) :
    Noting (.waiting (.failed reason)) changed (trace ++ [effect]) := by
  refine noting_failed reason (proper_returned proper noting.returned) (queued ▸ noting.queued) ?_
  intro before packet last
  exact unreturned packet (singleton_inj.mp (append_inj' last rfl).2)

theorem Noting.cut (noting : Noting point world.t world.trace) (payload : Bytes)
    (through : Bytes → Bytes) (reason : Error) :
    Noting (.waiting (.failed reason)) (world.sent payload through).t (world.sent payload through).trace :=
  @Noting.failNoted _ _ _ _ (world.sent payload through).t noting rfl reason
    (.sealed world.t.tx world.t.txSeq payload _)
    trivial fun packet same => by cases same

/-- Packets are answered only when they belong to a key exchange. -/
theorem sends_plain (sends : Sends env point world payload next) :
    ∀ packet ∈ point.inHand, kind packet ≠ Msg.extInfo := by
  cases sends with
  | kexInit proposes size =>
    cases proposes with
    | respond waits peers =>
      intro packet member
      rw [mem_singleton.mp member, peers]
      decide
    | _ => exact fun _ member => absurd member not_mem_nil
  | ecdhReply parsed =>
    intro packet member
    obtain ⟨rfl, -⟩ := read_ecdh_init_ok.mp parsed
    rw [mem_singleton.mp member, ecdh_init_kind]
    decide
  | _ => exact fun _ member => absurd member not_mem_nil

theorem noting_sends (through : Bytes → Bytes) (sends : Sends env point world payload next)
    (noting : Noting point world.t world.trace) :
    Noting next (world.sent payload through).t (world.sent payload through).trace := by
  cases dead : point.dead with
  | false => exact noting.note trivial dead (sends_plain sends) rfl noting.queued (sends_in_hand sends).2.1
  | true =>
    -- Only a last disconnect is sent after a failure.
    cases sends with
    | kexInit proposes size => cases proposes <;> cases dead
    | closing reason description able =>
      rcases able with rfl | ⟨error, rfl⟩
      · cases dead
      · exact noting.cut _ through error
    | _ => cases dead

theorem noting_goes (goes : Goes env point world next after) (noting : Noting point world.t world.trace) :
    Noting next after.t after.trace := by
  -- A packet of any other type than EXT_INFO is in hand.
  have other {packet type} (is : kind packet = type) (differs : type ≠ Msg.extInfo) :
      ∀ found ∈ [packet], kind found ≠ Msg.extInfo := by
    intro found member
    rw [mem_singleton.mp member, is]
    exact differs
  have none : ∀ found ∈ ([] : List Bytes), kind found ≠ Msg.extInfo := by simp
  cases goes with
  | firstAgreed peers | agreed peers => exact noting.goOn rfl (other peers (by decide)) rfl noting.queued rfl
  | finished bye => exact noting.goOn rfl (other bye (by decide)) rfl noting.queued rfl
  | skipped chatter => exact noting.goOn rfl (other rfl (chatter_kind chatter).2.2) rfl noting.queued rfl
  | chatter waits chatter =>
    cases waits <;> exact noting.goOn rfl (other rfl (chatter_kind chatter).2.2) rfl noting.queued rfl
  | held passes fits =>
    obtain ⟨-, -, -, timely⟩ := noting.told
    refine noting.goOn rfl (other rfl (timely rfl)) rfl ?_ rfl
    intro packet member
    rcases mem_append.mp member with earlier | last
    · exact noting.queued packet earlier
    · rw [mem_singleton.mp last]
      exact passes_visible passes (timely rfl)
  | dropped kex resume packet =>
    obtain ⟨-, -, -, timely⟩ := noting.told
    exact noting.goOn rfl (other rfl (timely rfl)) rfl noting.queued rfl
  | certified parsed | unasked parsed =>
    obtain ⟨rfl, -⟩ := read_ecdh_reply_ok.mp parsed
    exact noting.goOn rfl (other (ecdh_reply_kind _ _ _) (by decide)) rfl noting.queued rfl
  | asked parsed =>
    obtain ⟨rfl, -⟩ := read_ecdh_reply_ok.mp parsed
    exact noting.note trivial rfl (other (ecdh_reply_kind _ _ _) (by decide)) rfl noting.queued rfl
  | refused key reason => exact noting.failNoted rfl reason (.asked key false) trivial fun packet same => by cases same
  | keyed | installed | completed | submitted => exact noting.note trivial rfl none rfl noting.queued rfl
  | ended exchange resume => exact noting.note trivial rfl (other rfl (by decide)) rfl noting.queued rfl
  | drained looks queued =>
    have visible := noting.queued
    rw [queued] at visible
    have kept := fun packet member => visible packet (mem_cons_of_mem _ member)
    rcases looks with rfl | rfl
    all_goals exact noting.note (visible _ mem_cons_self) rfl none rfl kept rfl
  | noted found queued info =>
    have visible := noting.queued
    rw [queued] at visible
    exact absurd (by rw [info]; decide) (visible _ mem_cons_self)
  | extInfo waits info found read =>
    obtain ⟨earlier, split, told, -⟩ := noting.told
    have learnt : learned world.trace = .ok found := by
      rw [split, learned_snoc, told]
      exact (if_pos info).trans read
    cases waits <;> exact ⟨noting.returned, noting.queued, learned_point learnt rfl⟩
  | returned waits passes uninformed =>
    have visible := passes_visible passes uninformed
    cases waits <;> exact noting.note visible rfl (other rfl uninformed) rfl noting.queued rfl
  | _ => exact noting.goOn rfl none rfl noting.queued rfl

theorem noting_moves (moves : Moves env (point, world) (next, after)) (noting : Noting point world.t world.trace) :
    Noting next after.t after.trace := by
  cases moves with
  | sent sends whole => exact noting_sends id sends noting
  | cut sends fault => exact noting.cut _ _ _
  | went goes => exact noting_goes goes noting
  | drew random => exact noting
  | failed => exact noting.fails _

theorem noting_enters {endpoint : Endpoint prim} {input rest} (timely : Timely endpoint input)
    (noting : Noting (.waiting endpoint.phase) endpoint.t endpoint.trace)
    (enters : Enters env endpoint input rest point world) : Noting point world.t world.trace := by
  cases enters with
  | greeted created whole =>
    rw [created] at noting
    exact ⟨noting.returned, noting.queued, noting.told⟩
  | greetingCut created fault => exact noting.fails _
  | arrived | stays => exact noting
  | lineRead waiting read | cancelled waiting =>
    rw [waiting] at noting
    exact ⟨noting.returned, noting.queued, noting.told⟩
  | @packetRead payload size rest waiting read =>
    have live : (Point.waiting endpoint.phase).dead = false := by
      cases phase : endpoint.phase with
      | failed reason =>
        rw [phase] at waiting
        cases waiting
      | _ => rfl
    have known := noting.whole live fun _ member => absurd member not_mem_nil
    have found : endpoint.found = some payload := by rw [Endpoint.found, read]
    refine ⟨?_, noting.queued, endpoint.trace, rfl, known, fun awaited => timely rfl awaited payload found⟩
    intro packet member
    rcases mem_append.mp member with earlier | last
    · exact noting.returned packet earlier
    · cases mem_singleton.mp last
  | called idle =>
    rw [idle] at noting
    exact ⟨noting.returned, noting.queued, noting.told⟩
  | closing able =>
    rcases able with idle | ⟨error, failed⟩
    · rw [idle] at noting ⊢
      exact ⟨noting.returned, noting.queued, noting.told⟩
    · rw [failed] at noting ⊢
      exact ⟨noting.returned, noting.queued, noting.told⟩

end Moves

section Runs

/-- **Transport messages never reach the application**, in every run in which no EXT_INFO comes
while a rekey of our own waits for the peer's KEXINIT or in place of a dropped guess. No packet
handed over has one of the transport's types, and when one is handed over, the announced
algorithms are what `note_ext_info` made of every EXT_INFO received before. -/
theorem transport_messages_kept (config : Config prim) (instant : Nat) (past : List (Env prim × Input))
    (timely : Licensed (fun earlier event => Timely (Endpoint.after config instant earlier) event.2) past) :
    let endpoint := Endpoint.after config instant past
    (∀ packet, .returned packet ∈ endpoint.trace → kind packet ∉ transportKinds) ∧
      ∀ before packet, endpoint.trace = before ++ [.returned packet] →
      learned before = .ok endpoint.t.serverSigAlgs := by
  intro endpoint
  have noting := after_invariant_when config instant Timely (fun point world => Noting point world.t world.trace)
    (fun _ => ⟨fun _ member => absurd member not_mem_nil, fun _ member => absurd member not_mem_nil, rfl⟩)
    (fun env endpoint input rest point world met held enters => noting_enters met (held env.random) enters)
    (fun env point world next after moves held => noting_moves moves held) past timely
  obtain ⟨returned, queued, told⟩ := noting fun _ => 0
  refine ⟨returned, ?_⟩
  intro before packet last
  have known : learned endpoint.trace = .ok endpoint.t.serverSigAlgs :=
    (noting_last ⟨returned, queued, told⟩) before packet last
  rwa [last, learned_other fun other same => by cases same] at known

/-- The server's packet with a number under the first keys. -/
def Sample.serverPacket (seq : Nat) (payload : Bytes) : Bytes :=
  Sample.rekeyed.t.rx.sealPacket .transparent seq payload (List.replicate (Sample.rekeyed.t.rx.padFor payload.length) 0)

/-- After its handshake a client receives: an EXT_INFO comes, then a packet for the application. -/
def Sample.announced : List (Env .transparent × Input) :=
  Sample.handshake ++ [.call .recv, .arrive (Sample.serverPacket 0 extInfoPacket), .wake,
    .arrive (Sample.serverPacket 1 [80, 1]), .wake].map (Prod.mk Sample.env)

/-- It is handed the second and knows what the first announced. -/
theorem transport_messages_kept_announced :
    let endpoint := Endpoint.after (.client [] "host") 0 Sample.announced
    (ledger endpoint.trace).returned = [[80, 1]] ∧ endpoint.t.serverSigAlgs = some [algo, certAlgo] ∧
      ∀ packet, .returned packet ∈ endpoint.trace → kind packet ∉ transportKinds :=
  ⟨by decide +kernel, by decide +kernel,
    (transport_messages_kept (.client [] "host") 0 Sample.announced (by decide +kernel)).1⟩

/-- The same client with a rekey due when it receives: the EXT_INFO comes before the server's
KEXINIT, and the exchange is completed. -/
def Sample.parked : List (Env .transparent × Input) :=
  Sample.handshake ++ [.call (.tighten 0 0), .call .recv, .arrive (Sample.serverPacket 0 extInfoPacket), .wake,
    .arrive (Sample.serverPacket 1 Sample.serverInit.encode), .wake,
    .arrive (Sample.serverPacket 2 (ecdhReplyPacket Sample.hostBlob Sample.point
      (Sample.host.sign .transparent Sample.hash))), .wake,
    .arrive (Sample.serverPacket 3 [Msg.newKeys]), .wake].map (Prod.mk Sample.env)

/-- It is handed the EXT_INFO, and does not know what it announced. -/
theorem parked_ext_info_returned :
    let endpoint := Endpoint.after (.client [] "host") 0 Sample.parked
    (ledger endpoint.trace).returned = [extInfoPacket] ∧ kind extInfoPacket ∈ transportKinds ∧
      endpoint.t.serverSigAlgs = none ∧ learned endpoint.trace = .ok (some [algo, certAlgo]) :=
  ⟨by decide +kernel, by decide, by decide +kernel, by decide +kernel⟩

end Runs

end Shh.Transport
