import Shh.Ledger

/-!
# The packets of a first key exchange

Until its first keys are installed a transport reads packets that anybody could
have written. Strict key exchange leaves no room among them: the peer's KEXINIT,
the packet of a wrong guess if that KEXINIT announced one, the one message of the
exchange and NEWKEYS. The sequences are stated here on their own (`Strict`), and
a transport whose constructor has not failed has read a first part of one of
them, and all of it when the constructor returns.
-/

namespace Shh.Transport

open Wire Computations Runs

variable {prim : Primitives}

/-- What happens to a transport while its constructor runs. -/
def Input.constructing : Input → Bool
  | .start | .arrive _ | .wake | .close => true
  | .cancel | .call _ | .disconnect _ _ => false

/-- The name by which each side says that it keeps to strict key exchange. -/
def Side.marker : Side → String
  | .client => strictClient
  | .server => strictServer

/-- The lists a transport proposes. -/
def Config.proposal (config : Config prim) : KexInit :=
  KexInit.ours config.side (Endpoint.create config 0).t.hostKeyAlgos []

/-- The peer announced a guess, and the first preferences of the two differ. -/
def GuessedWrong (ours theirs : KexInit) : Prop :=
  theirs.firstPacketFollows = true ∧
    (ours.kex.head? ≠ theirs.kex.head? ∨ ours.hostKeys.head? ≠ theirs.hostKeys.head?)

instance (ours theirs : KexInit) : Decidable (GuessedWrong ours theirs) :=
  inferInstanceAs (Decidable (_ ∧ _))

/-- A sequence begins with a KEXINIT that carries the marker, and a packet to drop
exactly after a wrong guess. -/
def Opens (config : Config prim) (theirsBytes : Bytes) (guess : List Bytes) : Prop :=
  ∃ theirs, KexInit.parse theirsBytes = .ok theirs ∧ Side.marker config.side.other ∈ theirs.kex ∧
    guess.length = if GuessedWrong config.proposal theirs then 1 else 0

/-- The message each side takes, to its last byte. -/
def Answers (packet : Bytes) : Side → Prop
  | .client => ∃ kS qS signature, packet = ecdhReplyPacket kS qS signature
  | .server => ∃ qC, packet = ecdhInitPacket qC

/-- The packets of a first exchange. -/
def Strict (config : Config prim) (sequence : List Bytes) : Prop :=
  ∃ theirsBytes guess answer, Opens config theirsBytes guess ∧ Answers answer config.side ∧
    sequence = theirsBytes :: guess ++ [answer, [Msg.newKeys]]

section Negotiation

variable {ours theirs : KexInit}

/-- A negotiation succeeds only with a marked peer, and tells a wrong guess. -/
theorem negotiate_strict {side : Side} {neg : Negotiated} (chosen : negotiate side ours theirs = .ok neg) :
    Side.marker side.other ∈ theirs.kex ∧ (neg.discardGuess = true ↔ GuessedWrong ours theirs) := by
  cases side with
  | client | server =>
    simp only [negotiate] at chosen
    split at chosen
    · rename_i marked
      refine ⟨List.contains_iff_mem.mp marked, ?_⟩
      split at chosen
      · simp at chosen
      · rw [← Except.ok.inj chosen]
        simp only [Bool.and_eq_true, Bool.not_eq_true', decide_eq_false_iff_not, not_and_or]
        -- The two sides compare the same heads, one of them the other way round.
        first
        | exact Iff.rfl
        | exact and_congr_right fun _ => or_congr ne_comm ne_comm
    · simp at chosen

/-- A transport's own KEXINIT has its configuration's lists. -/
def Proposed (config : Config prim) (ours : KexInit) : Prop :=
  ours.kex = config.proposal.kex ∧ ours.hostKeys = config.proposal.hostKeys

theorem guessed_wrong_proposed {config : Config prim} (proposed : Proposed config ours) :
    GuessedWrong ours theirs ↔ GuessedWrong config.proposal theirs := by
  unfold GuessedWrong
  rw [proposed.1, proposed.2]

/-- Negotiating the first two KEXINITs opens a sequence. -/
theorem opens_of_negotiate {config : Config prim} {theirsBytes} {neg : Negotiated}
    {guess : List Bytes} (proposed : Proposed config ours)
    (parsed : KexInit.parse theirsBytes = .ok theirs) (chosen : negotiate config.side ours theirs = .ok neg)
    (dropped : guess.length = if neg.discardGuess then 1 else 0) : Opens config theirsBytes guess := by
  obtain ⟨marked, wrong⟩ := negotiate_strict chosen
  refine ⟨theirs, parsed, marked, ?_⟩
  rw [dropped]
  simp only [wrong, guessed_wrong_proposed proposed]

end Negotiation

section Consumed

variable {config : Config prim} {env : Env prim} {point next : Point prim} {world after : World prim}
  {opened : List Bytes}

/-- What was read when a transport waits during its constructor. -/
def Phase.Consumed (config : Config prim) (opened : List Bytes) : Phase prim → Prop
  | .created | .idents _ _ => opened = []
  | .firstKexInit ours => opened = [] ∧ Proposed config ours
  | .guess kex resume => resume = .handshake ∧ opened = [kex.theirsBytes] ∧
      ∀ packet, Opens config kex.theirsBytes [packet]
  | .ecdhReply kex _ _ resume => config.side = .client ∧ resume = .handshake ∧
      ∃ guess, opened = kex.theirsBytes :: guess ∧ Opens config kex.theirsBytes guess
  | .ecdhInit kex _ resume => config.side = .server ∧ resume = .handshake ∧
      ∃ guess, opened = kex.theirsBytes :: guess ∧ Opens config kex.theirsBytes guess
  | .newKeys _ resume => resume = .handshake ∧ ∃ theirsBytes guess answer, Opens config theirsBytes guess ∧
      Answers answer config.side ∧ opened = theirsBytes :: guess ++ [answer]
  | .idle => Strict config opened
  | .failed _ => True
  | .peerKexInit _ _ | .receiving | .polling | .finished => False

/-- What was read at a point between two waits. -/
def Point.Consumed (config : Config prim) (opened : List Bytes) : Point prim → Prop
  | .waiting phase => phase.Consumed config opened
  | .line _ _ _ | .identified => opened = []
  | .taken phase packet => ∃ earlier, opened = earlier ++ [packet] ∧ phase.Consumed config earlier
  | .agreed ours theirsBytes resume => resume = .handshake ∧ opened = [theirsBytes] ∧ Proposed config ours
  | .begun kex resume => resume = .handshake ∧
      ∃ guess, opened = kex.theirsBytes :: guess ∧ Opens config kex.theirsBytes guess
  | .trusted _ _ _ resume _ _ _ _ | .established _ resume | .keyed _ resume | .announced _ resume =>
    resume = .handshake ∧ ∃ theirsBytes guess answer, Opens config theirsBytes guess ∧
      Answers answer config.side ∧ opened = theirsBytes :: guess ++ [answer]
  | .ended _ resume | .informed _ resume | .resumed resume => resume = .handshake ∧ Strict config opened
  | .called _ | .sending _ | .closing _ _ _ | .loop => False

/-- The receiving keys of the first exchange are installed. -/
def Point.keysInstalled : Point prim → Bool
  | .ended _ _ | .informed _ _ | .resumed _ | .waiting .idle => true
  | _ => false

/-- A constructor that has read only what it may. -/
structure Handshaking (config : Config prim) (point : Point prim) (world : World prim) : Prop where
  role : world.t.side = config.side
  algos : world.t.hostKeyAlgos = config.proposal.hostKeys
  empty : world.t.queued = []
  consumed : point.Consumed config (ledger world.trace).opened
  restarted : point.keysInstalled = true → world.t.rxSeq = 0

theorem sends_handshaking {payload} (through : Bytes → Bytes)
    (sends : Sends env point world payload next) (handshaking : Handshaking config point world) :
    Handshaking config next (world.sent payload through) := by
  obtain ⟨role, algos, empty, consumed, restarted⟩ := handshaking
  have opened : (ledger (world.sent payload through).trace).opened = (ledger world.trace).opened := by
    simp [World.sent, ledger_snoc, Ledger.add]
  have proposed (cookie : Bytes) :
      Proposed config (KexInit.ours world.t.side world.t.hostKeyAlgos cookie) := by
    rw [role, algos]
    exact ⟨rfl, rfl⟩
  refine ⟨role, algos, empty, ?_, ?_⟩
  · rw [opened]
    cases sends with
    | kexInit proposes size =>
      cases proposes with
      | first => exact ⟨consumed, proposed _⟩
      | respond waits peers =>
        obtain ⟨_, _, none⟩ := consumed
        cases waits <;> exact absurd none id
      | loop | sending | called => exact absurd consumed id
    | ecdhInit client secretSize seedSize => exact ⟨role.symm.trans client, consumed⟩
    | ecdhReply parsed secretSize seedSize answered =>
      obtain ⟨earlier, all, server, handshake, guess, same, opens⟩ := consumed
      refine ⟨handshake, _, guess, _, opens, ?_, by rw [all, same]⟩
      rw [server]
      exact ⟨_, (read_ecdh_init_ok.mp parsed).1⟩
    | newKeys | extInfo => exact consumed
    | resumed payload => cases consumed.1
    | submitted | closing => exact absurd consumed id
  · cases sends with
    | kexInit proposes size => cases proposes <;> exact fun installed => absurd installed Bool.false_ne_true
    | extInfo | resumed => exact restarted
    | submitted | closing => exact absurd consumed id
    | _ => exact fun installed => absurd installed Bool.false_ne_true

theorem goes_consumed (goes : Goes env point world next after) (handshaking : Handshaking config point world) :
    next.Consumed config (ledger world.trace).opened := by
  obtain ⟨role, _, empty, consumed, _⟩ := handshaking
  cases goes with
  | identified | prefaced => exact consumed
  | firstAgreed peers =>
    obtain ⟨earlier, all, rfl, proposed⟩ := consumed
    exact ⟨rfl, all, proposed⟩
  | agreed | skipped | held =>
    obtain ⟨_, _, none⟩ := consumed
    exact absurd none id
  | negotiated parsed chosen kept =>
    obtain ⟨handshake, all, proposed⟩ := consumed
    rw [role] at chosen
    exact ⟨handshake, [], all, opens_of_negotiate proposed parsed chosen (by rw [kept]; rfl)⟩
  | guessed parsed chosen discarded =>
    obtain ⟨handshake, all, proposed⟩ := consumed
    rw [role] at chosen
    exact ⟨handshake, all, fun packet => opens_of_negotiate proposed parsed chosen (by rw [discarded]; rfl)⟩
  | dropped _ kex resume packet =>
    obtain ⟨earlier, all, handshake, rfl, opens⟩ := consumed
    exact ⟨handshake, [packet], all, opens packet⟩
  | serves server => exact ⟨role.symm.trans server, consumed⟩
  | certified parsed | asked parsed | unasked parsed =>
    obtain ⟨earlier, all, client, handshake, guess, same, opens⟩ := consumed
    refine ⟨handshake, _, guess, _, opens, ?_, by rw [all, same]⟩
    rw [client]
    exact ⟨_, _, _, (read_ecdh_reply_ok.mp parsed).1⟩
  | refused => trivial
  | verified | keyed | installed | silent | completed => exact consumed
  | ended =>
    obtain ⟨earlier, all, handshake, theirsBytes, guess, answer, opens, answers, same⟩ := consumed
    refine ⟨handshake, theirsBytes, guess, answer, opens, answers, ?_⟩
    rw [all, same, List.append_assoc]
    rfl
  | resumed finished => exact consumed.2
  | receives => cases consumed.1
  | drained looks queued => rcases looks with rfl | rfl <;> exact absurd consumed id
  | chatter waits | extInfo waits | returned waits =>
    obtain ⟨_, _, none⟩ := consumed
    cases waits <;> exact absurd none id
  | finished bye =>
    obtain ⟨_, _, none⟩ := consumed
    exact absurd none id
  | noted | waits | submitted | recv | poll | nothing | tightened => exact absurd consumed id

theorem goes_handshaking (goes : Goes env point world next after) (handshaking : Handshaking config point world) :
    Handshaking config next after := by
  have consumed := goes_consumed goes handshaking
  obtain ⟨side, algos, _, _⟩ := goes_fields goes
  rw [← goes_opened goes] at consumed
  refine ⟨side.trans handshaking.role, algos.trans handshaking.algos, ?_, consumed, ?_⟩
  · have empty := handshaking.empty
    have before := handshaking.consumed
    cases goes with
    | held passes =>
      obtain ⟨_, _, none⟩ := before
      exact absurd none id
    | drained looks queued => rcases looks with rfl | rfl <;> exact absurd before id
    | noted => exact absurd before id
    | _ => exact empty
  · have restarted := handshaking.restarted
    have before := handshaking.consumed
    cases goes with
    | ended => exact fun _ => rfl
    | silent | completed => exact restarted
    | resumed finished => exact restarted
    | drained looks queued => rcases looks with rfl | rfl <;> exact absurd before id
    | chatter waits | extInfo waits | returned waits =>
      obtain ⟨_, _, none⟩ := before
      cases waits <;> exact absurd none id
    | noted | nothing | tightened => exact absurd before id
    | _ => exact fun installed => absurd installed Bool.false_ne_true

theorem moves_handshaking (moves : Moves env (point, world) (next, after))
    (handshaking : Handshaking config point world) : Handshaking config next after := by
  cases moves with
  | sent sends whole => exact sends_handshaking id sends handshaking
  | cut sends fault =>
    obtain ⟨role, algos, empty, _, _⟩ := handshaking
    exact ⟨role, algos, empty, trivial, fun installed => absurd installed Bool.false_ne_true⟩
  | went goes => exact goes_handshaking goes handshaking
  | drew random => exact ⟨handshaking.role, handshaking.algos, handshaking.empty, handshaking.consumed,
      handshaking.restarted⟩
  | failed reason =>
    exact ⟨handshaking.role, handshaking.algos, handshaking.empty, trivial,
      fun installed => absurd installed Bool.false_ne_true⟩

theorem enters_handshaking {endpoint : Endpoint prim} {input : Input} {rest}
    (handshaking : ∀ random, Handshaking config (.waiting endpoint.phase) (endpoint.world random))
    (constructing : input.constructing = true) (enters : Enters env endpoint input rest point world) :
    Handshaking config point world := by
  have before := handshaking env.random
  obtain ⟨role, algos, empty, consumed, restarted⟩ := before
  cases enters with
  | greeted created whole =>
    rw [created] at consumed
    exact ⟨role, algos, empty, consumed, fun installed => absurd installed Bool.false_ne_true⟩
  | greetingCut created fault =>
    exact ⟨role, algos, empty, trivial, fun installed => absurd installed Bool.false_ne_true⟩
  | arrived | stays => exact ⟨role, algos, empty, consumed, restarted⟩
  | lineRead waiting read =>
    rw [waiting] at consumed
    exact ⟨role, algos, empty, consumed, fun installed => absurd installed Bool.false_ne_true⟩
  | packetRead waiting read =>
    refine ⟨role, algos, empty, ?_, fun installed => absurd installed Bool.false_ne_true⟩
    simp only [World.noted, World.changed, ledger_snoc, Ledger.add]
    exact ⟨_, rfl, consumed⟩
  | cancelled | called | closing => cases constructing

theorem created_handshaking (config : Config prim) (instant : Nat) (random : Nat → UInt8) :
    Handshaking config (.waiting .created) ((Endpoint.create config instant).world random) :=
  ⟨rfl, rfl, rfl, rfl, fun installed => absurd installed Bool.false_ne_true⟩

theorem after_handshaking (config : Config prim) (instant : Nat) (past : List (Env prim × Input))
    (constructing : ∀ event ∈ past, event.2.constructing = true) (random : Nat → UInt8) :
    Handshaking config (.waiting (Endpoint.after config instant past).phase)
      ((Endpoint.after config instant past).world random) := by
  refine after_invariant config instant
    (fun past point world => (∀ event ∈ past, event.2.constructing = true) → Handshaking config point world)
    (fun random _ => created_handshaking config instant random) ?_ ?_ past random constructing
  · intro past env endpoint input rest point world held enters constructing
    have earlier : ∀ event ∈ past, event.2.constructing = true :=
      fun event member => constructing event (List.mem_append_left _ member)
    exact enters_handshaking (fun random => held random earlier)
      (constructing (env, input) (by simp)) enters
  · intro past env input point world next after moves held constructing
    exact moves_handshaking moves (held constructing)

end Consumed

section Sequences

variable {config : Config prim}

/-- What a side can be answered with. -/
theorem answers_exist (side : Side) : ∃ packet, Answers packet side := by
  cases side with
  | client => exact ⟨_, [], [], [], rfl⟩
  | server => exact ⟨_, [], rfl⟩

/-- A peer that runs this code opens a sequence. -/
theorem opens_exist (config : Config prim) : ∃ theirsBytes guess, Opens config theirsBytes guess := by
  have ours : Ours config.side.other (KexInit.ours config.side.other (hostKeyAlgos false) (List.replicate 16 0)) :=
    ⟨false, _, List.length_replicate, rfl⟩
  refine ⟨_, [], _, parse_encode _ (ours_well_formed ours), ?_, ?_⟩
  · cases config with
    | client => exact (by decide : strictServer ∈ kexAlgorithms ++ [extInfoServer, strictServer])
    | server => exact (by decide : strictClient ∈ kexAlgorithms ++ [extInfoClient, strictClient])
  · rw [if_neg fun wrong => absurd wrong.1 Bool.false_ne_true]
    rfl

/-- What a waiting constructor has read goes on to a whole sequence. -/
theorem consumed_extends {phase : Phase prim} {opened} (consumed : phase.Consumed config opened)
    (alive : ∀ reason, phase ≠ .failed reason) : ∃ sequence, Strict config sequence ∧ opened <+: sequence := by
  obtain ⟨answer, answers⟩ := answers_exist config.side
  have fromStart (nothing : opened = []) : ∃ sequence, Strict config sequence ∧ opened <+: sequence := by
    obtain ⟨theirsBytes, guess, opens⟩ := opens_exist config
    exact ⟨_, ⟨theirsBytes, guess, answer, opens, answers, rfl⟩, by rw [nothing]; exact List.nil_prefix⟩
  have fromOpening (theirsBytes : Bytes) (guess : List Bytes) (opens : Opens config theirsBytes guess)
      (first : opened <+: theirsBytes :: guess) : ∃ sequence, Strict config sequence ∧ opened <+: sequence :=
    ⟨_, ⟨theirsBytes, guess, answer, opens, answers, rfl⟩, first.trans (List.prefix_append _ _)⟩
  cases phase with
  | created | idents => exact fromStart consumed
  | firstKexInit ours => exact fromStart consumed.1
  | guess kex resume =>
    obtain ⟨_, rfl, opens⟩ := consumed
    exact fromOpening _ _ (opens []) (List.prefix_append _ _)
  | ecdhReply kex first eph resume | ecdhInit kex first resume =>
    obtain ⟨_, _, guess, rfl, opens⟩ := consumed
    exact fromOpening _ _ opens (List.prefix_refl _)
  | newKeys exchange resume =>
    obtain ⟨_, theirsBytes, guess, answer, opens, answers, rfl⟩ := consumed
    refine ⟨_, ⟨theirsBytes, guess, answer, opens, answers, rfl⟩, [[Msg.newKeys]], ?_⟩
    rw [List.append_assoc]
    rfl
  | idle => exact ⟨_, consumed, List.prefix_refl _⟩
  | failed reason => exact absurd rfl (alive reason)
  | peerKexInit | receiving | polling | finished => exact absurd consumed id

/-- Whatever is delivered to a fresh transport, its constructor fails unless it has
read a first part of a strict sequence; when it returns it has read all of one,
counts from zero and holds nothing back. -/
theorem strict_handshake (config : Config prim) (instant : Nat) (past : List (Env prim × Input))
    (constructing : ∀ event ∈ past, event.2.constructing = true) :
    let transport := Endpoint.after config instant past
    (∃ reason, transport.phase = .failed reason) ∨
      ∃ sequence, Strict config sequence ∧ (ledger transport.trace).opened <+: sequence ∧
        (transport.phase = .idle → (ledger transport.trace).opened = sequence ∧ transport.t.rxSeq = 0 ∧
          transport.t.queued = []) := by
  intro transport
  have handshaking := after_handshaking config instant past constructing fun _ => 0
  by_cases failed : ∃ reason, transport.phase = .failed reason
  · exact .inl failed
  right
  by_cases idle : transport.phase = .idle
  · have consumed := handshaking.consumed
    have restarted := handshaking.restarted
    simp only [transport] at idle
    rw [idle] at consumed restarted
    exact ⟨_, consumed, List.prefix_refl _, fun _ => ⟨rfl, restarted rfl, handshaking.empty⟩⟩
  · obtain ⟨sequence, strict, first⟩ :=
      consumed_extends handshaking.consumed fun reason same => failed ⟨reason, same⟩
    exact ⟨sequence, strict, first, fun returned => absurd returned idle⟩

theorem idle_of_installed {phase : Phase prim} (installed : (Point.waiting phase).keysInstalled = true) :
    phase = .idle := by
  cases phase with
  | idle => rfl
  | _ => cases installed

/-- A client's handshake, up to the server's NEWKEYS. -/
def Sample.handshake : List (Env .transparent × Input) := Sample.session.take 9

/-- The inputs of a handshake are met, and it returns. -/
theorem strict_handshake_session :
    ∃ sequence, Strict (.client [] "host" : Config .transparent) sequence ∧
      (ledger (Endpoint.after (.client [] "host") 0 Sample.handshake).trace).opened = sequence := by
  have returned : (Endpoint.after (.client [] "host") 0 Sample.handshake).phase = .idle :=
    idle_of_installed (by decide +kernel)
  rcases strict_handshake (.client [] "host") 0 Sample.handshake (by decide) with
    ⟨reason, failed⟩ | ⟨sequence, strict, _, whole⟩
  · cases returned.symm.trans failed
  · exact ⟨sequence, strict, (whole returned).1⟩

end Sequences

end Shh.Transport
