import Shh.KeyAgreement
import Shh.StrictKex

/-!
# How far the receive number counts

Each opened packet advances the receive number, and only new receiving keys start it again.
The threshold for a rekey is looked at between packets by `recv` and by the multiplexer. While
a rekey of our own waits for the peer's KEXINIT nobody looks: what the application is to get
is held back in a bounded queue, but chatter is read and dropped for as long as it comes.

Without such chatter the number stays near the threshold, so under one cipher no two packets
are opened with the same number. With it the number wraps, and old packets are opened again.
-/

namespace Shh.Transport

open List Wire Computations Runs

variable {prim : Primitives}

/-- The packet that a waiting call finds at the head of what arrived. -/
def Endpoint.found (endpoint : Endpoint prim) : Option Bytes :=
  match readPacket prim endpoint.t.rx endpoint.t.rxSeq endpoint.input with
  | .packet payload _ _ => some payload
  | _ => none

/-- Waiting for the peer's KEXINIT in a rekey of our own. -/
def Phase.proposed : Phase prim → Bool
  | .peerKexInit _ _ => true
  | _ => false

/-- A step in which no chatter is read while our own rekey waits for the peer's KEXINIT, and in
which the multiplexer, which looks at the threshold at the head of its loop, starts to wait only
below it. -/
structure Calm (endpoint : Endpoint prim) (input : Input) : Prop where
  chatter : input = .wake → endpoint.phase.proposed = true → ∀ payload ∈ endpoint.found, isChatter payload = false
  poll : input = .call .poll → endpoint.t.rxSeq < rekeyPackets

instance (endpoint : Endpoint prim) (input : Input) : Decidable (Calm endpoint input) :=
  decidable_of_iff
    ((input = .wake → endpoint.phase.proposed = true → ∀ payload ∈ endpoint.found, isChatter payload = false) ∧
      (input = .call .poll → endpoint.t.rxSeq < rekeyPackets))
    ⟨fun both => ⟨both.1, both.2⟩, fun calm => ⟨calm.chatter, calm.poll⟩⟩

/-- No two packets opened under one receiving cipher had the same number. -/
def NoReplay (trace : List (Effect prim)) : Prop :=
  ∀ before first between second rest,
    trace = before ++ .opened first :: (between ++ .opened second :: rest) →
    (∀ cipher, .rxInstalled cipher ∉ between) →
    (rxKey before).2 ≠ (rxKey (before ++ .opened first :: between)).2

section Moves

variable {held : Nat}

/-- The most a receive number counts to. -/
def topReach : Nat := rekeyPackets + maxRekeyQueue + 4

/-- How far the receive number can be at each waiting point, given how much is held back. -/
def reach (held : Nat) : Phase prim → Nat
  | .created | .idents _ _ | .firstKexInit _ => 0
  | .receiving | .polling => rekeyPackets - 1
  | .idle | .finished => rekeyPackets
  | .peerKexInit _ _ => rekeyPackets + held
  | .guess _ _ => rekeyPackets + maxRekeyQueue + 1
  | .ecdhReply _ _ _ _ | .ecdhInit _ _ _ => rekeyPackets + maxRekeyQueue + 2
  | .newKeys _ _ => rekeyPackets + maxRekeyQueue + 3
  | .failed _ => topReach

/-- The same between waiting points. A packet in hand has been counted. -/
def Point.reach (held : Nat) : Point prim → Nat
  | .waiting phase | .closing phase _ _ => Transport.reach held phase
  | .taken phase _ => min (Transport.reach held phase + 1) topReach
  | .line _ _ _ | .identified | .ended _ _ | .informed _ _ | .resumed _ => 0
  | .called .poll => rekeyPackets - 1
  | .called _ | .sending _ | .loop => rekeyPackets
  | .agreed _ _ _ => rekeyPackets + maxRekeyQueue + 1
  | .begun _ _ => rekeyPackets + maxRekeyQueue + 2
  | .trusted _ _ _ _ _ _ _ _ | .established _ _ | .keyed _ _ | .announced _ _ => rekeyPackets + maxRekeyQueue + 3

/-- No chatter is in hand during a wait for the peer's KEXINIT. -/
def Point.Calm : Point prim → Prop
  | .taken (.peerKexInit _ _) packet => isChatter packet = false
  | _ => True

/-- The receive number is within reach. -/
structure Counted (point : Point prim) (t : Fields prim) : Prop where
  held : t.queued.length ≤ maxRekeyQueue
  within : t.rxSeq ≤ point.reach t.queued.length
  calm : point.Calm

variable {env : Env prim} {point next : Point prim} {world after : World prim} {payload : Bytes}
  {t changed : Fields prim}

theorem reach_le (few : held ≤ maxRekeyQueue) (phase : Phase prim) : reach held phase ≤ topReach := by
  cases phase <;> simp only [reach, topReach] <;> omega

theorem point_reach_le (few : held ≤ maxRekeyQueue) (point : Point prim) : point.reach held ≤ topReach := by
  cases point with
  | waiting phase | closing phase => exact reach_le few phase
  | taken phase => exact Nat.min_le_right _ _
  | called call => cases call <;> simp only [Point.reach, topReach] <;> omega
  | _ => simp only [Point.reach, topReach]; omega

theorem awaits_reach (few : held ≤ maxRekeyQueue) {phase : Phase prim} (awaits : phase.awaitsPacket = true) :
    reach held phase + 1 ≤ topReach := by
  cases phase with
  | failed reason => cases awaits
  | _ => simp only [reach, topReach]; omega

theorem Counted.fails (counted : Counted point t) (reason : Error) : Counted (.waiting (.failed reason)) t :=
  ⟨counted.held, Nat.le_trans counted.within (point_reach_le counted.held point), trivial⟩

/-- Going on without a packet, to where the number may be as large. -/
theorem Counted.goOn (counted : Counted point t) (queued : changed.queued = t.queued) (rxSeq : changed.rxSeq = t.rxSeq)
    (further : point.reach t.queued.length ≤ next.reach t.queued.length) (calm : next.Calm) : Counted next changed := by
  refine ⟨queued ▸ counted.held, ?_, calm⟩
  rw [rxSeq, queued]
  exact Nat.le_trans counted.within further

theorem sends_reach (few : held ≤ maxRekeyQueue) (sends : Sends env point world payload next) :
    point.reach held ≤ next.reach held := by
  cases sends with
  | kexInit proposes size =>
    cases proposes with
    | respond waits peers => cases waits <;> simp only [Point.reach, reach, topReach] <;> omega
    | _ => simp only [Point.reach, reach]; omega
  | _ => simp only [Point.reach, reach]; omega

theorem sends_calm (sends : Sends env point world payload next) : next.Calm := by
  cases sends with
  | kexInit proposes size => cases proposes <;> trivial
  | _ => trivial

/-- The receive loop waits only below the threshold, and a packet is held back only where there
is room for it. Chatter during a wait for the peer's KEXINIT is the one case that would count on
without end. -/
theorem counted_goes (goes : Goes env point world next after) (counted : Counted point world.t) :
    Counted next after.t := by
  have large : 1 ≤ rekeyPackets := by decide
  cases goes with
  | skipped chatter => cases counted.calm.symm.trans chatter
  | held passes fits =>
    obtain ⟨held, within, -⟩ := counted
    refine ⟨?_, ?_, trivial⟩
    · simp only [World.changed, length_append, length_singleton]
      omega
    · simp only [World.changed, length_append, length_singleton, Point.reach, reach] at within ⊢
      omega
  | ended => exact ⟨counted.held, Nat.zero_le _, trivial⟩
  | @drained _ packet rest _ looks queued =>
    have held := counted.held
    rw [queued, length_cons] at held
    refine ⟨Nat.le_of_succ_le held, ?_, trivial⟩
    have within := counted.within
    rcases looks with rfl | rfl <;> exact within
  | noted found queued info =>
    have held := counted.held
    rw [queued, length_cons] at held
    exact ⟨Nat.le_of_succ_le held, counted.within, trivial⟩
  | waits empty notDue =>
    simp only [Fields.shouldRekey, Bool.or_eq_false_iff, decide_eq_false_iff_not] at notDue
    refine ⟨counted.held, ?_, trivial⟩
    simp only [Point.reach, reach]
    omega
  | chatter waits | extInfo waits | returned waits =>
    cases waits <;> refine counted.goOn rfl rfl ?_ trivial <;> simp only [Point.reach, reach] <;> omega
  | nothing looks =>
    rcases looks with rfl | rfl <;> refine counted.goOn rfl rfl ?_ trivial <;> simp only [Point.reach, reach] <;> omega
  | agreed peers =>
    have held := counted.held
    refine counted.goOn rfl rfl ?_ trivial
    simp only [Point.reach, reach]
    omega
  | _ =>
    refine counted.goOn rfl rfl ?_ trivial
    simp only [Point.reach, reach, topReach]
    omega

theorem counted_moves (moves : Moves env (point, world) (next, after)) (counted : Counted point world.t) :
    Counted next after.t := by
  have sent (through : Bytes → Bytes) {payload : Bytes} {reached : Point prim}
      (sends : Sends env point world payload reached) : Counted reached (world.sent payload through).t :=
    counted.goOn rfl rfl (sends_reach counted.held sends) (sends_calm sends)
  cases moves with
  | sent sends whole => exact sent id sends
  | cut sends fault => exact (sent _ sends).fails _
  | went goes => exact counted_goes goes counted
  | drew random => exact counted
  | failed => exact counted.fails _

/-- A packet advances the number by one: it is far from wrapping. -/
theorem counted_enters {endpoint : Endpoint prim} {input rest} (calm : Calm endpoint input)
    (counted : Counted (.waiting endpoint.phase) endpoint.t) (enters : Enters env endpoint input rest point world) :
    Counted point world.t := by
  have large : 1 ≤ rekeyPackets := by decide
  cases enters with
  | greeted created whole =>
    rw [created] at counted
    exact counted.goOn rfl rfl (Nat.le_refl _) trivial
  | greetingCut created fault =>
    exact counted.fails _
  | arrived | stays => exact counted
  | lineRead waiting read =>
    rw [waiting] at counted
    exact counted.goOn rfl rfl (Nat.le_refl _) trivial
  | @packetRead payload size rest waiting read =>
    refine ⟨counted.held, ?_, ?_⟩
    · have advanced : (endpoint.t.rxSeq + 1) % 2 ^ 32 ≤ endpoint.t.rxSeq + 1 := Nat.mod_le _ _
      have within : endpoint.t.rxSeq ≤ reach endpoint.t.queued.length endpoint.phase := counted.within
      have below := awaits_reach counted.held waiting
      simp only [World.noted, World.changed, Fields.counting, Endpoint.world, Point.reach]
      omega
    · have found : endpoint.found = some payload := by rw [Endpoint.found, read]
      cases phase : endpoint.phase with
      | peerKexInit ours resume =>
        refine calm.chatter rfl ?_ payload found
        rw [phase]
        rfl
      | _ => trivial
  | cancelled waiting =>
    rw [waiting] at counted
    refine counted.goOn rfl rfl ?_ trivial
    simp only [Point.reach, reach]
    omega
  | @called call idle =>
    rw [idle] at counted
    cases call with
    | poll => exact ⟨counted.held, Nat.le_sub_one_of_lt (calm.poll rfl), trivial⟩
    | _ => exact counted.goOn rfl rfl (Nat.le_refl _) trivial
  | closing able => exact counted.goOn rfl rfl (Nat.le_refl _) trivial

end Moves

section Runs

variable {env : Env prim} {point next : Point prim} {world after : World prim} {trace : List (Effect prim)}

/-- A packet is opened with a number below the top. -/
def Effect.Unwrapped (before : List (Effect prim)) : Effect prim → Prop
  | .opened _ => (rxKey before).2 < topReach
  | _ => True

/-- Packets are opened only as a step begins. -/
theorem unwrapped_moves (moves : Moves env (point, world) (next, after))
    (unwrapped : Licensed Effect.Unwrapped world.trace) :
    Licensed Effect.Unwrapped after.trace := by
  cases moves with
  | sent | cut => exact licensed_snoc unwrapped trivial
  | went goes =>
    cases goes with
    | asked | refused | keyed | installed | ended | completed | drained | returned | submitted =>
      exact licensed_snoc unwrapped trivial
    | _ => exact unwrapped
  | drew | failed => exact unwrapped

theorem unwrapped_enters {endpoint : Endpoint prim} {input rest}
    (counted : Counted (.waiting endpoint.phase) endpoint.t)
    (numbered : Numbered (.waiting endpoint.phase) endpoint.t endpoint.trace)
    (unwrapped : Licensed Effect.Unwrapped endpoint.trace) (enters : Enters env endpoint input rest point world) :
    Licensed Effect.Unwrapped world.trace := by
  cases enters with
  | packetRead waiting read =>
    refine licensed_snoc unwrapped ?_
    have number : endpoint.t.rxSeq = (rxKey endpoint.trace).2 := congrArg Prod.snd numbered.rx
    have within : endpoint.t.rxSeq ≤ reach endpoint.t.queued.length endpoint.phase := counted.within
    have below := awaits_reach counted.held waiting
    show (rxKey endpoint.trace).2 < topReach
    omega
  | _ => exact unwrapped

theorem rx_key_counts {payload} (small : (rxKey trace).2 < topReach) :
    (rxKey (trace ++ [.opened payload])).2 = (rxKey trace).2 + 1 := by
  have top : topReach < 2 ^ 32 := by decide
  rw [rx_key_opened]
  exact Nat.mod_eq_of_lt (by omega)

/-- Until new keys are installed the number only grows. -/
theorem rx_key_grows {before between : List (Effect prim)} (unwrapped : Licensed Effect.Unwrapped (before ++ between))
    (kept : ∀ cipher, .rxInstalled cipher ∉ between) : (rxKey before).2 ≤ (rxKey (before ++ between)).2 := by
  induction between using List.reverseRecOn with
  | nil =>
    rw [append_nil]
  | append_singleton between effect ih =>
    rw [← append_assoc] at unwrapped ⊢
    have grown := ih unwrapped.earlier
      (fun cipher member => kept cipher (mem_append_left _ member))
    cases effect with
    | opened payload =>
      rw [rx_key_counts (unwrapped _ _ [] rfl)]
      exact Nat.le_succ_of_le grown
    | rxInstalled cipher => exact absurd (mem_append_right _ mem_cons_self) (kept cipher)
    | _ => rwa [rx_key_unread (by trivial)]

/-- So two packets opened in between have different numbers. -/
theorem unwrapped_no_replay (unwrapped : Licensed Effect.Unwrapped trace) : NoReplay trace := by
  intro before first between second rest split kept same
  have counts := @rx_key_counts _ before first (unwrapped before (.opened first) _ split)
  have reordered : before ++ .opened first :: between = before ++ [.opened first] ++ between := by simp
  have onward : Licensed Effect.Unwrapped (before ++ [.opened first] ++ between) := by
    rw [← reordered]
    refine @Licensed.earlier _ _ _ (.opened second :: rest) ?_
    rwa [append_assoc, cons_append, ← split]
  have grown := rx_key_grows onward kept
  rw [reordered] at same
  omega

/-- **The receive number never wraps under one key**, in every run without chatter during a wait
for the peer's KEXINIT. It is the number of packets opened since the keys were installed, stays
far below its last value, and no two packets are opened with the same one. -/
theorem receive_number_unwrapped (config : Config prim) (instant : Nat) (past : List (Env prim × Input))
    (calm : Licensed (fun earlier event => Calm (Endpoint.after config instant earlier) event.2) past) :
    let endpoint := Endpoint.after config instant past
    endpoint.t.rxSeq < 2 ^ 32 - 1 ∧ (endpoint.t.rx, endpoint.t.rxSeq) = rxKey endpoint.trace ∧
      (∀ before payload rest, endpoint.trace = before ++ .opened payload :: rest →
        (rxKey (before ++ [.opened payload])).2 = (rxKey before).2 + 1) ∧
      NoReplay endpoint.trace := by
  intro endpoint
  have invariant := after_invariant_when config instant Calm
    (fun point world => Counted point world.t ∧ Numbered point world.t world.trace ∧
    Licensed Effect.Unwrapped world.trace)
    (fun _ => ⟨⟨Nat.zero_le _, Nat.zero_le _, trivial⟩, ⟨rfl, rfl, licensed_nil _, trivial⟩, licensed_nil _⟩)
    (fun env endpoint input rest point world met held enters =>
      ⟨counted_enters met (held env.random).1 enters, numbered_enters (held env.random).2.1 enters,
        unwrapped_enters (held env.random).1 (held env.random).2.1 (held env.random).2.2 enters⟩)
    (fun env point world next after moves held =>
      ⟨counted_moves moves held.1, numbered_moves moves held.2.1, unwrapped_moves moves held.2.2⟩)
    past calm
  obtain ⟨counted, numbered, unwrapped⟩ := invariant fun _ => 0
  refine ⟨?_, numbered.rx, ?_, unwrapped_no_replay unwrapped⟩
  · have within : endpoint.t.rxSeq ≤ topReach := Nat.le_trans counted.within (reach_le counted.held _)
    have top : topReach < 2 ^ 32 - 1 := by decide
    omega
  · intro before payload rest split
    exact rx_key_counts (unwrapped before (.opened payload) rest split)

/-- A handshake meets the condition. -/
theorem receive_number_unwrapped_handshake :
    NoReplay (Endpoint.after (.client [] "host") 0 Sample.handshake).trace :=
  (receive_number_unwrapped (.client [] "host") 0 Sample.handshake (by decide +kernel)).2.2.2

end Runs

section Flood

theorem chatter_kind {payload} (chatter : isChatter payload = true) :
    payload ≠ [] ∧ kind payload ≠ Msg.kexInit ∧ kind payload ≠ Msg.extInfo := by
  simp only [isChatter, Bool.or_eq_true, decide_eq_true_eq] at chatter
  refine ⟨?_, ?_, ?_⟩
  · rintro rfl
    revert chatter
    decide
  all_goals
    intro same
    rw [same] at chatter
    revert chatter
    decide

/-- Chatter during a wait for the peer's KEXINIT is counted and changes nothing else. -/
theorem wake_chatter {endpoint : Endpoint prim} {env : Env prim} {ours resume} {payload pad : Bytes}
    (waits : endpoint.phase = .peerKexInit ours resume) (empty : endpoint.input = [])
    (chatter : isChatter payload = true)
    (padded : pad.length = endpoint.t.rx.padFor payload.length) (small : 1 + payload.length + pad.length ≤ maxPacket) :
    let wire := endpoint.t.rx.sealPacket prim endpoint.t.rxSeq payload pad
    (endpoint.step env (.arrive wire)).step env .wake =
      { endpoint with t := endpoint.t.counting wire.length, trace := endpoint.trace ++ [.opened payload] } := by
  obtain ⟨t, phase, input, out, trace⟩ := endpoint
  dsimp only at waits empty padded ⊢
  subst waits empty
  generalize sealing : t.rx.sealPacket prim t.rxSeq payload pad = wire
  have limited : maxPacket < 2 ^ 32 := by decide
  have read := @read_sealed prim t.rx t.rxSeq payload pad [] padded (by omega)
  rw [append_nil, if_pos small, sealing] at read
  obtain ⟨nonempty, notKexInit, -⟩ := chatter_kind chatter
  simp only [Endpoint.step, Endpoint.wake, Phase.awaitsPacket, nil_append, read, if_true]
  have taken (world : World prim) :
    onPeerKexInit env ours resume payload world = .ok (.peerKexInit ours resume) world := by
    simp only [onPeerKexInit, if_neg notKexInit, chatter, if_true]
    rfl
  have received (world : World prim) : receive env (.peerKexInit ours resume) payload wire.length world =
      .ok (.peerKexInit ours resume) ((world.changed (Fields.counting wire.length)).noted (.opened payload)) := by
    rw [← taken]
    show (if payload = [] then throw _ else onPacket env _ payload) _ = _
    rw [if_neg nonempty]
    rfl
  rw [Endpoint.run, received]
  rfl

namespace Sample

/-- After its handshake a client starts a rekey. -/
def rekeying : List (Env .transparent × Input) := handshake ++ [(env, .call .rekey)]

def rekeyed : Endpoint .transparent := Endpoint.after (.client [] "host") 0 rekeying

def ignoredPad : Bytes := List.replicate (rekeyed.t.rx.padFor 1) 0

/-- The server's IGNORE with a number. -/
def ignored (seq : Nat) : Bytes := rekeyed.t.rx.sealPacket .transparent seq [Msg.ignore] ignoredPad

/-- The server sends IGNOREs in place of its KEXINIT, and begins again with the first when it
runs out of numbers. -/
def flood (count : Nat) : List (Env .transparent × Input) :=
  rekeying ++ (List.range count).flatMap fun seq => [(env, .arrive (ignored (seq % 2 ^ 32))), (env, .wake)]

/-- A client under the flood still waits, with the same cipher. -/
structure Flooded (count : Nat) (endpoint : Endpoint .transparent) : Prop where
  waits : endpoint.phase.proposed = true
  input : endpoint.input = []
  rx : endpoint.t.rx = rekeyed.t.rx
  rxSeq : endpoint.t.rxSeq = count % 2 ^ 32
  trace : endpoint.trace = rekeyed.trace ++ List.replicate count (.opened [Msg.ignore])

theorem flooded (count : Nat) : Flooded count (Endpoint.after (.client [] "host") 0 (flood count)) := by
  induction count with
  | zero =>
    have start : Endpoint.after (.client [] "host") 0 (flood 0) = rekeyed :=
      congrArg (Endpoint.after (.client [] "host") 0) (append_nil _)
    rw [start]
    exact ⟨by decide +kernel, by decide +kernel, rfl, by decide +kernel, (append_nil _).symm⟩
  | succ count ih =>
    have longer : flood (count + 1) =
        flood count ++ [(env, .arrive (ignored (count % 2 ^ 32)))] ++ [(env, .wake)] := by
      simp [flood, range_succ]
    obtain ⟨waits, input, rx, rxSeq, trace⟩ := ih
    rw [longer, Endpoint.after_snoc, Endpoint.after_snoc]
    generalize Endpoint.after (.client [] "host") 0 (flood count) = endpoint at waits input rx rxSeq trace ⊢
    cases phase : endpoint.phase with
    | peerKexInit ours resume =>
      have padded : ignoredPad.length = endpoint.t.rx.padFor [Msg.ignore].length := by
        rw [rx, ignoredPad, length_replicate, length_singleton]
      have woken := @wake_chatter .transparent endpoint env ours resume [Msg.ignore] ignoredPad phase input (by decide) padded
        (by decide +kernel)
      rw [rx, rxSeq] at woken
      refine (congrArg (Flooded (count + 1)) woken).mpr ⟨?_, input, ?_, ?_, ?_⟩
      · exact waits
      · have kept : rekeyed.t.rx.advance = rekeyed.t.rx := by decide +kernel
        simp only [Fields.counting, rx, kept]
      · simp only [Fields.counting, rxSeq, Nat.mod_add_mod]
      · rw [trace, replicate_succ', append_assoc]
    | _ =>
      rw [phase] at waits
      cases waits

theorem flood_number (count : Nat) :
    (rxKey (rekeyed.trace ++ List.replicate count (.opened [Msg.ignore]))).2 = count % 2 ^ 32 := by
  have numbered := after_numbered (.client [] "host") 0 (flood count)
  rw [← (flooded count).trace, ← numbered.rx]
  exact (flooded count).rxSeq

/-- A flood of as many packets as there are numbers, and one more. -/
theorem flood_replays {size : Nat} (turn : (size + 1) % 2 ^ 32 = 0) :
    ¬ NoReplay (Endpoint.after (.client [] "host") 0 (flood (size + 2))).trace := by
  intro noReplay
  have first := flood_number 0
  have again := flood_number (size + 1)
  rw [replicate_zero, append_nil] at first
  rw [turn, replicate_succ] at again
  refine noReplay rekeyed.trace [Msg.ignore] (List.replicate size (.opened [Msg.ignore])) [Msg.ignore] [] ?_ ?_
    (first.trans again.symm)
  · rw [(flooded (size + 2)).trace, replicate_succ, replicate_succ']
  · intro cipher member
    cases eq_of_mem_replicate member

end Sample

/-- Waiting for the peer's KEXINIT, a client counts to the last number and then from the start
again under the same cipher: the first packet of the flood is opened a second time. -/
theorem flood_wraps :
    (Endpoint.after (.client [] "host") 0 (Sample.flood (2 ^ 32 - 1))).t.rxSeq = 2 ^ 32 - 1 ∧
      (Endpoint.after (.client [] "host") 0 (Sample.flood (2 ^ 32))).t.rxSeq = 0 ∧
      ¬ NoReplay (Endpoint.after (.client [] "host") 0 (Sample.flood (2 ^ 32 + 1))).trace := by
  refine ⟨?_, ?_, Sample.flood_replays (by norm_num)⟩
  all_goals exact (Sample.flooded _).rxSeq.trans (by norm_num)

end Flood

end Shh.Transport
