import Shh.Moves

/-!
# Sending sequence numbers and nonces

A transport counts the packets it seals under one cipher, and the count is the
sequence number of the next one. The count is reset only together with the
cipher, and a rekey is forced long before it could wrap; the packets of the key
exchange itself go out past that threshold, and so may a disconnect, so the
threshold is overrun by a few packets and no more.

The invariant says that the current cipher is the installed one advanced once
per packet, so the nonces used so far are a function of the count.
-/

namespace Shh.Transport

open List Wire Computations Runs

variable {prim : Primitives}

variable {bound : Nat} {t : Fields prim} {trace : List (Effect prim)}

/-- Sequence numbers and nonces used under the current sending cipher. -/
def epoch (trace : List (Effect prim)) : List (Nat × Option Bytes) :=
  trace.foldl (fun used effect =>
    match effect with
    | .sealed cipher seq _ _ => used ++ [(seq, cipher.nonce seq)]
    | .txInstalled _ => []
    | _ => used) []

/-- A nonce is used again only after another cipher was installed. -/
def NoReuse (trace : List (Effect prim)) : Prop :=
  ∀ before between after firstCipher firstSeq firstPayload firstPad secondCipher secondSeq secondPayload
    secondPad nonce,
    trace = before ++ .sealed firstCipher firstSeq firstPayload firstPad :: between ++
      .sealed secondCipher secondSeq secondPayload secondPad :: after →
    firstCipher.nonce firstSeq = some nonce → secondCipher.nonce secondSeq = some nonce →
    ∃ cipher, .txInstalled cipher ∈ between

/-- Effects that neither seal a packet nor install a sending cipher. -/
def Effect.Quiet : Effect prim → Prop
  | .sealed _ _ _ _ | .txInstalled _ => False
  | _ => True

theorem epoch_sealed (trace : List (Effect prim)) (cipher : Cipher) (seq : Nat) (payload pad : Bytes) :
    epoch (trace ++ [.sealed cipher seq payload pad]) = epoch trace ++ [(seq, cipher.nonce seq)] := by
  simp [epoch]

theorem epoch_installed (trace : List (Effect prim)) (cipher : Cipher) :
    epoch (trace ++ [.txInstalled cipher]) = [] := by
  simp [epoch]

theorem epoch_quiet (trace : List (Effect prim)) (effect : Effect prim) (quiet : effect.Quiet) :
    epoch (trace ++ [effect]) = epoch trace := by
  cases effect <;> simp_all [epoch, Effect.Quiet]

/-- What was sealed stays in the epoch until a cipher is installed. -/
theorem mem_epoch (before between : List (Effect prim)) (cipher : Cipher) (seq : Nat) (payload pad : Bytes)
    (kept : ∀ cipher, .txInstalled cipher ∉ between) :
    (seq, cipher.nonce seq) ∈ epoch (before ++ .sealed cipher seq payload pad :: between) := by
  induction between using List.reverseRecOn with
  | nil =>
    rw [epoch_sealed]
    exact mem_append_right _ (mem_singleton.mpr rfl)
  | append_singleton between effect ih =>
    have present := ih (fun cipher inside => kept cipher (mem_append_left _ inside))
    rw [← cons_append, ← append_assoc]
    cases effect with
    | txInstalled cipher => exact absurd (mem_append_right _ (mem_singleton.mpr rfl)) (kept cipher)
    | sealed otherCipher otherSeq otherPayload otherPad =>
      rw [epoch_sealed]
      exact mem_append_left _ present
    | _ =>
      rw [epoch_quiet]
      exacts [present, trivial]

theorem no_reuse_quiet (trace : List (Effect prim)) (effect : Effect prim)
    (unsealed : ∀ cipher seq payload pad, effect ≠ .sealed cipher seq payload pad) (fresh : NoReuse trace) :
    NoReuse (trace ++ [effect]) := by
  intro before between after firstCipher firstSeq firstPayload firstPad secondCipher secondSeq secondPayload
    secondPad nonce split first second
  rcases eq_nil_or_concat' after with rfl | ⟨front, last, rfl⟩
  · have ends := (append_inj' split rfl).2
    exact absurd (List.cons.inj ends).1 (unsealed _ _ _ _)
  · rw [← cons_append, ← append_assoc] at split
    exact fresh _ _ _ _ _ _ _ _ _ _ _ _ (append_inj' split rfl).1 first second

/-- Sealing with a nonce the current cipher has not used. -/
theorem no_reuse_sealed (trace : List (Effect prim)) (cipher : Cipher) (seq : Nat) (payload pad : Bytes)
    (unused : ∀ earlier nonce, cipher.nonce seq = some nonce → (earlier, some nonce) ∉ epoch trace)
    (fresh : NoReuse trace) : NoReuse (trace ++ [.sealed cipher seq payload pad]) := by
  intro before between after firstCipher firstSeq firstPayload firstPad secondCipher secondSeq secondPayload
    secondPad nonce split first second
  rcases eq_nil_or_concat' after with rfl | ⟨front, last, rfl⟩
  · -- The second packet is the new one, so the first is not of this epoch.
    obtain ⟨earlier, ends⟩ := append_inj' split rfl
    obtain ⟨sameCipher, sameSeq, _, _⟩ := Effect.sealed.inj (List.cons.inj ends).1
    by_contra none
    have used := mem_epoch before between firstCipher firstSeq firstPayload firstPad
      (fun cipher inside => none ⟨cipher, inside⟩)
    rw [← earlier, first] at used
    rw [← sameCipher, ← sameSeq] at second
    exact unused firstSeq nonce second used
  · rw [← cons_append, ← append_assoc] at split
    exact fresh _ _ _ _ _ _ _ _ _ _ _ _ (append_inj' split rfl).1 first second

/-- The sending half of a transport: the cipher is the installed one advanced
once per packet, with everything sealed so far accounted for, and at most `bound`
packets were sealed under it. -/
structure Sending (bound : Nat) (t : Fields prim) (trace : List (Effect prim)) : Prop where
  counted : ∃ start, t.tx = Cipher.advance^[t.txSeq] start ∧
    epoch trace = (List.range t.txSeq).map fun seq => (seq, (Cipher.advance^[seq] start).nonce seq)
  fresh : NoReuse trace
  numbered : ∀ cipher seq payload pad, .sealed cipher seq payload pad ∈ trace → seq < rekeyPackets + 4
  bounded : t.txSeq ≤ bound

theorem Sending.weaken {larger}
    (sending : Sending bound t trace) (le : bound ≤ larger) : Sending larger t trace :=
  { sending with bounded := Nat.le_trans sending.bounded le }

/-- Other fields do not matter. -/
theorem Sending.frame {after : Fields prim}
    (sending : Sending bound t trace) (tx : after.tx = t.tx) (txSeq : after.txSeq = t.txSeq) :
    Sending bound after trace := by
  obtain ⟨counted, fresh, numbered, bounded⟩ := sending
  rw [← tx, ← txSeq] at counted
  rw [← txSeq] at bounded
  exact ⟨counted, fresh, numbered, bounded⟩

theorem Sending.emit (sending : Sending bound t trace) (effect : Effect prim) (quiet : effect.Quiet) :
    Sending bound t (trace ++ [effect]) := by
  have unsealed : ∀ cipher seq payload pad, effect ≠ .sealed cipher seq payload pad := by
    intro cipher seq payload pad same
    rw [same] at quiet
    exact quiet
  refine ⟨?_, no_reuse_quiet _ _ unsealed sending.fresh, ?_, sending.bounded⟩
  · rw [epoch_quiet _ _ quiet]
    exact sending.counted
  · intro cipher seq payload pad present
    rcases mem_append.mp present with earlier | last
    · exact sending.numbered cipher seq payload pad earlier
    · exact absurd (mem_singleton.mp last).symm (unsealed cipher seq payload pad)

/-- A cipher that has sealed nothing yet. -/
theorem Sending.installed (cipher : Cipher) (sending : Sending bound t trace) :
    Sending 0 { t with tx := cipher, txSeq := 0 } (trace ++ [.txInstalled cipher]) := by
  refine ⟨⟨cipher, rfl, epoch_installed _ _⟩, no_reuse_quiet _ _ nofun sending.fresh, ?_, Nat.le_refl 0⟩
  intro sealedBy seq payload pad present
  rcases mem_append.mp present with earlier | last
  · exact sending.numbered sealedBy seq payload pad earlier
  · cases mem_singleton.mp last

/-- Sealing one packet while the count is small. -/
theorem Sending.sealed {world : World prim} (payload : Bytes) (through : Bytes → Bytes)
    (sending : Sending bound world.t world.trace) (small : bound < rekeyPackets + 4) :
    Sending (bound + 1) (world.sent payload through).t (world.sent payload through).trace := by
  obtain ⟨⟨start, tx, used⟩, fresh, numbered, bounded⟩ := sending
  have unwrapped : (world.t.txSeq + 1) % 2 ^ 32 = world.t.txSeq + 1 := by
    unfold rekeyPackets at small
    omega
  refine ⟨⟨start, ?_, ?_⟩, ?_, ?_, ?_⟩
  · simp only [World.sent, unwrapped, Function.iterate_succ_apply', tx]
  · simp only [World.sent, unwrapped, epoch_sealed, used, range_succ, map_append,
      map_cons, map_nil, tx]
  · refine no_reuse_sealed _ _ _ _ _ ?_ fresh
    intro earlier value now present
    rw [used, mem_map] at present
    obtain ⟨index, inside, same⟩ := present
    have before := mem_range.mp inside
    have width : world.t.txSeq < 256 ^ 8 := by
      unfold rekeyPackets at small
      omega
    rw [tx] at now
    exact nonces_distinct start index world.t.txSeq before width value (congrArg Prod.snd same) now
  · intro cipher seq earlierPayload pad present
    rcases mem_append.mp present with earlier | last
    · exact numbered cipher seq earlierPayload pad earlier
    · have number : seq = world.t.txSeq := (Effect.sealed.inj (mem_singleton.mp last)).2.1
      omega
  · simp only [World.sent, unwrapped]
    omega

section Moves

/-- How far the count can be at each waiting point, given how many disconnects
were sent. -/
def ceiling (closings : Nat) : Phase prim → Nat
  | .created | .idents _ _ | .newKeys _ _ => 0
  | .idle | .receiving | .polling | .finished => rekeyPackets + closings
  | .firstKexInit _ | .peerKexInit _ _ | .guess _ _ | .ecdhInit _ _ _ => rekeyPackets + closings + 1
  | .ecdhReply _ _ _ _ => rekeyPackets + closings + 2
  | .failed _ => rekeyPackets + closings + 3

/-- The same between waiting points. A disconnect is counted before it is sent. -/
def room (closings : Nat) : Point prim → Nat
  | .waiting phase | .taken phase _ => ceiling closings phase
  | .closing phase _ _ => ceiling closings phase - 1
  | .line _ _ _ | .identified | .ended _ _ => 0
  | .informed _ _ | .resumed _ => 1
  | .called _ | .sending _ | .loop => rekeyPackets + closings
  | .agreed _ _ _ | .begun _ _ => rekeyPackets + closings + 1
  | .trusted _ _ _ _ _ _ _ _ | .established _ _ | .keyed _ _ => rekeyPackets + closings + 2
  | .announced _ _ => rekeyPackets + closings + 3

variable {env : Env prim} {point next : Point prim} {world after : World prim} {closings : Nat}

theorem ceiling_le (phase : Phase prim) : ceiling closings phase ≤ rekeyPackets + closings + 3 := by
  cases phase <;> simp only [ceiling] <;> omega

theorem room_le (point : Point prim) : room closings point ≤ rekeyPackets + closings + 3 := by
  have large : 1 ≤ rekeyPackets := by decide
  cases point <;> simp only [room] <;> first | exact ceiling_le _ | omega | skip
  exact Nat.le_trans (Nat.sub_le _ _) (ceiling_le _)

/-- There is room for every packet the code sends. A plain `send` is made only
where no rekey is due, so below the threshold. -/
theorem sends_room {payload} (sends : Sends env point world payload next)
    (counted : world.t.txSeq ≤ room closings point) : world.t.txSeq + 1 ≤ room closings next := by
  have large : 2 ≤ rekeyPackets := by decide
  cases sends with
  | kexInit proposes size =>
    cases proposes with
    | respond waits peers =>
      cases waits <;> simp only [room, ceiling] at counted ⊢ <;> omega
    | _ => simp only [room, ceiling] at counted ⊢; omega
  | submitted notDue =>
    simp only [Fields.shouldRekey, Bool.or_eq_false_iff, decide_eq_false_iff_not] at notDue
    simp only [room, ceiling]
    omega
  | closing reason description able =>
    rcases able with idle | ⟨error, failed⟩ <;> subst_vars <;> simp only [room, ceiling] at counted ⊢ <;> omega
  | _ => simp only [room, ceiling] at counted ⊢; omega

section

variable (goes : Goes env point world next after)
  (other : ∀ exchange resume, point ≠ .announced exchange resume)

include goes other

theorem goes_room : room closings point ≤ room closings next := by
  cases goes with
  | installed => exact absurd rfl (other _ _)
  | chatter waits | extInfo waits | returned waits => cases waits <;> exact Nat.le_refl _
  | drained looks queued => rcases looks with rfl | rfl <;> exact Nat.le_refl _
  | resumed | receives =>
    have large : 1 ≤ rekeyPackets := by decide
    exact Nat.le_add_right_of_le large
  | _ => simp only [room, ceiling]; omega

/-- Without a packet, the sending half changes only when its cipher is replaced. -/
theorem goes_frame :
    after.t.tx = world.t.tx ∧ after.t.txSeq = world.t.txSeq ∧
      (after.trace = world.trace ∨ ∃ effect, effect.Quiet ∧ after.trace = world.trace ++ [effect]) := by
  cases goes with
  | installed => exact absurd rfl (other _ _)
  | asked | refused | keyed | ended | completed | drained | returned | submitted =>
    refine ⟨rfl, rfl, .inr ⟨_, ?_, rfl⟩⟩
    trivial
  | _ => exact ⟨rfl, rfl, .inl rfl⟩

end

theorem goes_sending (goes : Goes env point world next after)
    (sending : Sending (room closings point) world.t world.trace) :
    Sending (room closings next) after.t after.trace := by
  by_cases installs : ∃ exchange resume, point = .announced exchange resume
  · obtain ⟨exchange, resume, rfl⟩ := installs
    cases goes with
    | installed => exact Sending.installed _ sending
    | drained looks => exact absurd looks (by simp)
  · have other : ∀ exchange resume, point ≠ .announced exchange resume :=
      fun exchange resume same => installs ⟨exchange, resume, same⟩
    obtain ⟨tx, txSeq, trace⟩ := goes_frame goes other
    have framed := (sending.frame tx txSeq).weaken (goes_room goes other)
    rcases trace with same | ⟨effect, quiet, noted⟩
    · rw [same]
      exact framed
    · rw [noted]
      exact framed.emit effect quiet

/-- Every move keeps the count within its room. -/
theorem moves_sending (few : closings ≤ 1) (moves : Moves env (point, world) (next, after))
    (sending : Sending (room closings point) world.t world.trace) :
    Sending (room closings next) after.t after.trace := by
  have sealed : ∀ {reached payload} (through), Sends env point world payload reached →
      Sending (room closings reached) (world.sent payload through).t (world.sent payload through).trace := by
    intro reached payload through sends
    have fits := sends_room sends sending.bounded
    have top := @room_le _ closings reached
    have tight : Sending world.t.txSeq world.t world.trace := { sending with bounded := Nat.le_refl _ }
    exact (tight.sealed payload through (by omega)).weaken fits
  cases moves with
  | sent sends whole => exact sealed id sends
  | cut sends fault => exact (sealed _ sends).weaken (room_le _)
  | went goes => exact goes_sending goes sending
  | drew random => exact sending
  | failed reason able => exact sending.weaken (room_le _)

end Moves

section Runs

def Input.isDisconnect : Input → Bool
  | .disconnect _ _ => true
  | _ => false

/-- How many disconnects a history asks for. -/
def disconnects (past : List (Env prim × Input)) : Nat := past.countP fun event => event.2.isDisconnect

theorem disconnects_snoc (past : List (Env prim × Input)) (env : Env prim) (input : Input) :
    disconnects (past ++ [(env, input)]) = disconnects past + if input.isDisconnect then 1 else 0 := by
  simp [disconnects, countP_singleton]

theorem ceiling_mono {closings larger} (phase : Phase prim) (le : closings ≤ larger) :
    ceiling closings phase ≤ ceiling larger phase := by
  cases phase <;> simp only [ceiling] <;> omega

/-- The room a step begins with. -/
theorem enters_sending {env} {endpoint : Endpoint prim} {input : Input} {rest point}
    {world : World prim} {closings : Nat}
    (enters : Enters env endpoint input rest point world)
    (sending : Sending (ceiling closings endpoint.phase) endpoint.t endpoint.trace) :
    Sending (room (closings + if input.isDisconnect then 1 else 0) point) world.t world.trace := by
  cases enters with
  | greeted created whole =>
    rw [created] at sending
    exact sending.frame rfl rfl
  | greetingCut created fault =>
    rw [created] at sending
    exact (sending.frame rfl rfl).weaken (Nat.zero_le _)
  | arrived bytes => exact sending.frame rfl rfl
  | lineRead waiting read | cancelled waiting =>
    rw [waiting] at sending
    exact sending.frame rfl rfl
  | packetRead waiting read =>
    refine Sending.emit (sending.frame ?_ ?_) _ trivial
    · rfl
    · rfl
  | called idle =>
    rw [idle] at sending
    exact sending.frame rfl rfl
  | closing able =>
    refine (sending.frame rfl rfl).weaken ?_
    rcases able with idle | ⟨error, failed⟩
    · rw [idle]
      exact Nat.le_refl _
    · rw [failed]
      exact Nat.le_refl _
  | stays => exact (sending.frame rfl rfl).weaken (ceiling_mono _ (Nat.le_add_right _ _))

/-- The sending half along any run with few disconnects. -/
theorem sending_after (config : Config prim) (instant : Nat) (past : List (Env prim × Input))
    (few : disconnects past ≤ 1) :
    let endpoint := Endpoint.after config instant past
    Sending (ceiling (disconnects past) endpoint.phase) endpoint.t endpoint.trace := by
  refine after_invariant config instant (fun past point world => disconnects past ≤ 1 →
    Sending (room (disconnects past) point) world.t world.trace) ?_ ?_ ?_ past (fun _ => 0) few
  · intro random _
    refine ⟨⟨.plain, rfl, rfl⟩, ?_, nofun, Nat.zero_le _⟩
    intro before between after _ _ _ _ _ _ _ _ nonce split
    simp [Endpoint.create, Endpoint.world] at split
  · intro past env endpoint input rest point world ih enters few
    rw [disconnects_snoc] at few ⊢
    exact enters_sending enters (ih (fun _ => 0) (by omega))
  · intro past env input point world next after moves ih few
    exact moves_sending few moves (ih few)

/-- In every run with at most one disconnect, no cipher is used twice with one
nonce, and the count stays far from wrapping. -/
theorem send_nonces_unique (config : Config prim) (instant : Nat) (past : List (Env prim × Input))
    (few : disconnects past ≤ 1) :
    let endpoint := Endpoint.after config instant past
    NoReuse endpoint.trace ∧ endpoint.t.txSeq ≤ rekeyPackets + 4 ∧
      ∀ cipher seq payload pad, .sealed cipher seq payload pad ∈ endpoint.trace →
        seq + 1 ≤ rekeyPackets + 4 ∧ (seq + 1) % 2 ^ 32 = seq + 1 := by
  intro endpoint
  obtain ⟨_, fresh, numbered, bounded⟩ := sending_after config instant past few
  refine ⟨fresh, ?_, ?_⟩
  · have top := @ceiling_le _ (disconnects past) endpoint.phase
    have counted : endpoint.t.txSeq ≤ _ := Nat.le_trans bounded top
    omega
  · intro cipher seq payload pad present
    have small := numbered cipher seq payload pad present
    unfold rekeyPackets at small ⊢
    omega

/-- A session with a first exchange, two packets under gcm and a disconnect. -/
theorem send_nonces_unique_session :
    disconnects Sample.session ≤ 1 ∧ (epoch Sample.client.trace).length = 3 ∧ NoReuse Sample.client.trace :=
  ⟨by decide +kernel, by decide +kernel, (send_nonces_unique _ 0 Sample.session (by decide +kernel)).1⟩

end Runs

end Shh.Transport
