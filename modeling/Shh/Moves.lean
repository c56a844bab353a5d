import Shh.Transport

/-!
# What a transport step can do

A step of an endpoint runs a routine from one waiting point to the next. Here it
is cut into moves: at each `Point` between two packets the code either sends one
packet and goes on, or changes its fields and notes an effect. Every step is a
sequence of moves, so a property of all runs is proved move by move.

The moves keep the conditions under which the code makes them and forget its
control flow. They also forget the reason of a failure: failing is possible
almost everywhere.
-/

namespace Shh.Transport

open Wire Computations Runs

variable {prim : Primitives}

/-- Where the code is between two packets. -/
inductive Point (prim : Primitives) where
  | waiting (phase : Phase prim)
  /-- A line was read while waiting for the identification. -/
  | line (lines total : Nat) (text : String)
  | identified
  /-- A packet was opened at a waiting point. -/
  | taken (phase : Phase prim) (packet : Bytes)
  | called (call : Call)
  | sending (payload : Bytes)
  | closing (phase : Phase prim) (reason : Nat) (description : String)
  /-- The head of the receive loop. -/
  | loop
  /-- Both KEXINITs are known. -/
  | agreed (ours : KexInit) (theirsBytes : Bytes) (resume : Resume)
  | begun (kex : Kex) (resume : Resume)
  /-- Client: the reply's key passed the trust decision. -/
  | trusted (kex : Kex) (first : Bool) (eph : ClientKex) (resume : Resume) (kS qS signature : Bytes)
      (key : PublicKey prim)
  /-- The secret is known; then it is noted, then NEWKEYS is sent. -/
  | established (exchange : Exchange prim) (resume : Resume)
  | keyed (exchange : Exchange prim) (resume : Resume)
  | announced (exchange : Exchange prim) (resume : Resume)
  /-- The receiving keys are installed; then the extensions are announced. -/
  | ended (exchange : Exchange prim) (resume : Resume)
  | informed (exchange : Exchange prim) (resume : Resume)
  | resumed (resume : Resume)

/-- The two waits for an application packet: where each goes on after a packet
without effect, and how it goes on after a key exchange. -/
inductive Waits : Phase prim → Point prim → Resume → Prop where
  | receiving : Waits .receiving .loop .recv
  | polling : Waits .polling (.waiting .idle) .rekey

/-- Packets that an application gets to see. -/
def passes (packet : Bytes) : Prop :=
  isChatter packet = false ∧ kind packet ≠ Msg.disconnect ∧ kind packet ≠ Msg.kexInit ∧
    isKexMessage packet = false

/-- Where a KEXINIT of ours is sent, and what follows it. -/
inductive Proposes (env : Env prim) : Point prim → World prim → (KexInit → Point prim) → Prop where
  | first (world : World prim) :
      Proposes env .identified world (fun ours => .waiting (.firstKexInit ours))
  | respond {phase next resume world packet}
      (waits : Waits phase next resume) (peers : kind packet = Msg.kexInit) :
      Proposes env (.taken phase packet) world (fun ours => .agreed ours packet resume)
  | loop {world : World prim} (empty : world.t.queued = []) (due : world.t.shouldRekey env.instant = true) :
      Proposes env .loop world (fun ours => .waiting (.peerKexInit ours .recv))
  | sending {world : World prim} {payload} (due : world.t.shouldRekey env.instant = true) :
      Proposes env (.sending payload) world (fun ours => .waiting (.peerKexInit ours (.send payload)))
  | called (world : World prim) :
      Proposes env (.called .rekey) world (fun ours => .waiting (.peerKexInit ours .rekey))

/-- Where a packet is sent, which, and what follows it. -/
inductive Sends (env : Env prim) : Point prim → World prim → Bytes → Point prim → Prop where
  | kexInit {point} {world : World prim} {next : KexInit → Point prim} {cookie : Bytes}
      (proposes : Proposes env point world next) (size : cookie.length = 16) :
      Sends env point world (KexInit.ours world.t.side world.t.hostKeyAlgos cookie).encode
        (next (KexInit.ours world.t.side world.t.hostKeyAlgos cookie))
  | ecdhInit {world : World prim} {kex : Kex} {resume} {xSecret mlkemSeed : Bytes}
      (client : world.t.side = .client) (secretSize : xSecret.length = 32)
      (seedSize : mlkemSeed.length = mlkemSeedLen kex.neg.kex) :
      Sends env (.begun kex resume) world
        (ecdhInitPacket (ClientKex.publicKey prim ⟨kex.neg.kex, xSecret, mlkemSeed⟩))
        (.waiting (.ecdhReply kex world.t.sessionId.isEmpty ⟨kex.neg.kex, xSecret, mlkemSeed⟩ resume))
  | ecdhReply {world : World prim} {kex : Kex} {first resume}
    {packet qC qS k xSecret mlkemSeed : Bytes} (parsed : readEcdhInit packet = .ok qC)
      (secretSize : xSecret.length = 32) (seedSize : mlkemSeed.length = mlkemSeedLen kex.neg.kex)
      (answered : serverExchange prim kex.neg.kex xSecret mlkemSeed qC = .ok (qS, k)) :
      Sends env (.taken (.ecdhInit kex first resume) packet) world
        (ecdhReplyPacket (world.t.presented kex) qS (kex.asServer first world.t.vPeer
          (world.t.presented kex) qC qS k env.signer env.now : Exchange prim).signature)
        (.established (kex.asServer first world.t.vPeer (world.t.presented kex) qC qS k env.signer env.now)
          resume)
  | newKeys (world : World prim) (exchange : Exchange prim) (resume : Resume) :
      Sends env (.keyed exchange resume) world [Msg.newKeys] (.announced exchange resume)
  | extInfo {world : World prim} {exchange resume}
      (announced : announces world.t exchange = true) :
      Sends env (.ended exchange resume) world extInfoPacket (.informed exchange resume)
  | resumed (world : World prim) (payload : Bytes) :
      Sends env (.resumed (.send payload)) world payload (.waiting .idle)
  | submitted {world : World prim} {payload} (notDue : world.t.shouldRekey env.instant = false) :
      Sends env (.sending payload) world payload (.waiting .idle)
  | closing {world phase} (reason : Nat) (description : String)
      (able : phase = .idle ∨ ∃ error, phase = .failed error) :
      Sends env (.closing phase reason description) world (disconnectPacket reason description)
        (.waiting phase)

/-- Moves that send nothing. -/
inductive Goes (env : Env prim) : Point prim → World prim → Point prim → World prim → Prop where
  | identified {world : World prim} {lines total text}
      (spoken : startsWith text "SSH-2.0-" = true) :
      Goes env (.line lines total text) world .identified (world.changed fun t => { t with vPeer := text })
  | prefaced {world : World prim} {lines total : Nat} {text} (client : world.t.side ≠ .server)
      (unspoken : startsWith text "SSH-" = false) :
      Goes env (.line lines total text) world
        (.waiting (.idents (lines + 1) (total + (utf8Bytes text).length))) world
  | firstAgreed {world ours packet} (peers : kind packet = Msg.kexInit) :
      Goes env (.taken (.firstKexInit ours) packet) world (.agreed ours packet .handshake) world
  | agreed {world ours resume packet}
      (peers : kind packet = Msg.kexInit) :
      Goes env (.taken (.peerKexInit ours resume) packet) world (.agreed ours packet resume) world
  | skipped {world ours resume packet}
      (chatter : isChatter packet = true) :
      Goes env (.taken (.peerKexInit ours resume) packet) world (.waiting (.peerKexInit ours resume)) world
  | held {world : World prim} {ours resume packet} (passes : passes packet)
      (fits : world.t.queued.length < maxRekeyQueue) :
      Goes env (.taken (.peerKexInit ours resume) packet) world (.waiting (.peerKexInit ours resume))
        (world.changed fun t => { t with queued := t.queued ++ [packet] })
  | negotiated {world : World prim} {ours theirs theirsBytes resume} {neg : Negotiated}
    (parsed : KexInit.parse theirsBytes = .ok theirs)
      (chosen : negotiate world.t.side ours theirs = .ok neg) (kept : neg.discardGuess = false) :
      Goes env (.agreed ours theirsBytes resume) world (.begun ⟨ours, theirsBytes, neg⟩ resume) world
  | guessed {world : World prim} {ours theirs theirsBytes resume} {neg : Negotiated}
    (parsed : KexInit.parse theirsBytes = .ok theirs)
      (chosen : negotiate world.t.side ours theirs = .ok neg) (discarded : neg.discardGuess = true) :
      Goes env (.agreed ours theirsBytes resume) world (.waiting (.guess ⟨ours, theirsBytes, neg⟩ resume)) world
  | dropped (world : World prim) (kex : Kex) (resume : Resume) (packet : Bytes) :
      Goes env (.taken (.guess kex resume) packet) world (.begun kex resume) world
  | serves {world : World prim} {kex resume} (server : world.t.side = .server) :
      Goes env (.begun kex resume) world (.waiting (.ecdhInit kex world.t.sessionId.isEmpty resume)) world
  | certified {world : World prim} {kex : Kex} {first eph resume packet kS qS signature key}
      (parsed : readEcdhReply packet = .ok (kS, qS, signature))
      (certificate : kex.neg.hostKeyAlgo = certAlgo)
      (accepted : world.t.verifyHostCert env.now kS = .ok key) :
      Goes env (.taken (.ecdhReply kex first eph resume) packet) world
        (.trusted kex first eph resume kS qS signature key) world
  | asked {world : World prim} {kex eph resume packet kS qS signature key}
      (parsed : readEcdhReply packet = .ok (kS, qS, signature)) (bare : PublicKey.fromBlob kS = .ok key)
      (accepted : env.verifier key = .ok ()) :
      Goes env (.taken (.ecdhReply kex true eph resume) packet) world
        (.trusted kex true eph resume kS qS signature key) (world.noted (.asked key true))
  | refused {world : World prim} {kex eph resume packet}
      (key : PublicKey prim) (reason : Error) :
      Goes env (.taken (.ecdhReply kex true eph resume) packet) world (.waiting (.failed reason))
        (world.noted (.asked key false))
  | unasked {world kex eph resume packet kS qS signature key}
      (parsed : readEcdhReply packet = .ok (kS, qS, signature)) (bare : PublicKey.fromBlob kS = .ok key) :
      Goes env (.taken (.ecdhReply kex false eph resume) packet) world
        (.trusted kex false eph resume kS qS signature key) world
  | verified {world : World prim} {kex : Kex} {first} {eph : ClientKex} {resume kS qS signature k}
    {key : PublicKey prim}
      (continued : first = true ∨ world.t.peerHostKey = some key) (finished : eph.finish prim qS = .ok k)
      (signed : key.verify (kex.asClient first eph world.t.vPeer kS qS signature k key env.now).h signature
        = .ok ()) :
      Goes env (.trusted kex first eph resume kS qS signature key) world
        (.established (kex.asClient first eph world.t.vPeer kS qS signature k key env.now) resume)
        (world.changed (Fields.withHost
          (kex.asClient first eph world.t.vPeer kS qS signature k key env.now)))
  | keyed (world : World prim) (exchange : Exchange prim) (resume : Resume) :
      Goes env (.established exchange resume) world (.keyed exchange resume)
        ((world.noted (.keyed exchange)).changed (Fields.keyed exchange))
  | installed (world : World prim) (exchange : Exchange prim) (resume : Resume) :
      Goes env (.announced exchange resume) world (.waiting (.newKeys exchange resume))
        ((world.changed (Fields.withTx (exchange.txCipher world.t.side world.t.sessionId))).noted
          (.txInstalled (exchange.txCipher world.t.side world.t.sessionId)))
  | ended (world : World prim) (exchange : Exchange prim) (resume : Resume) :
      Goes env (.taken (.newKeys exchange resume) [Msg.newKeys]) world (.ended exchange resume)
        ((world.changed (Fields.withRx (exchange.rxCipher world.t.side world.t.sessionId)
            env.instant)).noted
          (.rxInstalled (exchange.rxCipher world.t.side world.t.sessionId)))
  | silent {world : World prim} {exchange resume}
      (unannounced : announces world.t exchange = false) :
      Goes env (.ended exchange resume) world (.informed exchange resume) world
  | completed (world : World prim) (exchange : Exchange prim) (resume : Resume) :
      Goes env (.informed exchange resume) world (.resumed resume) (world.noted (.completed exchange))
  | resumed {world resume} (finished : resume = .handshake ∨ resume = .rekey) :
      Goes env (.resumed resume) world (.waiting .idle) world
  | receives (world : World prim) : Goes env (.resumed .recv) world .loop world
  | drained {world : World prim} {packet rest point}
      (looks : point = .loop ∨ point = .called .drain) (queued : world.t.queued = packet :: rest) :
      Goes env point world (.waiting .idle)
        ((world.changed fun t => { t with queued := rest }).noted (.returned packet))
  /-- The multiplexer reads an EXT_INFO that was held back. -/
  | noted {world : World prim} {packet rest} (found : Option (List String))
      (queued : world.t.queued = packet :: rest) (info : kind packet = Msg.extInfo) :
      Goes env (.called .drain) world (.called .drain)
        (world.changed fun t => { t with queued := rest, serverSigAlgs := found })
  | waits {world : World prim} (empty : world.t.queued = [])
      (notDue : world.t.shouldRekey env.instant = false) :
      Goes env .loop world (.waiting .receiving) world
  | chatter {world phase next resume packet}
      (waits : Waits phase next resume) (chatter : isChatter packet = true) :
      Goes env (.taken phase packet) world next world
  | extInfo {world : World prim} {phase next resume packet}
      (waits : Waits phase next resume) (info : kind packet = Msg.extInfo) (found : Option (List String))
      (read : readExtInfo world.t.serverSigAlgs packet = .ok found) :
      Goes env (.taken phase packet) world next (world.changed fun t => { t with serverSigAlgs := found })
  | finished {world packet} (bye : kind packet = Msg.disconnect) :
      Goes env (.taken .polling packet) world (.waiting .finished) world
  | returned {world : World prim} {phase next resume packet}
      (waits : Waits phase next resume) (passes : passes packet) (uninformed : kind packet ≠ Msg.extInfo) :
      Goes env (.taken phase packet) world (.waiting .idle) (world.noted (.returned packet))
  | submitted (world : World prim) (payload : Bytes) :
      Goes env (.called (.send payload)) world (.sending payload) (world.noted (.submitted payload))
  | recv (world : World prim) : Goes env (.called .recv) world .loop world
  | poll {world : World prim} (empty : world.t.queued = []) :
      Goes env (.called .poll) world (.waiting .polling) world
  | nothing {world call} (looks : call = .poll ∨ call = .drain) :
      Goes env (.called call) world (.waiting .idle) world
  | tightened (world : World prim) (bytes interval : Nat) :
      Goes env (.called (.tighten bytes interval)) world (.waiting .idle)
        (world.changed fun t => { t with
          rekeyBytes := min t.rekeyBytes bytes, rekeyInterval := min t.rekeyInterval interval })

/-- Where the code may give up: not before it has identified itself, nor between
its NEWKEYS and the installation of the keys that NEWKEYS announces. -/
def Point.mayFail : Point prim → Bool
  | .waiting .created | .announced _ _ => false
  | _ => true

/-- A move: a packet is sent and goes out whole, or is cut off; or nothing is
sent; or randomness is drawn; or the code gives up. -/
inductive Moves (env : Env prim) : Point prim × World prim → Point prim × World prim → Prop where
  | sent {point next} {world : World prim} {payload}
      (sends : Sends env point world payload next) (whole : env.fault world.trace.length = none) :
      Moves env (point, world) (next, world.sent payload id)
  | cut {point next} {world : World prim} {payload count reason}
      (sends : Sends env point world payload next)
      (fault : env.fault world.trace.length = some (count, reason)) :
      Moves env (point, world) (.waiting (.failed reason), world.sent payload (List.take count))
  | went {point next before after} (goes : Goes env point before next after) :
      Moves env (point, before) (next, after)
  | drew (point : Point prim) (world : World prim) (random : Nat → UInt8) :
      Moves env (point, world) (point, { world with random := random })
  | failed {point : Point prim} (world : World prim) (reason : Error) (able : point.mayFail = true) :
      Moves env (point, world) (.waiting (.failed reason), world)

/-- A point and state reached by moves. -/
def Arrives (env : Env prim) (start : Point prim × World prim) (point : Point prim) (world : World prim) :
    Prop :=
  Relation.ReflTransGen (Moves env) start (point, world)

/-- From this state the routine arrives by moves where it waits next. -/
def Leads (env : Env prim) (start : Point prim × World prim) (routine : Act prim (Phase prim))
    (world : World prim) : Prop :=
  wp routine (fun phase => Arrives env start (.waiting phase))
    (fun reason => Arrives env start (.waiting (.failed reason))) world

section Routines

variable {α : Type} {env : Env prim} {start : Point prim × World prim} {point next : Point prim}
  {world after : World prim} {rest : Unit → Act prim (Phase prim)}

variable {kex : Kex} {resume : Resume} {phase : Phase prim} {packet : Bytes}

theorem Arrives.goes (arrives : Arrives env start point world) (goes : Goes env point world next after) :
    Arrives env start next after := .tail arrives (.went goes)

theorem Arrives.failed (arrives : Arrives env start point world) (able : point.mayFail = true)
    (reason : Error) : Arrives env start (.waiting (.failed reason)) world :=
  .tail arrives (.failed world reason able)

theorem leads_throw (arrives : Arrives env start point world) (able : point.mayFail = true)
    (reason : Error) : Leads env start (throw reason) world := arrives.failed able reason

theorem leads_fields {rest : Fields prim → Act prim (Phase prim)} (goesOn : Leads env start (rest world.t) world) :
    Leads env start (fields >>= rest) world := goesOn

theorem leads_update {change : Fields prim → Fields prim}
    (goesOn : Leads env start (rest ()) (world.changed change)) :
    Leads env start (update change >>= rest) world := goesOn

theorem leads_emit {effect} (goesOn : Leads env start (rest ()) (world.noted effect)) :
    Leads env start (emit effect >>= rest) world := goesOn

section

variable (arrives : Arrives env start point world)

include arrives

theorem leads_attempt {result} {rest : α → Act prim (Phase prim)}
    (able : point.mayFail = true)
    (goesOn : ∀ value, result = .ok value → Leads env start (rest value) world) :
    Leads env start (attempt result >>= rest) world := by
  rw [Leads, wp_bind]
  exact wp_attempt goesOn (fun reason _ => arrives.failed able reason)

theorem leads_fill {count} {rest : Bytes → Act prim (Phase prim)}
    (goesOn : ∀ bytes random, bytes.length = count →
      Arrives env start point { world with random := random } →
      Leads env start (rest bytes) { world with random := random }) :
    Leads env start (fill count >>= rest) world := by
  rw [Leads, wp_bind]
  exact wp_fill fun bytes random size => goesOn bytes random size (.tail arrives (.drew point world random))

theorem leads_send {payload} (sends : Sends env point world payload next)
    (goesOn : Arrives env start next (world.sent payload id) → Leads env start (rest ()) (world.sent payload id)) :
    Leads env start (sendRaw env payload >>= rest) world := by
  rw [Leads, wp_bind]
  refine wp_send_raw (fun whole => goesOn (.tail arrives (.sent sends whole))) fun count reason fault => ?_
  exact .tail arrives (.cut sends fault)

/-- Our KEXINIT goes out. -/
theorem leads_send_kex_init {rest : KexInit → Act prim (Phase prim)} {follows : KexInit → Point prim}
    (proposes : ∀ random, Proposes env point { world with random := random } follows)
    (goesOn : ∀ ours after, Arrives env start (follows ours) after → Leads env start (rest ours) after) :
    Leads env start (sendKexInit env >>= rest) world := by
  simp only [sendKexInit, bind_assoc, pure_bind]
  refine leads_fill arrives fun cookie random size arrived => ?_
  apply leads_fields
  exact leads_send arrived (.kexInit (proposes random) size) (goesOn _ _)

end

theorem leads_begin_exchange (arrives : Arrives env start (.begun kex resume) world) :
    Leads env start (beginExchange env kex resume) world := by
  apply leads_fields
  cases side : world.t.side with
  | client =>
    refine leads_fill arrives fun xSecret random secretSize arrived => ?_
    refine leads_fill arrived fun mlkemSeed random seedSize arrived => ?_
    exact leads_send arrived (.ecdhInit side secretSize seedSize) fun sent => sent
  | server => exact arrives.goes (.serves side)

theorem leads_run_kex {ours theirsBytes}
    (arrives : Arrives env start (.agreed ours theirsBytes resume) world) :
    Leads env start (runKex env ours theirsBytes resume) world := by
  apply leads_fields
  refine leads_attempt arrives rfl fun theirs parsed => ?_
  refine leads_attempt arrives rfl fun neg chosen => ?_
  apply wp_ite
  · intro discarded
    exact arrives.goes (.guessed parsed chosen discarded)
  · intro kept
    exact leads_begin_exchange (arrives.goes (.negotiated parsed chosen (Bool.not_eq_true _ ▸ kept)))

theorem leads_rekey_initiate (arrives : Arrives env start point world)
    (proposes : ∀ random, Proposes env point { world with random := random }
      fun ours => .waiting (.peerKexInit ours resume)) :
    Leads env start (rekeyInitiate env resume) world :=
  leads_send_kex_init arrives proposes fun _ _ arrived => arrived

theorem leads_rekey_respond {theirsBytes}
    (waits : Waits phase next resume) (peers : kind theirsBytes = Msg.kexInit)
    (arrives : Arrives env start (.taken phase theirsBytes) world) :
    Leads env start (rekeyRespond env theirsBytes resume) world :=
  leads_send_kex_init arrives (fun _ => .respond waits peers) fun _ _ arrived => leads_run_kex arrived

theorem leads_install_tx {exchange} (arrives : Arrives env start (.established exchange resume) world) :
    Leads env start (installTx env exchange resume) world := by
  apply leads_emit
  apply leads_update
  refine leads_send (arrives.goes (.keyed world exchange resume)) (.newKeys _ exchange resume) fun sent => ?_
  exact sent.goes (.installed _ exchange resume)

/-- The trust decision, and the check that follows it. -/
theorem leads_on_ecdh_reply {first eph}
    (arrives : Arrives env start (.taken (.ecdhReply kex first eph resume) packet) world) :
    Leads env start (onEcdhReply env kex first eph resume packet) world := by
  refine leads_attempt arrives rfl fun reply parsed => ?_
  obtain ⟨kS, qS, signature⟩ := reply
  -- What follows once some key is trusted, in the world where it is.
  have concluded : ∀ key after, Arrives env start (.trusted kex first eph resume kS qS signature key) after →
      Leads env start (do
        let t ← fields
        if !first ∧ t.peerHostKey ≠ some key then throw (.hostKey "host key changed during rekey")
        else
          let k ← attempt (eph.finish prim qS)
          let exchange := kex.asClient first eph t.vPeer kS qS signature k key env.now
          if key.verify exchange.h signature = .ok () then
            update (Fields.withHost exchange)
            installTx env exchange resume
          else throw (.hostKey "host key signature invalid")) after := by
    intro key after arrived
    apply leads_fields
    apply wp_ite
    · intro changed
      exact leads_throw arrived rfl _
    · intro same
      have continued : first = true ∨ after.t.peerHostKey = some key := by
        simpa [Decidable.imp_iff_not_or] using same
      refine leads_attempt arrived rfl fun k finished => ?_
      apply wp_ite
      · intro signed
        exact leads_update (leads_install_tx (arrived.goes (.verified continued finished signed)))
      · intro unsigned
        exact leads_throw arrived rfl _
  simp only [trustedHostKey, bind_assoc]
  apply leads_fields
  by_cases certificate : kex.neg.hostKeyAlgo = certAlgo
  · simp only [if_pos certificate]
    refine leads_attempt arrives rfl fun key accepted => ?_
    exact concluded key world (arrives.goes (.certified parsed certificate accepted))
  · simp only [if_neg certificate, bind_assoc]
    refine leads_attempt arrives rfl fun key bare => ?_
    cases first with
    | true =>
      simp only [if_true, askVerifier, bind_assoc, pure_bind]
      apply leads_emit
      cases answer : env.verifier key with
      | ok accepted => exact concluded key _ (arrives.goes (.asked parsed bare answer))
      | error reason => exact arrives.goes (.refused key reason)
    | false =>
      simp only [Bool.false_eq_true, if_false, pure_bind]
      exact concluded key world (arrives.goes (.unasked parsed bare))

theorem leads_on_ecdh_init {first}
    (arrives : Arrives env start (.taken (.ecdhInit kex first resume) packet) world) :
    Leads env start (onEcdhInit env kex first resume packet) world := by
  refine leads_attempt arrives rfl fun qC parsed => ?_
  refine leads_fill arrives fun xSecret random secretSize arrived => ?_
  refine leads_fill arrived fun mlkemSeed random seedSize arrived => ?_
  refine leads_attempt arrived rfl fun answer answered => ?_
  apply leads_fields
  exact leads_send arrived (.ecdhReply parsed secretSize seedSize answered) fun sent => leads_install_tx sent

theorem leads_recv_loop (arrives : Arrives env start .loop world) : Leads env start (recvLoop env) world := by
  apply leads_fields
  cases queued : world.t.queued with
  | cons packet rest => exact arrives.goes (.drained (.inl rfl) queued)
  | nil =>
    apply wp_ite
    · intro due
      exact leads_rekey_initiate arrives fun _ => .loop queued due
    · intro notDue
      exact arrives.goes (.waits queued (Bool.not_eq_true _ ▸ notDue))

theorem leads_resume_call (arrives : Arrives env start (.resumed resume) world) :
    Leads env start (resumeCall env resume) world := by
  cases resume with
  | handshake => exact arrives.goes (.resumed (.inl rfl))
  | rekey => exact arrives.goes (.resumed (.inr rfl))
  | send payload => exact leads_send arrives (.resumed world payload) fun sent => sent
  | recv => exact leads_recv_loop (arrives.goes (.receives world))

theorem leads_on_new_keys {exchange}
    (arrives : Arrives env start (.taken (.newKeys exchange resume) packet) world) :
    Leads env start (onNewKeys env exchange resume packet) world := by
  apply wp_ite
  · intro other
    exact leads_throw arrives rfl _
  · intro newKeys
    have whole : packet = [Msg.newKeys] := Decidable.not_not.mp newKeys
    rw [whole] at arrives
    have ended := arrives.goes (.ended world exchange resume)
    have finished : ∀ after, Arrives env start (.informed exchange resume) after →
        Leads env start (do emit (.completed exchange); resumeCall env resume) after :=
      fun after informed => leads_emit (leads_resume_call (informed.goes (.completed after exchange resume)))
    apply leads_fields
    apply leads_update
    apply leads_emit
    apply wp_ite
    · intro announced
      exact leads_send ended (.extInfo announced) (finished _)
    · intro silent
      exact finished _ (ended.goes (.silent (Bool.not_eq_true _ ▸ silent)))

theorem leads_on_peer_kex_init {ours}
    (arrives : Arrives env start (.taken (.peerKexInit ours resume) packet) world) :
    Leads env start (onPeerKexInit env ours resume packet) world := by
  refine wp_ite (fun peers => leads_run_kex (arrives.goes (.agreed peers))) fun notKexInit => ?_
  refine wp_ite (fun chatter => arrives.goes (.skipped chatter)) fun notChatter => ?_
  refine wp_ite (fun _ => leads_throw arrives rfl _) fun notDisconnect => ?_
  refine wp_ite (fun _ => leads_throw arrives rfl _) fun notKex => ?_
  apply leads_fields
  refine wp_ite (fun _ => leads_throw arrives rfl _) fun fits => ?_
  exact arrives.goes (.held ⟨Bool.not_eq_true _ ▸ notChatter, notDisconnect, notKexInit,
    Bool.not_eq_true _ ▸ notKex⟩ (Nat.lt_of_not_le fits))

theorem leads_note_ext_info (waits : Waits phase next resume) (info : kind packet = Msg.extInfo)
    (arrives : Arrives env start (.taken phase packet) world)
    (goesOn : ∀ after, Arrives env start next after → Leads env start (rest ()) after) :
    Leads env start (noteExtInfo packet >>= rest) world := by
  simp only [noteExtInfo, bind_assoc]
  apply leads_fields
  refine leads_attempt arrives rfl fun found read => ?_
  exact leads_update (goesOn _ (arrives.goes (.extInfo waits info found read)))

theorem leads_on_receiving (arrives : Arrives env start (.taken .receiving packet) world) :
    Leads env start (onReceiving env packet) world := by
  refine wp_ite (fun chatter => leads_recv_loop (arrives.goes (.chatter .receiving chatter)))
    fun notChatter => ?_
  refine wp_ite (fun _ => leads_throw arrives rfl _) fun notDisconnect => ?_
  refine wp_ite (fun info => leads_note_ext_info .receiving info arrives fun _ => leads_recv_loop)
    fun uninformed => ?_
  refine wp_ite (fun peers => leads_rekey_respond .receiving peers arrives) fun notKexInit => ?_
  refine wp_ite (fun _ => leads_throw arrives rfl _) fun notKex => ?_
  exact arrives.goes (.returned .receiving ⟨Bool.not_eq_true _ ▸ notChatter, notDisconnect, notKexInit,
    Bool.not_eq_true _ ▸ notKex⟩ uninformed)

theorem leads_on_polling (arrives : Arrives env start (.taken .polling packet) world) :
    Leads env start (onPolling env packet) world := by
  refine wp_ite (fun chatter => arrives.goes (.chatter .polling chatter)) fun notChatter => ?_
  refine wp_ite (fun info => leads_note_ext_info .polling info arrives fun _ arrived => arrived)
    fun uninformed => ?_
  refine wp_ite (fun peers => leads_rekey_respond .polling peers arrives) fun notKexInit => ?_
  refine wp_ite (fun bye => arrives.goes (.finished bye)) fun notDisconnect => ?_
  refine wp_ite (fun _ => leads_throw arrives rfl _) fun notKex => ?_
  exact arrives.goes (.returned .polling ⟨Bool.not_eq_true _ ▸ notChatter, notDisconnect, notKexInit,
    Bool.not_eq_true _ ▸ notKex⟩ uninformed)

theorem leads_on_packet (awaits : phase.awaitsPacket = true) (arrives : Arrives env start (.taken phase packet) world) :
    Leads env start (onPacket env phase packet) world := by
  cases phase with
  | firstKexInit ours =>
    refine wp_ite (fun peers => leads_run_kex (arrives.goes (.firstAgreed peers))) fun _ => ?_
    exact leads_throw arrives rfl _
  | peerKexInit ours resume => exact leads_on_peer_kex_init arrives
  | guess kex resume => exact leads_begin_exchange (arrives.goes (.dropped world kex resume packet))
  | ecdhReply kex first eph resume => exact leads_on_ecdh_reply arrives
  | ecdhInit kex first resume => exact leads_on_ecdh_init arrives
  | newKeys exchange resume => exact leads_on_new_keys arrives
  | receiving => exact leads_on_receiving arrives
  | polling => exact leads_on_polling arrives
  | created | idents | idle | finished | failed => cases awaits

theorem leads_on_line {lines total text}
    (arrives : Arrives env start (.line lines total text) world) :
    Leads env start (onLine env lines total text) world := by
  apply leads_fields
  refine wp_ite (fun _ => ?_) fun unspoken => ?_
  · refine wp_ite (fun _ => leads_throw arrives rfl _) fun spoken => ?_
    apply leads_update
    refine leads_send_kex_init (arrives.goes (.identified ?_)) (fun _ => .first _) fun _ _ arrived => arrived
    simpa using spoken
  · refine wp_ite (fun _ => leads_throw arrives rfl _) fun allowed => ?_
    exact arrives.goes (.prefaced (fun server => allowed (.inl server)) (Bool.not_eq_true _ ▸ unspoken))

theorem leads_begin_call {call} (arrives : Arrives env start (.called call) world) :
    Leads env start (beginCall env call) world := by
  cases call with
  | send payload =>
    have submitted := arrives.goes (.submitted world payload)
    apply leads_emit
    apply leads_fields
    apply wp_ite
    · intro due
      exact leads_rekey_initiate submitted fun _ => .sending due
    · intro notDue
      exact leads_send submitted (.submitted (Bool.not_eq_true _ ▸ notDue)) fun sent => sent
  | recv => exact leads_recv_loop (arrives.goes (.recv world))
  | poll =>
    apply leads_fields
    apply wp_ite
    · intro empty
      exact arrives.goes (.poll empty)
    · intro busy
      exact arrives.goes (.nothing (.inl rfl))
  | drain =>
    apply leads_fields
    cases queued : world.t.queued with
    | cons packet rest =>
      apply leads_update
      refine wp_ite (fun info => ?_) fun _ => arrives.goes (.drained (.inr rfl) queued)
      simp only [noteExtInfo, bind_assoc]
      apply leads_fields
      refine leads_attempt (arrives.goes (.noted world.t.serverSigAlgs queued info)) rfl fun found read => ?_
      exact leads_update ((arrives.goes (.noted found queued info)).goes (.nothing (.inr rfl)))
    | nil => exact arrives.goes (.nothing (.inr rfl))
  | rekey => exact leads_rekey_initiate arrives fun _ => .called _
  | tighten bytes interval => exact arrives.goes (.tightened world bytes interval)

end Routines

section Steps

/-- The state a routine of this step starts from. -/
def Endpoint.world (endpoint : Endpoint prim) (random : Nat → UInt8) : World prim :=
  ⟨endpoint.t, endpoint.out, endpoint.trace, random⟩

/-- An endpoint that waits in a given state. -/
def World.endpoint (world : World prim) (phase : Phase prim) (input : Bytes) : Endpoint prim :=
  ⟨world.t, phase, input, world.out, world.trace⟩

/-- How a step begins: what is left of the bytes that arrived, and the point and
state its moves start from. -/
inductive Enters (env : Env prim) (endpoint : Endpoint prim) :
    Input → Bytes → Point prim → World prim → Prop where
  | greeted (created : endpoint.phase = .created) (whole : env.fault endpoint.trace.length = none) :
      Enters env endpoint .start endpoint.input (.waiting (.idents 0 0))
        { endpoint.world env.random with out := endpoint.out ++ identLine }
  | greetingCut {count reason} (created : endpoint.phase = .created)
      (fault : env.fault endpoint.trace.length = some (count, reason)) :
      Enters env endpoint .start endpoint.input (.waiting (.failed reason))
        { endpoint.world env.random with out := endpoint.out ++ identLine.take count }
  | arrived (bytes : Bytes) :
      Enters env endpoint (.arrive bytes) (endpoint.input ++ bytes) (.waiting endpoint.phase)
        (endpoint.world env.random)
  | lineRead {lines total text rest} (waiting : endpoint.phase = .idents lines total)
      (read : readLine [] endpoint.input = .line text rest) :
      Enters env endpoint .wake rest (.line lines total text) (endpoint.world env.random)
  | packetRead {payload size rest} (waiting : endpoint.phase.awaitsPacket = true)
      (read : readPacket prim endpoint.t.rx endpoint.t.rxSeq endpoint.input = .packet payload size rest) :
      Enters env endpoint .wake rest (.taken endpoint.phase payload)
        (((endpoint.world env.random).changed (Fields.counting size)).noted (.opened payload))
  | cancelled (waiting : endpoint.phase = .polling) :
      Enters env endpoint .cancel endpoint.input (.waiting .idle) (endpoint.world env.random)
  | called {call} (idle : endpoint.phase = .idle) :
      Enters env endpoint (.call call) endpoint.input (.called call) (endpoint.world env.random)
  | closing {reason description}
      (able : endpoint.phase = .idle ∨ ∃ error, endpoint.phase = .failed error) :
      Enters env endpoint (.disconnect reason description) endpoint.input
        (.closing endpoint.phase reason description) (endpoint.world env.random)
  | stays (input : Input) :
      Enters env endpoint input endpoint.input (.waiting endpoint.phase) (endpoint.world env.random)

/-- A step begins in one of these ways and arrives by moves where it ends. -/
def StepsBy (env : Env prim) (endpoint : Endpoint prim) (input : Input) (after : Endpoint prim) : Prop :=
  ∃ rest point world phase last, Enters env endpoint input rest point world ∧
    Arrives env (point, world) (.waiting phase) last ∧ after = last.endpoint phase rest

variable {env : Env prim} {endpoint : Endpoint prim} {input : Input}

theorem steps_by_run {rest point world routine} (enters : Enters env endpoint input rest point world)
    (leads : Leads env (point, world) routine (endpoint.world env.random)) :
    StepsBy env endpoint input (endpoint.run env rest routine) := by
  obtain ⟨phase, last, ran, arrives⟩ := wp_run endpoint env rest leads
  exact ⟨rest, point, world, phase, last, enters, arrives, ran⟩

theorem steps_by_stays : StepsBy env endpoint input endpoint :=
  ⟨_, _, _, _, _, .stays input, .refl, rfl⟩

/-- A failure that changes nothing else. -/
theorem steps_by_fails (able : (Point.waiting endpoint.phase).mayFail = true) (reason : Error) :
    StepsBy env endpoint input { endpoint with phase := .failed reason } :=
  ⟨_, _, _, _, _, .stays input, Arrives.failed .refl able reason, rfl⟩

theorem awaits_may_fail {phase : Phase prim} (awaits : phase.awaitsPacket = true) :
    (Point.waiting phase).mayFail = true := by
  cases phase with
  | created => cases awaits
  | _ => rfl

theorem wake_steps_by : StepsBy env endpoint .wake (endpoint.wake env) := by
  unfold Endpoint.wake
  split
  · rename_i lines total waiting
    cases read : readLine [] endpoint.input with
    | needMore => exact steps_by_stays
    | failed reason =>
      refine steps_by_fails ?_ reason
      rw [waiting]
      rfl
    | line text rest => exact steps_by_run (.lineRead waiting read) (leads_on_line .refl)
  · by_cases awaits : endpoint.phase.awaitsPacket
    · simp only [awaits, if_true]
      cases read : readPacket prim endpoint.t.rx endpoint.t.rxSeq endpoint.input with
      | needMore => exact steps_by_stays
      | failed reason => exact steps_by_fails (awaits_may_fail awaits) reason
      | packet payload size rest =>
        refine steps_by_run (.packetRead awaits read) (leads_update (leads_emit (wp_ite ?_ ?_)))
        · intro empty
          exact leads_throw .refl rfl _
        · intro nonempty
          exact leads_on_packet awaits .refl
    · simp only [awaits, Bool.false_eq_true, if_false]
      exact steps_by_stays

/-- Every step is a sequence of moves. -/
theorem step_steps_by (endpoint : Endpoint prim) (env : Env prim) (input : Input) :
    StepsBy env endpoint input (endpoint.step env input) := by
  cases input with
  | start =>
    simp only [Endpoint.step]
    split
    · rename_i created
      simp only [Endpoint.run, writeIdent]
      cases fault : env.fault endpoint.trace.length with
      | none => exact ⟨_, _, _, _, _, .greeted created fault, .refl, rfl⟩
      | some stop => exact ⟨_, _, _, _, _, .greetingCut created fault, .refl, rfl⟩
    · exact steps_by_stays
  | arrive bytes => exact ⟨_, _, _, _, _, .arrived bytes, .refl, rfl⟩
  | wake => exact wake_steps_by
  | close =>
    simp only [Endpoint.step]
    split
    · rename_i lines total waiting
      refine steps_by_fails ?_ _
      rw [waiting]
      rfl
    · split
      · rename_i awaits
        exact steps_by_fails (awaits_may_fail awaits) _
      · exact steps_by_stays
  | cancel =>
    simp only [Endpoint.step]
    split
    · rename_i polling
      exact ⟨_, _, _, _, _, .cancelled polling, .refl, rfl⟩
    · exact steps_by_stays
  | call call =>
    simp only [Endpoint.step]
    split
    · rename_i idle
      exact steps_by_run (.called idle) (leads_begin_call .refl)
    · exact steps_by_stays
  | disconnect reason description =>
    simp only [Endpoint.step]
    split
    · rename_i idle
      refine steps_by_run (.closing (.inl idle)) (leads_send .refl (.closing _ _ (.inl idle)) fun sent => ?_)
      rw [← idle]
      exact sent
    · rename_i error failed
      have able : endpoint.phase = .idle ∨ ∃ error, endpoint.phase = .failed error := .inr ⟨error, failed⟩
      refine steps_by_run (.closing able) (leads_send .refl (.closing _ _ able) fun sent => ?_)
      rw [← failed]
      exact sent
    · exact steps_by_stays

theorem moves_trace {point next} {world after : World prim}
    (moves : Moves env (point, world) (next, after)) : world.trace <+: after.trace := by
  cases moves with
  | sent | cut => exact List.prefix_append _ _
  | went goes => cases goes <;> first | exact List.prefix_refl _ | exact List.prefix_append _ _
  | drew | failed => exact List.prefix_refl _

/-- The rule for a step: what holds as it begins and is kept by its moves holds
where it ends. -/
theorem step_invariant (endpoint : Endpoint prim) (env : Env prim) (input : Input)
    (Inv : Bytes → Point prim → World prim → Prop)
    (enters : ∀ rest point world, Enters env endpoint input rest point world → Inv rest point world)
    (moves : ∀ rest point world next after, Moves env (point, world) (next, after) → Inv rest point world →
      Inv rest next after) :
    let after := endpoint.step env input
    ∀ random, Inv after.input (.waiting after.phase) (after.world random) := by
  intro after random
  obtain ⟨rest, point, world, phase, last, entered, arrives, ended⟩ := step_steps_by endpoint env input
  have redrawn : Arrives env (point, world) (.waiting phase) { last with random := random } :=
    .tail arrives (.drew _ last random)
  have arrived := @reaches_invariant _ _ _ _ (fun state => Inv rest state.1 state.2)
    (fun before after move => moves rest before.1 before.2 after.1 after.2 move) redrawn
    (enters rest point world entered)
  simp only [after, ended]
  exact arrived

/-- A step only adds to the trace. -/
theorem step_trace (endpoint : Endpoint prim) (env : Env prim) (input : Input) :
    endpoint.trace <+: (endpoint.step env input).trace := by
  refine step_invariant endpoint env input (fun _ _ world => endpoint.trace <+: world.trace) ?_ ?_ env.random
  · intro rest point world entered
    cases entered <;> first | exact List.prefix_refl _ | exact List.prefix_append _ _
  · intro rest point world next after moves grown
    exact grown.trans (moves_trace moves)

section

variable (config : Config prim) (instant : Nat)

/-- So does a run. -/
theorem after_trace (past more : List (Env prim × Input)) :
    (Endpoint.after config instant past).trace <+: (Endpoint.after config instant (past ++ more)).trace := by
  induction more using List.reverseRecOn with
  | nil =>
    rw [List.append_nil]
  | append_singleton more event ih =>
    have stepped := step_trace (Endpoint.after config instant (past ++ more)) event.1 event.2
    rw [← List.append_assoc, Endpoint.after_snoc]
    exact ih.trans stepped

/-- The rule for runs: what holds at the start, as a step begins and along its
moves holds at every waiting point of every run. It may speak of the history. -/
theorem after_invariant (Inv : List (Env prim × Input) → Point prim → World prim → Prop)
    (initial : ∀ random, Inv [] (.waiting .created) ((Endpoint.create config instant).world random))
    (enters : ∀ past env endpoint input rest point world,
      (∀ random, Inv past (.waiting endpoint.phase) (endpoint.world random)) →
      Enters env endpoint input rest point world → Inv (past ++ [(env, input)]) point world)
    (moves : ∀ past env input point world next after, Moves env (point, world) (next, after) →
      Inv (past ++ [(env, input)]) point world → Inv (past ++ [(env, input)]) next after)
    (past : List (Env prim × Input)) :
    let endpoint := Endpoint.after config instant past
    ∀ random, Inv past (.waiting endpoint.phase) (endpoint.world random) := by
  refine run_invariant _ _ (fun past (endpoint : Endpoint prim) =>
    ∀ random, Inv past (.waiting endpoint.phase) (endpoint.world random)) initial ?_ past
  intro past endpoint event holds
  exact step_invariant endpoint event.1 event.2 (fun _ => Inv (past ++ [event]))
    (fun rest point world => enters past _ endpoint _ rest point world holds)
    (fun _ => moves past event.1 event.2)

/-- The same for runs whose steps all meet a condition: a step is known to meet it when
it begins. -/
theorem after_invariant_when (allowed : Endpoint prim → Input → Prop)
    (Inv : Point prim → World prim → Prop)
    (initial : ∀ random, Inv (.waiting .created) ((Endpoint.create config instant).world random))
    (enters : ∀ env endpoint input rest point world, allowed endpoint input →
      (∀ random, Inv (.waiting endpoint.phase) (endpoint.world random)) →
      Enters env endpoint input rest point world → Inv point world)
    (moves : ∀ env point world next after, Moves env (point, world) (next, after) → Inv point world → Inv next after)
    (past : List (Env prim × Input))
    (meets : Licensed (fun earlier event => allowed (Endpoint.after config instant earlier) event.2) past) :
    let endpoint := Endpoint.after config instant past
    ∀ random, Inv (.waiting endpoint.phase) (endpoint.world random) := by
  induction past using List.reverseRecOn with
  | nil => exact initial
  | append_singleton past event ih =>
    have holds := ih meets.earlier
    have met : allowed (Endpoint.after config instant past) event.2 := meets past event [] rfl
    rw [Endpoint.after_snoc]
    exact step_invariant _ event.1 event.2 (fun _ => Inv)
      (fun rest point world => enters _ _ _ rest point world met holds)
      (fun _ => moves event.1)

end

end Steps

end Shh.Transport
