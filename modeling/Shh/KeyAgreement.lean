import Shh.KeySchedule
import Shh.Nonces

/-!
# Both ends derive the same keys

What one endpoint installs follows from the exchanges it noted, whoever its peer
is: the session is named by the first, and each gives one cipher for sending and
one for receiving, in the order of the exchanges. So two endpoints whose finished
exchanges have the same transcripts and secrets hold the same session identifier,
and each sends with the cipher the other receives with. The numbers of the packets
begin anew with every installed cipher.

Nothing is assumed here about the bytes that arrive; the two runs need not be
connected at all.
-/

namespace Shh

open List

section Choice

variable {kind name : String}

/-- The first name of a list that another list has too. -/
structure FirstCommon (client server : List String) (name : String) : Prop where
  common : name ∈ server
  first : ∃ before after, client = before ++ name :: after ∧ ∀ earlier ∈ before, earlier ∉ server

theorem choose_first {client server}
    (chosen : choose kind client server = .ok name) : FirstCommon client server name := by
  unfold choose at chosen
  split at chosen
  · rename_i found search
    obtain ⟨common, before, after, split, none⟩ := List.find?_eq_some_iff_append.mp search
    rw [← Except.ok.inj chosen]
    refine ⟨contains_iff_mem.mp common, before, after, split, fun earlier member shared => ?_⟩
    have absent := none earlier member
    rw [contains_iff_mem.mpr shared] at absent
    cases absent
  · cases chosen

theorem usable_found {α : Type} {found : Option α} {algorithm : α}
    (ran : usable kind name found = .ok algorithm) : found = some algorithm := by
  unfold usable at ran
  split at ran
  · rw [Except.ok.inj ran]
  · cases ran

/-- The negotiated algorithms are named by the first common entries. -/
structure Chosen (client server : KexInit) (neg : Negotiated) : Prop where
  kex : ∃ name, FirstCommon client.kex server.kex name ∧ KexAlgorithm.fromName name = some neg.kex
  hostKey : FirstCommon client.hostKeys server.hostKeys neg.hostKeyAlgo
  c2s : ∃ name, FirstCommon client.encC2s server.encC2s name ∧ CipherAlgorithm.fromName name = some neg.cipherC2s
  s2c : ∃ name, FirstCommon client.encS2c server.encS2c name ∧ CipherAlgorithm.fromName name = some neg.cipherS2c

theorem negotiate_chosen {client server : KexInit} {neg : Negotiated}
    (chose : negotiate .client client server = .ok neg) : Chosen client server neg := by
  simp only [negotiate] at chose
  split at chose
  · split at chose
    · cases chose
    · rename_i kex hostKeyAlgo cipherC2s cipherS2c all
      rw [← Except.ok.inj chose]
      simp only [chooseAll, Computations.except_bind_ok] at all
      obtain ⟨kexName, kexChosen, kexFound, kexUsable, hostName, hostChosen, hostFound, hostUsable, c2sName,
        c2sChosen, s2cName, s2cChosen, c2sFound, c2sUsable, s2cFound, s2cUsable, _, _, _, _, result⟩ := all
      obtain ⟨rfl, rfl, rfl, rfl⟩ : kexFound = kex ∧ hostFound = hostKeyAlgo ∧ c2sFound = cipherC2s ∧
          s2cFound = cipherS2c := by
        simpa [pure, Except.pure] using result
      have known := usable_found hostUsable
      have host : hostName = hostFound := by
        split at known
        · exact Option.some.inj known
        · cases known
      exact ⟨⟨kexName, choose_first kexChosen, usable_found kexUsable⟩, host ▸ choose_first hostChosen,
        ⟨c2sName, choose_first c2sChosen, usable_found c2sUsable⟩,
        ⟨s2cName, choose_first s2cChosen, usable_found s2cUsable⟩⟩
  · cases chose

end Choice

end Shh

namespace Shh.Transport

open List Wire Computations Runs

variable {prim : Primitives}

section Numbers

variable {env : Env prim} {point next : Point prim} {world after : World prim} {payload : Bytes}
  {trace : List (Effect prim)} {t : Fields prim}

variable {effect : Effect prim}

variable {before since : List (Effect prim)} {cipher : Cipher}

/-- The sending cipher and number that a trace leaves. -/
def txKey (trace : List (Effect prim)) : Cipher × Nat :=
  trace.foldl (fun key effect =>
    match effect with
    | .sealed _ _ _ _ => advanceKey key
    | .txInstalled cipher => (cipher, 0)
    | _ => key) (.plain, 0)

/-- The receiving cipher and number that a trace leaves. -/
def rxKey (trace : List (Effect prim)) : Cipher × Nat :=
  trace.foldl (fun key effect =>
    match effect with
    | .opened _ => advanceKey key
    | .rxInstalled cipher => (cipher, 0)
    | _ => key) (.plain, 0)

/-- Effects that neither open a packet nor install a receiving cipher. -/
def Effect.Unread : Effect prim → Prop
  | .opened _ | .rxInstalled _ => False
  | _ => True

theorem tx_key_sealed (trace : List (Effect prim)) (cipher : Cipher) (seq : Nat) (payload pad : Bytes) :
    txKey (trace ++ [.sealed cipher seq payload pad]) = advanceKey (txKey trace) := by
  simp [txKey]

theorem tx_key_installed (trace : List (Effect prim)) (cipher : Cipher) :
    txKey (trace ++ [.txInstalled cipher]) = (cipher, 0) := by
  simp [txKey]

theorem tx_key_quiet (quiet : effect.Quiet) : txKey (trace ++ [effect]) = txKey trace := by
  cases effect <;> simp_all [txKey, Effect.Quiet]

theorem rx_key_opened (trace : List (Effect prim)) (payload : Bytes) :
    rxKey (trace ++ [.opened payload]) = advanceKey (rxKey trace) := by
  simp [rxKey]

theorem rx_key_installed (trace : List (Effect prim)) (cipher : Cipher) :
    rxKey (trace ++ [.rxInstalled cipher]) = (cipher, 0) := by
  simp [rxKey]

theorem rx_key_unread (unread : effect.Unread) : rxKey (trace ++ [effect]) = rxKey trace := by
  cases effect <;> simp_all [rxKey, Effect.Unread]

/-- Nothing was sealed since a cipher was installed. -/
theorem tx_key_since (quiet : ∀ effect ∈ since, effect.Quiet) :
    txKey (before ++ .txInstalled cipher :: since) = (cipher, 0) := by
  induction since using List.reverseRecOn with
  | nil => exact tx_key_installed before cipher
  | append_singleton since effect ih =>
    have earlier := ih fun other member => quiet other (mem_append_left _ member)
    rw [← cons_append, ← append_assoc, tx_key_quiet (quiet effect (by simp)), earlier]

/-- Nothing was opened since a cipher was installed. -/
theorem rx_key_since (unread : ∀ effect ∈ since, effect.Unread) :
    rxKey (before ++ .rxInstalled cipher :: since) = (cipher, 0) := by
  induction since using List.reverseRecOn with
  | nil => exact rx_key_installed before cipher
  | append_singleton since effect ih =>
    have earlier := ih fun other member => unread other (mem_append_left _ member)
    rw [← cons_append, ← append_assoc, rx_key_unread (unread effect (by simp)), earlier]

/-- When an effect may be noted: a packet is sealed with the current key, and keys
are installed right after the NEWKEYS they go with. -/
def Effect.Due (before : List (Effect prim)) : Effect prim → Prop
  | .sealed cipher seq _ _ => (cipher, seq) = txKey before
  | .txInstalled _ => ∃ earlier cipher seq pad, before = earlier ++ [.sealed cipher seq [Msg.newKeys] pad]
  | .rxInstalled _ => ∃ earlier, before = earlier ++ [.opened [Msg.newKeys]]
  | _ => True

/-- What the trace ends with at some points. -/
def Point.Ends (trace : List (Effect prim)) : Point prim → Prop
  | .taken _ packet => ∃ earlier, trace = earlier ++ [.opened packet]
  | .announced _ _ => ∃ earlier cipher seq pad, trace = earlier ++ [.sealed cipher seq [Msg.newKeys] pad]
  | _ => True

/-- The keys and numbers in use are those of the trace. -/
structure Numbered (point : Point prim) (t : Fields prim) (trace : List (Effect prim)) : Prop where
  tx : (t.tx, t.txSeq) = txKey trace
  rx : (t.rx, t.rxSeq) = rxKey trace
  due : Licensed Effect.Due trace
  ends : point.Ends trace

/-- An effect that touches no key. -/
theorem Numbered.quiet {changed : Fields prim} (numbered : Numbered point t trace)
    (quiet : effect.Quiet) (unread : effect.Unread) (tx : (changed.tx, changed.txSeq) = (t.tx, t.txSeq))
    (rx : (changed.rx, changed.rxSeq) = (t.rx, t.rxSeq)) (ends : next.Ends (trace ++ [effect])) :
    Numbered next changed (trace ++ [effect]) := by
  refine ⟨?_, ?_, licensed_snoc numbered.due ?_, ends⟩
  · rw [tx_key_quiet quiet, tx]
    exact numbered.tx
  · rw [rx_key_unread unread, rx]
    exact numbered.rx
  · cases effect with
    | «sealed» | txInstalled => exact absurd quiet id
    | rxInstalled => exact absurd unread id
    | _ => trivial

theorem sends_ends (sends : Sends env point world payload next) (through : Bytes → Bytes) :
    next.Ends (world.sent payload through).trace := by
  cases sends with
  | kexInit proposes size => cases proposes <;> trivial
  | newKeys => exact ⟨_, _, _, _, rfl⟩
  | closing reason description able => rcases able with rfl | ⟨error, rfl⟩ <;> trivial
  | _ => trivial

theorem numbered_sends (through : Bytes → Bytes) (sends : Sends env point world payload next)
    (numbered : Numbered point world.t world.trace) :
    Numbered next (world.sent payload through).t (world.sent payload through).trace := by
  refine ⟨?_, ?_, licensed_snoc numbered.due numbered.tx, sends_ends sends through⟩
  · simp only [World.sent, tx_key_sealed, ← numbered.tx]
    rfl
  · exact numbered.rx.trans (rx_key_unread (by trivial)).symm

theorem numbered_goes (goes : Goes env point world next after) (numbered : Numbered point world.t world.trace) :
    Numbered next after.t after.trace := by
  obtain ⟨tx, rx, due, ends⟩ := numbered
  cases goes with
  | asked | refused | keyed | completed | submitted =>
    exact Numbered.quiet ⟨tx, rx, due, ends⟩ trivial trivial rfl rfl trivial
  | drained | returned => exact Numbered.quiet ⟨tx, rx, due, ends⟩ trivial trivial rfl rfl trivial
  | installed =>
    refine ⟨?_, ?_, licensed_snoc due ends, trivial⟩
    · exact (tx_key_installed _ _).symm
    · exact rx.trans (rx_key_unread (by trivial)).symm
  | ended =>
    refine ⟨?_, ?_, licensed_snoc due ends, trivial⟩
    · exact tx.trans (tx_key_quiet (by trivial)).symm
    · exact (rx_key_installed _ _).symm
  | chatter waits | extInfo waits => cases waits <;> exact ⟨tx, rx, due, trivial⟩
  | _ => exact ⟨tx, rx, due, trivial⟩

theorem numbered_moves (moves : Moves env (point, world) (next, after))
    (numbered : Numbered point world.t world.trace) : Numbered next after.t after.trace := by
  cases moves with
  | sent sends whole => exact numbered_sends id sends numbered
  | cut sends fault =>
    obtain ⟨tx, rx, due, _⟩ := numbered_sends _ sends numbered
    exact ⟨tx, rx, due, trivial⟩
  | went goes => exact numbered_goes goes numbered
  | drew random => exact numbered
  | failed reason => exact ⟨numbered.tx, numbered.rx, numbered.due, trivial⟩

theorem numbered_enters {endpoint : Endpoint prim} {input rest}
    (numbered : Numbered (.waiting endpoint.phase) endpoint.t endpoint.trace)
    (enters : Enters env endpoint input rest point world) : Numbered point world.t world.trace := by
  obtain ⟨tx, rx, due, ends⟩ := numbered
  cases enters with
  | packetRead waiting read =>
    refine ⟨?_, ?_, licensed_snoc due trivial, ⟨_, rfl⟩⟩
    · exact tx.trans (tx_key_quiet (by trivial)).symm
    · simp only [World.noted, World.changed, Endpoint.world, rx_key_opened, ← rx]
      rfl
  | _ => exact ⟨tx, rx, due, trivial⟩

theorem after_numbered (config : Config prim) (instant : Nat) (past : List (Env prim × Input)) :
    let endpoint := Endpoint.after config instant past
    Numbered (.waiting endpoint.phase) endpoint.t endpoint.trace :=
  after_invariant config instant (fun _ point world => Numbered point world.t world.trace)
    (fun _ => ⟨rfl, rfl, licensed_nil _, trivial⟩)
    (fun _ env _ _ _ _ _ held => numbered_enters (held env.random))
    (fun _ _ _ _ _ _ _ => numbered_moves) past fun _ => 0

end Numbers

section Exchanges

variable {side : Side} {env : Env prim} {point next : Point prim} {world after : World prim} {payload : Bytes}

variable {exchange : Exchange prim} {resume : Resume}

/-- The exchanges that ended, oldest first. -/
def completed (trace : List (Effect prim)) : List (Exchange prim) :=
  trace.filterMap fun
    | .completed exchange => some exchange
    | _ => none

/-- An exchange keeps what its own side negotiated and both KEXINITs. -/
def Exchange.Negotiates (exchange : Exchange prim) (side : Side) : Prop :=
  ∃ kex, Agreed side kex ∧ exchange.neg = kex.neg ∧
    match side with
    | .client => exchange.iC = kex.ours.encode ∧ exchange.iS = kex.theirsBytes
    | .server => exchange.iS = kex.ours.encode ∧ exchange.iC = kex.theirsBytes

/-- What is known of the locals at a waiting point, whatever the peer sends. -/
def Phase.Sound (side : Side) (session : Bytes) : Phase prim → Prop
  | .firstKexInit ours | .peerKexInit ours _ => Ours side ours
  | .guess kex _ => Agreed side kex
  | .ecdhReply kex first _ _ => side = .client ∧ Agreed side kex ∧ first = session.isEmpty
  | .ecdhInit kex first _ => side = .server ∧ Agreed side kex ∧ first = session.isEmpty
  | _ => True

def Point.Sound (side : Side) (session : Bytes) : Point prim → Prop
  | .waiting phase | .taken phase _ => phase.Sound side session
  | .agreed ours _ _ => Ours side ours
  | .begun kex _ => Agreed side kex
  | .trusted kex first _ _ _ _ _ _ => side = .client ∧ Agreed side kex ∧ first = session.isEmpty
  | .established exchange _ => exchange.Negotiates side ∧ exchange.first = session.isEmpty
  | _ => True

/-- The noted exchanges are the completed ones and the one in progress, and the
ciphers are theirs. After a failure the one in progress stays unfinished. -/
structure Keying (side : Side) (point : Point prim) (world : World prim) : Prop where
  role : world.t.side = side
  algos : ∃ withCert, world.t.hostKeyAlgos = hostKeyAlgos withCert
  sound : point.Sound side world.t.sessionId
  counted : point.dead = false →
    (ledger world.trace).exchanges = completed world.trace ++ (point.stage side).noted ∧
      (ledger world.trace).txs.length = (completed world.trace).length + (point.stage side).txs ∧
      (ledger world.trace).rxs.length = (completed world.trace).length + (point.stage side).rxs
  negotiated : ∀ exchange ∈ (ledger world.trace).exchanges, exchange.Negotiates side
  schedule : Schedule side world.t.sessionId (ledger world.trace)
  whole : completed world.trace <+: (ledger world.trace).exchanges ∧
    (completed world.trace).length ≤ (ledger world.trace).txs.length ∧
    (completed world.trace).length ≤ (ledger world.trace).rxs.length

/-- What is known follows from the count while the endpoint lives. -/
theorem whole_of_counted {book : Ledger prim} {done : List (Exchange prim)} {stage : Stage prim}
    (counted : book.exchanges = done ++ stage.noted ∧ book.txs.length = done.length + stage.txs ∧
      book.rxs.length = done.length + stage.rxs) :
    done <+: book.exchanges ∧ done.length ≤ book.txs.length ∧ done.length ≤ book.rxs.length := by
  obtain ⟨exchanges, txs, rxs⟩ := counted
  exact ⟨⟨_, exchanges.symm⟩, by omega, by omega⟩

/-- A move that notes and installs nothing. -/
theorem Keying.kept (keying : Keying side point world) (role : after.t.side = world.t.side)
    (algos : after.t.hostKeyAlgos = world.t.hostKeyAlgos) (session : after.t.sessionId = world.t.sessionId)
    (exchanges : (ledger after.trace).exchanges = (ledger world.trace).exchanges)
    (txs : (ledger after.trace).txs = (ledger world.trace).txs)
    (rxs : (ledger after.trace).rxs = (ledger world.trace).rxs) (done : completed after.trace = completed world.trace)
    (account : next.dead = false → point.dead = false ∧ (next.stage side).noted = (point.stage side).noted ∧
      (next.stage side).txs = (point.stage side).txs ∧ (next.stage side).rxs = (point.stage side).rxs)
    (sound : next.Sound side world.t.sessionId) : Keying side next after where
  role := role.trans keying.role
  algos := by
    rw [algos]
    exact keying.algos
  sound := by
    rw [session]
    exact sound
  counted alive := by
    obtain ⟨living, noted, sealing, opening⟩ := account alive
    rw [exchanges, txs, rxs, done, noted, sealing, opening]
    exact keying.counted living
  negotiated := by
    rw [exchanges]
    exact keying.negotiated
  schedule := by
    obtain ⟨name, sealing, opening⟩ := keying.schedule
    rw [session]
    exact ⟨by rw [exchanges]; exact name, by rw [exchanges, txs]; exact sealing,
      by rw [exchanges, rxs]; exact opening⟩
  whole := by
    rw [exchanges, txs, rxs, done]
    exact keying.whole

theorem sends_sound (sends : Sends env point world payload next) (keying : Keying side point world) :
    next.Sound side world.t.sessionId := by
  have sound := keying.sound
  have proposed (cookie : Bytes) (size : cookie.length = 16) :
      Ours side (KexInit.ours world.t.side world.t.hostKeyAlgos cookie) := by
    obtain ⟨withCert, algos⟩ := keying.algos
    rw [keying.role, algos]
    exact ⟨withCert, cookie, size, rfl⟩
  cases sends with
  | kexInit proposes size => cases proposes <;> exact proposed _ size
  | ecdhInit client secretSize seedSize => exact ⟨keying.role.symm.trans client, sound, rfl⟩
  | ecdhReply parsed secretSize seedSize answered =>
    obtain ⟨rfl, agreed, first⟩ := sound
    exact ⟨⟨_, agreed, rfl, rfl, rfl⟩, first⟩
  | closing reason description able => rcases able with rfl | ⟨error, rfl⟩ <;> trivial
  | _ => trivial

theorem sends_account (sends : Sends env point world payload next) :
    (next.stage side).noted = (point.stage side).noted ∧ (next.stage side).txs = (point.stage side).txs ∧
      (next.stage side).rxs = (point.stage side).rxs := by
  cases sends with
  | kexInit proposes size =>
    cases proposes with
    | respond waits peers => cases waits <;> exact ⟨rfl, rfl, rfl⟩
    | _ => exact ⟨rfl, rfl, rfl⟩
  | closing reason description able => rcases able with rfl | ⟨error, rfl⟩ <;> exact ⟨rfl, rfl, rfl⟩
  | _ => exact ⟨rfl, rfl, rfl⟩

theorem keying_sends (through : Bytes → Bytes) (sends : Sends env point world payload next)
    (keying : Keying side point world) : Keying side next (world.sent payload through) := by
  refine keying.kept rfl rfl rfl ?_ ?_ ?_ ?_ ?_ (sends_sound sends keying)
  · simp [World.sent, ledger_snoc, Ledger.add]
  · simp [World.sent, ledger_snoc, Ledger.add]
  · simp [World.sent, ledger_snoc, Ledger.add]
  · simp [World.sent, completed]
  · intro alive
    exact ⟨(sends_dead sends).symm.trans alive, sends_account sends⟩

theorem goes_sound (goes : Goes env point world next after) (keying : Keying side point world) :
    next.Sound side after.t.sessionId := by
  have sound := keying.sound
  have role := keying.role
  cases goes with
  | firstAgreed | agreed | skipped | held | dropped => exact sound
  | negotiated parsed chosen kept | guessed parsed chosen discarded =>
    rw [role] at chosen
    exact ⟨sound, _, parsed, chosen⟩
  | serves server => exact ⟨role.symm.trans server, sound, rfl⟩
  | certified | asked | unasked => exact sound
  | verified continued finished signed =>
    obtain ⟨rfl, agreed, first⟩ := sound
    exact ⟨⟨_, agreed, rfl, rfl, rfl⟩, first⟩
  | chatter waits | extInfo waits => cases waits <;> trivial
  | _ => trivial

/-- The first exchange names the session, and each is noted before its ciphers. -/
theorem keying_noted (keying : Keying side (.established exchange resume) world) :
    Keying side (.keyed exchange resume) ((world.noted (.keyed exchange)).changed (Fields.keyed exchange)) := by
  obtain ⟨role, algos, ⟨negotiates, first⟩, counted, negotiated, schedule, whole⟩ := keying
  obtain ⟨exchanges, txs, rxs⟩ := counted rfl
  have all : (ledger world.trace).exchanges = completed world.trace := exchanges.trans (append_nil _)
  have done : completed (world.trace ++ [.keyed exchange]) = completed world.trace := by simp [completed]
  have now : (ledger (world.trace ++ [.keyed exchange])).exchanges = completed world.trace ++ [exchange] ∧
      (ledger (world.trace ++ [.keyed exchange])).txs.length = (completed world.trace).length + 0 ∧
      (ledger (world.trace ++ [.keyed exchange])).rxs.length = (completed world.trace).length + 0 := by
    rw [ledger_snoc]
    exact ⟨congrArg (· ++ [exchange]) all, txs, rxs⟩
  refine ⟨role, algos, trivial, ?_, ?_, ?_, ?_⟩
  · intro _
    simp only [World.noted, World.changed, done]
    exact now
  · simp only [World.noted, World.changed, now.1, mem_append, mem_singleton, ← all]
    rintro other (old | rfl)
    · exact negotiated other old
    · exact negotiates
  · simp only [World.noted, World.changed, ledger_snoc]
    exact schedule_noted schedule first
  · simp only [World.noted, World.changed, done]
    exact @whole_of_counted _ _ _ ⟨[exchange], [], [], 0, 0⟩ now

theorem keying_installed (keying : Keying side (.announced exchange resume) world) :
    Keying side (.waiting (.newKeys exchange resume))
      ((world.changed (Fields.withTx (exchange.txCipher world.t.side world.t.sessionId))).noted
        (.txInstalled (exchange.txCipher world.t.side world.t.sessionId))) := by
  obtain ⟨role, algos, sound, counted, negotiated, schedule, whole⟩ := keying
  obtain ⟨exchanges, txs, rxs⟩ := counted rfl
  rw [role]
  have done : completed (world.trace ++ [.txInstalled (exchange.txCipher side world.t.sessionId)]) =
      completed world.trace := by simp [completed]
  refine ⟨role, algos, trivial, ?_, ?_, ?_, ?_⟩
  · intro _
    simp only [World.noted, World.changed, done, ledger_snoc, Ledger.add]
    refine ⟨exchanges, ?_, rxs⟩
    rw [length_append, txs]
    rfl
  · simp only [World.noted, World.changed, ledger_snoc, Ledger.add]
    exact negotiated
  · simp only [World.noted, World.changed, ledger_snoc]
    exact schedule_sealing schedule exchanges txs
  · simp only [World.noted, World.changed, done, ledger_snoc, Ledger.add]
    refine ⟨whole.1, ?_, whole.2.2⟩
    rw [length_append]
    exact Nat.le_trans whole.2.1 (Nat.le_add_right _ _)

theorem keying_ended {packet} (instant : Nat)
    (keying : Keying side (.taken (.newKeys exchange resume) packet) world) :
    Keying side (.ended exchange resume)
      ((world.changed (Fields.withRx (exchange.rxCipher world.t.side world.t.sessionId) instant)).noted
        (.rxInstalled (exchange.rxCipher world.t.side world.t.sessionId))) := by
  obtain ⟨role, algos, sound, counted, negotiated, schedule, whole⟩ := keying
  obtain ⟨exchanges, txs, rxs⟩ := counted rfl
  rw [role]
  have done : completed (world.trace ++ [.rxInstalled (exchange.rxCipher side world.t.sessionId)]) =
      completed world.trace := by simp [completed]
  refine ⟨role, algos, trivial, ?_, ?_, ?_, ?_⟩
  · intro _
    simp only [World.noted, World.changed, done, ledger_snoc, Ledger.add]
    refine ⟨exchanges, txs, ?_⟩
    rw [length_append, rxs]
    rfl
  · simp only [World.noted, World.changed, ledger_snoc, Ledger.add]
    exact negotiated
  · simp only [World.noted, World.changed, ledger_snoc]
    exact schedule_opening schedule exchanges rxs
  · simp only [World.noted, World.changed, done, ledger_snoc, Ledger.add]
    refine ⟨whole.1, whole.2.1, ?_⟩
    rw [length_append]
    exact Nat.le_trans whole.2.2 (Nat.le_add_right _ _)

theorem keying_completed (keying : Keying side (.informed exchange resume) world) :
    Keying side (.resumed resume) (world.noted (.completed exchange)) := by
  obtain ⟨role, algos, sound, counted, negotiated, schedule, whole⟩ := keying
  obtain ⟨exchanges, txs, rxs⟩ := counted rfl
  have done : completed (world.trace ++ [.completed exchange]) = completed world.trace ++ [exchange] := by
    simp [completed]
  have now : (ledger (world.trace ++ [.completed exchange])).exchanges =
        completed (world.trace ++ [.completed exchange]) ++ [] ∧
      (ledger (world.trace ++ [.completed exchange])).txs.length =
        (completed (world.trace ++ [.completed exchange])).length + 0 ∧
      (ledger (world.trace ++ [.completed exchange])).rxs.length =
        (completed (world.trace ++ [.completed exchange])).length + 0 := by
    rw [ledger_snoc, done, append_nil, length_append]
    exact ⟨exchanges, txs, rxs⟩
  refine ⟨role, algos, trivial, fun _ => now, ?_, ?_, @whole_of_counted _ _ _ ⟨[], [], [], 0, 0⟩ now⟩
  · simp only [World.noted, ledger_snoc, Ledger.add]
    exact negotiated
  · simp only [World.noted, ledger_snoc]
    exact ⟨schedule.name, schedule.txs, schedule.rxs⟩

theorem keying_goes (goes : Goes env point world next after) (keying : Keying side point world) :
    Keying side next after := by
  have sound := goes_sound goes keying
  cases goes with
  | keyed => exact keying_noted keying
  | installed => exact keying_installed keying
  | ended => exact keying_ended _ keying
  | completed => exact keying_completed keying
  | refused key reason =>
    refine keying.kept rfl rfl rfl ?_ ?_ ?_ ?_ nofun sound
    all_goals simp [World.noted, ledger_snoc, Ledger.add, Transport.completed]
  | asked | submitted =>
    refine keying.kept rfl rfl rfl ?_ ?_ ?_ ?_ (fun _ => ⟨rfl, rfl, rfl, rfl⟩) sound
    all_goals simp [World.noted, ledger_snoc, Ledger.add, Transport.completed]
  | drained looks queued =>
    rcases looks with rfl | rfl
    all_goals
      refine keying.kept rfl rfl rfl ?_ ?_ ?_ ?_ (fun _ => ⟨rfl, rfl, rfl, rfl⟩) sound
      all_goals simp [World.noted, World.changed, ledger_snoc, Ledger.add, Transport.completed]
  | returned waits passes uninformed =>
    cases waits
    all_goals
      refine keying.kept rfl rfl rfl ?_ ?_ ?_ ?_ (fun _ => ⟨rfl, rfl, rfl, rfl⟩) sound
      all_goals simp [World.noted, ledger_snoc, Ledger.add, Transport.completed]
  | chatter waits | extInfo waits =>
    cases waits <;> exact keying.kept rfl rfl rfl rfl rfl rfl rfl (fun _ => ⟨rfl, rfl, rfl, rfl⟩) sound
  | _ => exact keying.kept rfl rfl rfl rfl rfl rfl rfl (fun _ => ⟨rfl, rfl, rfl, rfl⟩) sound

theorem keying_fails (reason : Error) (keying : Keying side point world) :
    Keying side (.waiting (.failed reason)) world :=
  keying.kept rfl rfl rfl rfl rfl rfl rfl nofun trivial

theorem keying_moves (moves : Moves env (point, world) (next, after)) (keying : Keying side point world) :
    Keying side next after := by
  cases moves with
  | sent sends whole => exact keying_sends id sends keying
  | cut sends fault => exact keying_fails _ (keying_sends _ sends keying)
  | went goes => exact keying_goes goes keying
  | drew random => exact ⟨keying.role, keying.algos, keying.sound, keying.counted, keying.negotiated,
      keying.schedule, keying.whole⟩
  | failed _ reason able => exact keying_fails reason keying

theorem keying_enters {endpoint : Endpoint prim} {input rest}
    (keying : ∀ random, Keying side (.waiting endpoint.phase) (endpoint.world random))
    (enters : Enters env endpoint input rest point world) : Keying side point world := by
  have before := keying env.random
  have sound := before.sound
  cases enters with
  | greeted created whole =>
    rw [created] at before
    exact before.kept rfl rfl rfl rfl rfl rfl rfl (fun _ => ⟨rfl, rfl, rfl, rfl⟩) trivial
  | greetingCut created fault => exact before.kept rfl rfl rfl rfl rfl rfl rfl (by rintro ⟨⟩) trivial
  | arrived | stays => exact before
  | lineRead waiting read =>
    rw [waiting] at before
    exact before.kept rfl rfl rfl rfl rfl rfl rfl (fun _ => ⟨rfl, rfl, rfl, rfl⟩) trivial
  | packetRead waiting read =>
    refine before.kept rfl rfl rfl ?_ ?_ ?_ ?_ (fun _ => ⟨(awaits_alive waiting).1, rfl, rfl, rfl⟩) sound
    all_goals simp [World.noted, World.changed, ledger_snoc, Ledger.add, completed, Endpoint.world]
  | cancelled waiting =>
    rw [waiting] at before
    exact before.kept rfl rfl rfl rfl rfl rfl rfl (fun _ => ⟨rfl, rfl, rfl, rfl⟩) trivial
  | called idle =>
    rw [idle] at before
    exact before.kept rfl rfl rfl rfl rfl rfl rfl (fun _ => ⟨rfl, rfl, rfl, rfl⟩) trivial
  | closing able =>
    rcases able with idle | ⟨error, failed⟩
    · rw [idle] at before ⊢
      exact before.kept rfl rfl rfl rfl rfl rfl rfl (fun _ => ⟨rfl, rfl, rfl, rfl⟩) trivial
    · rw [failed] at before ⊢
      exact before.kept rfl rfl rfl rfl rfl rfl rfl (by rintro ⟨⟩) trivial

theorem created_keying (config : Config prim) (instant : Nat) (random : Nat → UInt8) :
    Keying config.side (.waiting .created) ((Endpoint.create config instant).world random) where
  role := rfl
  algos := by
    cases config with
    | client | server => exact ⟨_, rfl⟩
  sound := trivial
  counted _ := ⟨rfl, rfl, rfl⟩
  negotiated exchange member := absurd member not_mem_nil
  schedule := ⟨rfl, nil_prefix, nil_prefix⟩
  whole := ⟨⟨_, rfl⟩, Nat.le_refl _, Nat.le_refl _⟩

theorem after_keying (config : Config prim) (instant : Nat) (past : List (Env prim × Input)) (random : Nat → UInt8) :
    Keying config.side (.waiting (Endpoint.after config instant past).phase)
      ((Endpoint.after config instant past).world random) :=
  after_invariant config instant (fun _ => Keying config.side) (created_keying config instant)
    (fun _ _ _ _ _ _ _ => keying_enters) (fun _ _ _ _ _ _ _ => keying_moves) past random

end Exchanges

section Ends

variable {client server : Exchange prim}

/-- Two exchanges hashed the same messages and have the same encoded secret. -/
structure SameTranscript (client server : Exchange prim) : Prop where
  vC : client.vC = server.vC
  vS : client.vS = server.vS
  iC : client.iC = server.iC
  iS : client.iS = server.iS
  kS : client.kS = server.kS
  qC : client.qC = server.qC
  qS : client.qS = server.qS
  k : client.k = server.k

section

variable (clientMade : client.Negotiates .client)
  (serverMade : server.Negotiates .server)
  (same : SameTranscript client server)

include clientMade serverMade same

/-- Each end parsed the other's proposal back, so both negotiated over the same
pair. -/
theorem transcript_ciphers :
    client.h = server.h ∧ client.neg.cipherC2s = server.neg.cipherC2s ∧
      client.neg.cipherS2c = server.neg.cipherS2c := by
  obtain ⟨atClient, ⟨clientOurs, clientTheirs, clientParsed, clientChose⟩, clientNeg, clientInit, clientPeer⟩ :=
    clientMade
  obtain ⟨atServer, ⟨serverOurs, serverTheirs, serverParsed, serverChose⟩, serverNeg, serverInit, serverPeer⟩ :=
    serverMade
  rw [← clientPeer, same.iS, serverInit, parse_encode _ (ours_well_formed serverOurs)] at clientParsed
  rw [← serverPeer, ← same.iC, clientInit, parse_encode _ (ours_well_formed clientOurs)] at serverParsed
  rw [← Except.ok.inj clientParsed] at clientChose
  rw [← Except.ok.inj serverParsed] at serverChose
  obtain ⟨_, _, c2s, s2c⟩ := negotiate_agrees _ _ _ _ clientChose serverChose
  refine ⟨?_, by rw [clientNeg, serverNeg, c2s], by rw [clientNeg, serverNeg, s2c]⟩
  rw [client.hashed, server.hashed, same.vC, same.vS, same.iC, same.iS, same.kS, same.qC, same.qS, same.k]

/-- Such exchanges give each direction one cipher. -/
theorem transcript_tx_cipher (direction : Side) (session : Bytes) :
    client.txCipher direction session = server.txCipher direction session := by
  obtain ⟨h, c2s, s2c⟩ := transcript_ciphers clientMade serverMade same
  cases direction with
  | client => simp only [Exchange.txCipher, same.k, h, c2s]
  | server => simp only [Exchange.txCipher, same.k, h, s2c]

end

section

variable {side : Side} {point : Point prim} {world : World prim} (keying : Keying side point world)

variable {exchange : Exchange prim}

include keying

/-- A completed exchange is noted at its place, and both its ciphers are installed
there. -/
theorem Keying.installed {index : Nat} (ended : (completed world.trace)[index]? = some exchange) :
    exchange ∈ (ledger world.trace).exchanges ∧
      (ledger world.trace).txs[index]? = some (exchange.txCipher side world.t.sessionId) ∧
      (ledger world.trace).rxs[index]? = some (exchange.rxCipher side world.t.sessionId) := by
  obtain ⟨⟨rest, all⟩, txs, rxs⟩ := keying.whole
  have inside := (List.getElem?_eq_some_iff.mp ended).1
  have noted : (ledger world.trace).exchanges[index]? = some exchange := by
    rw [← all, List.getElem?_append_left inside]
    exact ended
  have mapped (f : Exchange prim → Cipher) (image : List Cipher)
      (agrees : image <+: (ledger world.trace).exchanges.map f) (enough : index < image.length) :
      image[index]? = some (f exchange) := by
    obtain ⟨more, whole⟩ := agrees
    rw [← List.getElem?_append_left enough, whole, List.getElem?_map, noted]
    rfl
  exact ⟨mem_of_getElem? noted, mapped _ _ keying.schedule.txs (by omega),
    mapped _ _ keying.schedule.rxs (by omega)⟩

/-- The session is named by the first completed exchange. -/
theorem Keying.session (ended : (completed world.trace)[0]? = some exchange) : world.t.sessionId = exchange.h := by
  obtain ⟨⟨rest, all⟩, _, _⟩ := keying.whole
  have noted : (ledger world.trace).exchanges[0]? = some exchange := by
    rw [← all, List.getElem?_append_left (List.getElem?_eq_some_iff.mp ended).1]
    exact ended
  rw [keying.schedule.name, List.head?_eq_getElem?, noted]
  rfl

end

/-- The first exchanges of a client and a server, over the same transcripts and with
the same secrets. -/
def Shared (client server : Endpoint prim) (count : Nat) : Prop :=
  ∀ index < count, ∃ atClient atServer, (completed client.trace)[index]? = some atClient ∧
    (completed server.trace)[index]? = some atServer ∧ SameTranscript atClient atServer

/-- What two ends then have in common: the session of the first exchange, and for
each exchange and direction the cipher one sends and the other receives with. -/
structure SameKeys (client server : Endpoint prim) (count : Nat) : Prop where
  session : ∀ first, 0 < count → (completed client.trace)[0]? = some first →
    client.t.sessionId = first.h ∧ server.t.sessionId = first.h
  ciphers : ∀ index < count, ∃ c2s s2c,
    (ledger client.trace).txs[index]? = some c2s ∧ (ledger server.trace).rxs[index]? = some c2s ∧
      (ledger server.trace).txs[index]? = some s2c ∧ (ledger client.trace).rxs[index]? = some s2c

theorem shared_same_keys {client server : Endpoint prim} {count : Nat} {random : Nat → UInt8}
    (clientKeying : Keying .client (.waiting client.phase) (client.world random))
    (serverKeying : Keying .server (.waiting server.phase) (server.world random))
    (shared : Shared client server count) : SameKeys client server count := by
  have made {index : Nat} {atClient atServer : Exchange prim}
      (clientEnded : (completed client.trace)[index]? = some atClient)
      (serverEnded : (completed server.trace)[index]? = some atServer) :=
    And.intro (clientKeying.negotiated _ (clientKeying.installed clientEnded).1)
      (serverKeying.negotiated _ (serverKeying.installed serverEnded).1)
  have session (first : Exchange prim) (positive : 0 < count) (ended : (completed client.trace)[0]? = some first) :
      client.t.sessionId = first.h ∧ server.t.sessionId = first.h := by
    obtain ⟨atClient, atServer, clientEnded, serverEnded, same⟩ := shared 0 positive
    cases ended.symm.trans clientEnded
    obtain ⟨clientMade, serverMade⟩ := made clientEnded serverEnded
    refine ⟨clientKeying.session clientEnded, ?_⟩
    rw [(transcript_ciphers clientMade serverMade same).1]
    exact serverKeying.session serverEnded
  refine ⟨session, fun index inside => ?_⟩
  obtain ⟨atClient, atServer, clientEnded, serverEnded, same⟩ := shared index inside
  obtain ⟨clientMade, serverMade⟩ := made clientEnded serverEnded
  obtain ⟨_, clientTx, clientRx⟩ := clientKeying.installed clientEnded
  obtain ⟨_, serverTx, serverRx⟩ := serverKeying.installed serverEnded
  -- Both name the session after their first exchange.
  have sameSession : client.t.sessionId = server.t.sessionId := by
    have positive : 0 < count := Nat.lt_of_le_of_lt (Nat.zero_le _) inside
    obtain ⟨first, _, firstEnded, _, _⟩ := shared 0 positive
    obtain ⟨atClient, atServer⟩ := session first positive firstEnded
    rw [atClient, atServer]
  have cipher (direction : Side) := transcript_tx_cipher clientMade serverMade same direction server.t.sessionId
  change (ledger client.trace).txs[index]? = some (atClient.txCipher .client client.t.sessionId) at clientTx
  change (ledger client.trace).rxs[index]? = some (atClient.txCipher .server client.t.sessionId) at clientRx
  rw [sameSession, cipher] at clientTx clientRx
  exact ⟨_, _, clientTx, serverRx, serverTx, clientRx⟩

/-- The numbers of a direction begin at zero with each installed cipher: it is
installed right after a NEWKEYS, seals the next packet with number zero, and
opens the next with number zero. -/
structure Restarts (endpoint : Endpoint prim) : Prop where
  announced : ∀ before cipher after, endpoint.trace = before ++ .txInstalled cipher :: after →
    ∃ earlier old seq pad, before = earlier ++ [.sealed old seq [Msg.newKeys] pad]
  sealing : ∀ before cipher between used seq payload pad after,
    endpoint.trace = before ++ .txInstalled cipher :: between ++ .sealed used seq payload pad :: after →
    (∀ effect ∈ between, effect.Quiet) → used = cipher ∧ seq = 0
  taken : ∀ before cipher after, endpoint.trace = before ++ .rxInstalled cipher :: after →
    ∃ earlier, before = earlier ++ [.opened [Msg.newKeys]]
  opening : ∀ before cipher after, endpoint.trace = before ++ .rxInstalled cipher :: after →
    (∀ effect ∈ after, effect.Unread) → endpoint.t.rx = cipher ∧ endpoint.t.rxSeq = 0

theorem numbered_restarts {endpoint : Endpoint prim}
    (numbered : Numbered (.waiting endpoint.phase) endpoint.t endpoint.trace) : Restarts endpoint where
  announced before cipher after split := numbered.due before _ after split
  sealing before cipher between used seq payload pad after split quiet := by
    have current : (used, seq) = txKey (before ++ .txInstalled cipher :: between) := numbered.due _ _ after split
    rw [tx_key_since quiet] at current
    exact Prod.mk.inj current
  taken before cipher after split := numbered.due before _ after split
  opening before cipher after split unread := by
    have current := numbered.rx
    rw [split, rx_key_since unread] at current
    exact Prod.mk.inj current

/-- Both ends derive the same keys: they choose the same algorithms, the client's
first that the server has too; after any number of exchanges over the same
transcripts, in any two runs, they hold the same session and the same ciphers; and
every cipher counts from zero. -/
theorem both_ends_same_keys :
    (∀ client server atClient atServer, negotiate .client client server = .ok atClient →
      negotiate .server server client = .ok atServer →
      (atClient.kex = atServer.kex ∧ atClient.hostKeyAlgo = atServer.hostKeyAlgo ∧
        atClient.cipherC2s = atServer.cipherC2s ∧ atClient.cipherS2c = atServer.cipherS2c) ∧
        Chosen client server atClient) ∧
    (∀ (hostCas : List (PublicKey prim)) (hostname : String) (publicBlob : Bytes) (hostCert : Option Bytes)
      (clientInstant serverInstant : Nat) (clientPast serverPast : List (Env prim × Input)) (count : Nat),
      Shared (Endpoint.after (.client hostCas hostname) clientInstant clientPast)
        (Endpoint.after (.server publicBlob hostCert) serverInstant serverPast) count →
      SameKeys (Endpoint.after (.client hostCas hostname) clientInstant clientPast)
        (Endpoint.after (.server publicBlob hostCert) serverInstant serverPast) count) ∧
    ∀ (config : Config prim) (instant : Nat) (past : List (Env prim × Input)),
      Restarts (Endpoint.after config instant past) := by
  refine ⟨?_, ?_, ?_⟩
  · intro client server atClient atServer clientChose serverChose
    exact ⟨negotiate_agrees _ _ _ _ clientChose serverChose, negotiate_chosen clientChose⟩
  · intro hostCas hostname publicBlob hostCert clientInstant serverInstant clientPast serverPast count shared
    exact shared_same_keys (after_keying (.client hostCas hostname) clientInstant clientPast fun _ => 0)
      (after_keying (.server publicBlob hostCert) serverInstant serverPast fun _ => 0) shared
  · intro config instant past
    exact numbered_restarts (after_numbered config instant past)

instance (client server : Exchange prim) : Decidable (SameTranscript client server) :=
  decidable_of_iff (client.vC = server.vC ∧ client.vS = server.vS ∧ client.iC = server.iC ∧ client.iS = server.iS ∧
    client.kS = server.kS ∧ client.qC = server.qC ∧ client.qS = server.qS ∧ client.k = server.k)
    ⟨fun ⟨vC, vS, iC, iS, kS, qC, qS, k⟩ => ⟨vC, vS, iC, iS, kS, qC, qS, k⟩,
      fun ⟨vC, vS, iC, iS, kS, qC, qS, k⟩ => ⟨vC, vS, iC, iS, kS, qC, qS, k⟩⟩

/-- Whether both ends ended a first exchange, over the same transcript. -/
def agreeOnce (client server : Endpoint prim) : Bool :=
  match completed client.trace, completed server.trace with
  | atClient :: _, atServer :: _ => decide (SameTranscript atClient atServer)
  | _, _ => false

theorem shared_once {client server : Endpoint prim} (agree : agreeOnce client server = true) :
    Shared client server 1 := by
  intro index inside
  obtain rfl := Nat.lt_one_iff.mp inside
  unfold agreeOnce at agree
  split at agree
  · rename_i atClient _ atServer _ clientEnded serverEnded
    exact ⟨atClient, atServer, by rw [clientEnded]; rfl, by rw [serverEnded]; rfl, of_decide_eq_true agree⟩
  · cases agree

namespace Sample

/-- The answer to a client's key, and the hash both ends then sign and check. -/
def hybridPoint : Bytes := List.replicate 1120 0
def hybridKey : Bytes := List.replicate 1216 0
def hybridInit : KexInit := KexInit.ours .server [algo] (List.replicate 16 0)

def hybridHash : Bytes :=
  exchangeHash .transparent ident ident clientInit.encode hybridInit.encode hostBlob hybridKey hybridPoint
    (Writer.string (hybridSecret .transparent (List.replicate 32 1) (List.replicate 32 1)))

/-- One end's part of a handshake in which the other sends these packets. -/
def handshakeWith (first second : Bytes) : List (Env .transparent × Input) :=
  [.start, .arrive identLine, .wake, .arrive (plainPacket 0 first), .wake, .arrive (plainPacket 1 second), .wake,
    .arrive (plainPacket 2 [Msg.newKeys]), .wake].map (Prod.mk env)

def keyedClient : Endpoint .transparent :=
  Endpoint.after (.client [] "host") 0
    (handshakeWith hybridInit.encode (ecdhReplyPacket hostBlob hybridPoint (host.sign .transparent hybridHash)))

def keyedServer : Endpoint .transparent :=
  Endpoint.after (.server hostBlob none) 0 (handshakeWith clientInit.encode (ecdhInitPacket hybridKey))

end Sample

/-- A client and a server that end a first exchange with each other. -/
theorem both_ends_same_keys_once : SameKeys Sample.keyedClient Sample.keyedServer 1 :=
  both_ends_same_keys.2.1 [] "host" Sample.hostBlob none 0 0 _ _ 1 (shared_once (by decide +kernel))

end Ends

end Shh.Transport
