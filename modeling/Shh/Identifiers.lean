import Shh.Capacity

/-!
# Identifiers of channels

The loop names its channels by a counter of 32 bits that starts over when it has run
out. A new channel takes the next number, whether the peer asked for it or we did, and
nothing looks whether that number is still in use. So a channel that stays open while
four billion others come and go is met again by the counter, and the new one takes its
place in the table.

An identifier is safe from the counter for as long as it is one of the last
`2 ^ 32 - 1` that were given: the next one is then another. This is all that is needed,
and no less will do.
-/

namespace Shh.Connections

open List Wire Channels Runs Connection

variable {config : Config} {conn next : Connection} {payload : Bytes} {event : Event} {id : Nat}

/-- The identifier is that of a channel, established or asked for. -/
def Connection.Live (conn : Connection) (id : Nat) : Prop := id ∈ conn.channels ∨ id ∈ conn.pending

/-- The identifier that is given in a step. The counter moves for nothing else. -/
def Connection.gives (config : Config) (conn : Connection) (event : Event) : Option Nat :=
  match conn.step config event with
  | some next => if next.nextId = conn.nextId then none else some conn.nextId
  | none => none

/-- The identifier of the channel that a packet confirms, which leaves the table of those
asked for. -/
def Connection.confirms (conn : Connection) : Event → Option Nat
  | .packet _ payload _ =>
    if payload.headD 0 = Msg.channelOpenConfirmation then
      match openConfirmFields.parse payload with
      | .ok (ours, _) => if (conn.pending.lookup ours).isSome then some ours else none
      | .error _ => none
    else none
  | _ => none

/-- What a step enters in a table was in neither of them. A channel that is confirmed has
just left the one, and must not be in the other. -/
def Connection.EntersUnused (config : Config) (conn : Connection) (event : Event) : Prop :=
  (∀ id, conn.gives config event = some id → id ∉ conn.channels ∧ id ∉ conn.pending) ∧
    ∀ id, conn.confirms event = some id → id ∉ conn.channels

/-- A channel that is confirmed was asked for. -/
theorem confirms_pending (confirms : conn.confirms event = some id) : id ∈ conn.pending := by
  unfold Connection.confirms at confirms
  split at confirms
  · split at confirms
    · split at confirms
      · split at confirms
        · rename_i there
          cases confirms
          exact AList.lookup_isSome.mp there
        · cases confirms
      · cases confirms
    · cases confirms
  · cases confirms

section Entering

/-- What a step may enter. -/
inductive Entered (conn : Connection) (event : Event) : Connection → Prop where
  | nothing {next : Connection} (channels : ∀ id ∈ next.channels, id ∈ conn.channels)
      (pending : ∀ id ∈ next.pending, id ∈ conn.pending) (same : next.nextId = conn.nextId) : Entered conn event next
  | channel {next : Connection} (channels : ∀ id ∈ next.channels, id = conn.nextId ∨ id ∈ conn.channels)
      (pending : ∀ id ∈ next.pending, id ∈ conn.pending) (moved : next.nextId = (conn.nextId + 1) % 2 ^ 32) :
      Entered conn event next
  | request {next : Connection} (channels : ∀ id ∈ next.channels, id ∈ conn.channels)
      (pending : ∀ id ∈ next.pending, id = conn.nextId ∨ id ∈ conn.pending)
      (moved : next.nextId = (conn.nextId + 1) % 2 ^ 32) : Entered conn event next
  | confirmed {next : Connection} {ours : Nat} (confirms : conn.confirms event = some ours)
      (channels : ∀ id ∈ next.channels, id = ours ∨ id ∈ conn.channels)
      (pending : ∀ id ∈ next.pending, id ≠ ours ∧ id ∈ conn.pending) (same : next.nextId = conn.nextId) :
      Entered conn event next

/-- A step that leaves both tables and the counter. -/
theorem Entered.keeps (channels : next.channels = conn.channels) (pending : next.pending = conn.pending)
    (same : next.nextId = conn.nextId) : Entered conn event next := by
  refine .nothing ?_ ?_ same
  · rw [channels]
    exact fun _ member => member
  · rw [pending]
    exact fun _ member => member

theorem Entered.aside (same : Aside conn next) : Entered conn event next :=
  .keeps same.channels same.pending same.nextId

/-- The tables are emptied at the end of the connection, and the counter stays. -/
theorem Entered.falls (entered : Entered conn event next) : Entered conn event next.fallen := by
  have empty {α : Type} (id : Nat) (P : Prop) (member : id ∈ (∅ : Table Nat α)) : P :=
    absurd member (AList.notMem_empty id)
  cases entered with
  | nothing _ _ same => exact .nothing (fun id => empty id _) (fun id => empty id _) same
  | channel _ _ moved => exact .channel (fun id => empty id _) (fun id => empty id _) moved
  | request _ _ moved => exact .request (fun id => empty id _) (fun id => empty id _) moved
  | confirmed confirms _ _ same => exact .confirmed confirms (fun id => empty id _) (fun id => empty id _) same

/-- Only the tables and the counter matter. -/
theorem Entered.since {before : Connection} (entered : Entered before event next)
    (channels : before.channels = conn.channels) (pending : before.pending = conn.pending)
    (counter : before.nextId = conn.nextId) : Entered conn event next := by
  have named : before.confirms event = conn.confirms event := by
    unfold Connection.confirms
    rw [pending]
  cases entered with
  | nothing inside asked same =>
    rw [channels] at inside
    rw [pending] at asked
    exact .nothing inside asked (same.trans counter)
  | channel inside asked moved =>
    rw [channels, counter] at inside
    rw [pending] at asked
    exact .channel inside asked (by rw [moved, counter])
  | request inside asked moved =>
    rw [channels] at inside
    rw [pending, counter] at asked
    exact .request inside asked (by rw [moved, counter])
  | confirmed confirms inside asked same =>
    rw [channels] at inside
    rw [pending] at asked
    exact .confirmed (named.symm.trans confirms) inside asked (same.trans counter)

/-- What the loop makes of an event on a channel enters nothing. -/
theorem apply_entered {entry line turn} (there : conn.channel id = some (entry, line)) :
    Entered conn event (conn.apply id entry turn) := by
  obtain ⟨known, found, _⟩ := Option.bind_eq_some_iff.mp there
  refine .nothing (fun other member => ?_) (fun _ member => member) rfl
  simp only [apply] at member
  split at member
  · rcases (AList.mem_insert _).mp member with rfl | before
    · exact AList.mem_keys.mpr (found_mem_keys found)
    · exact before
  · exact (AList.mem_erase.mp member).2

theorem handled_entered {parked world} (handled : Handled config conn payload next) :
    Entered conn (.packet parked payload world) next := by
  cases handled with
  | aside same => exact .aside same
  | serves => exact .channel (fun id member => (AList.mem_insert _).mp member) (fun _ member => member) rfl
  | dials | replied | grants => exact .keeps rfl rfl rfl
  | @confirmed ours _ _ _ _ _ _ confirms asked _ read =>
    have named : conn.confirms (.packet parked payload world) = some ours := by
      simp only [Connection.confirms, if_pos confirms, read]
      exact if_pos (by rw [asked]; rfl)
    exact .confirmed named (fun id member => (AList.mem_insert _).mp member)
      (fun id member => AList.mem_erase.mp member) rfl
  | declined => exact .nothing (fun _ member => member) (fun id member => (AList.mem_erase.mp member).2) rfl
  | heard _ there => exact apply_entered there
  | bound same => exact .keeps same.channels same.pending same.nextId
  | unbound _ same => exact .keeps same.channels same.pending same.nextId

theorem order_entered (order : Order) : Entered conn event (conn.onOrder config order) := by
  cases order with
  | openTunnel | openSession =>
    simp only [onOrder]
    split
    · exact .keeps rfl rfl rfl
    · exact .request (fun _ member => member) (fun id member => (AList.mem_insert _).mp member) rfl
  | remoteForward => exact .keeps rfl rfl rfl
  | connected peerId peerWindow peerMax result =>
    cases result with
    | ok => exact .channel (fun id member => (AList.mem_insert _).mp member) (fun _ member => member) rfl
    | error => exact .keeps rfl rfl rfl
  | channel id cmd =>
    simp only [onOrder]
    split
    · exact .keeps rfl rfl rfl
    · rename_i entry line there
      exact apply_entered there

theorem step_entered (ran : conn.step config event = some next) : Entered conn event next := by
  have moved (after : Connection) (moves : Moves config conn event after) : Entered conn event after := by
    cases moves with
    | packet running ok => exact (handled_entered (packet_handled ok)).since rfl rfl rfl
    | broken | submit | dialEnds => exact .keeps rfl rfl rfl
    | order => exact (order_entered _).since rfl rfl rfl
    | tick running ok =>
      rcases tick_ok ok with same | same
      · exact .aside same
      · exact .keeps same.channels same.pending same.nextId
    | silent | fall => exact .keeps rfl rfl rfl
    | act ran =>
      obtain ⟨_, _, _, _, _, rfl⟩ := act_some ran
      exact .keeps rfl rfl rfl
  obtain ⟨after, moves, rfl | rfl⟩ := step_moves ran
  · exact moved _ moves
  · exact (moved _ moves).falls

end Entering

section Census

/-- A connection, with the identifiers that were given, oldest first. -/
structure Census where
  conn : Connection
  given : List Nat

namespace Census

def start : Census := ⟨.start, []⟩

def step (config : Config) (census : Census) (event : Event) : Option Census :=
  (census.conn.step config event).map fun next => ⟨next, census.given ++ (census.conn.gives config event).toList⟩

end Census

/-- The identifiers that were given last, all but one of those there are. -/
def recent (given : List Nat) : List Nat := given.rtake (2 ^ 32 - 1)

/-- Whatever is given in this state, every identifier in use was given recently. -/
def Census.RecentlyGiven (config : Config) (census : Census) (event : Event) : Prop :=
  (census.conn.gives config event).isSome = true → ∀ id, census.conn.Live id → id ∈ recent census.given

/-- The counter goes round, and what is in use was given. -/
structure Tallied (census : Census) : Prop where
  counter : census.conn.nextId = census.given.length % 2 ^ 32
  rounds : census.given = (List.range census.given.length).map (· % 2 ^ 32)
  known : ∀ id, census.conn.Live id → id ∈ census.given

/-- No channel is both established and asked for. -/
def Apart (conn : Connection) : Prop := ∀ id ∈ conn.channels, id ∉ conn.pending

variable {census : Census}

/-- Of the identifiers that were given, only the next one is not among the recent ones. -/
theorem recent_iff {given : List Nat} (rounds : given = (List.range given.length).map (· % 2 ^ 32)) (was : id ∈ given) :
    id ∈ recent given ↔ id ≠ given.length % 2 ^ 32 := by
  generalize total : given.length = count at rounds
  subst rounds
  have window : recent ((List.range count).map (· % 2 ^ 32)) =
      (List.range' (count - (2 ^ 32 - 1)) (count - (count - (2 ^ 32 - 1)))).map (· % 2 ^ 32) := by
    rw [recent, List.rtake, length_map, length_range, ← map_drop, range_eq_range', drop_range']
    simp
  obtain ⟨given, before, rfl⟩ := mem_map.mp was
  rw [mem_range] at before
  rw [window, mem_map]
  simp only [mem_range'_1]
  constructor
  · rintro ⟨other, inside, same⟩
    omega
  · intro apart
    -- Go back from the next number by as much as the two are apart.
    exact ⟨count - (count - given) % 2 ^ 32, by omega, by omega⟩

theorem gives_eq_some (ran : conn.step config event = some next) :
    conn.gives config event = some id ↔ next.nextId ≠ conn.nextId ∧ id = conn.nextId := by
  simp only [Connection.gives, ran]
  split
  · rename_i same
    exact ⟨(by simp), fun both => absurd same both.1⟩
  · rename_i moved
    exact ⟨fun same => ⟨moved, (Option.some.inj same).symm⟩, fun both => by rw [both.2]⟩

theorem gives_none (ran : conn.step config event = some next) (same : next.nextId = conn.nextId) :
    conn.gives config event = none := by
  simp only [Connection.gives, ran, if_pos same]

theorem gives_moved (ran : conn.step config event = some next) (moved : next.nextId = (conn.nextId + 1) % 2 ^ 32) :
    conn.gives config event = some conn.nextId :=
  (gives_eq_some ran).mpr ⟨by omega, rfl⟩

theorem gives_next (given : conn.gives config event = some id) : id = conn.nextId := by
  unfold Connection.gives at given
  split at given
  · split at given
    · cases given
    · exact (Option.some.inj given).symm
  · cases given

theorem tallied_start : Tallied .start where
  counter := rfl
  rounds := rfl
  known := by
    rintro id (member | member)
    all_goals exact absurd member (AList.notMem_empty id)

/-- A step that gives nothing. -/
theorem Tallied.still (tallied : Tallied census) (same : next.nextId = census.conn.nextId)
    (known : ∀ id, next.Live id → id ∈ census.given) : Tallied ⟨next, census.given⟩ :=
  ⟨same.trans tallied.counter, tallied.rounds, known⟩

/-- A step that gives the next identifier. -/
theorem Tallied.gives (tallied : Tallied census) (moved : next.nextId = (census.conn.nextId + 1) % 2 ^ 32)
    (known : ∀ id, next.Live id → id = census.conn.nextId ∨ census.conn.Live id) :
    Tallied ⟨next, census.given ++ [census.conn.nextId]⟩ where
  counter := by
    simp only [moved, tallied.counter, length_append, length_singleton]
    omega
  rounds := by
    dsimp only
    rw [length_append, length_singleton, range_succ, map_append, ← tallied.rounds, tallied.counter]
    rfl
  known := by
    intro id live
    rcases known id live with rfl | before
    · exact mem_append_right _ (mem_singleton.mpr rfl)
    · exact mem_append_left _ (tallied.known id before)

theorem tallied_step {later} (ran : census.step config event = some later) (tallied : Tallied census) :
    Tallied later := by
  obtain ⟨next, moved, rfl⟩ := Option.map_eq_some_iff.mp ran
  cases step_entered moved with
  | nothing channels pending same =>
    rw [gives_none moved same, Option.toList_none, append_nil]
    refine tallied.still same fun id live => tallied.known id ?_
    exact live.imp (channels id) (pending id)
  | channel channels pending counter =>
    rw [gives_moved moved counter, Option.toList_some]
    refine tallied.gives counter fun id live => ?_
    rcases live with member | member
    · exact (channels id member).imp_right .inl
    · exact .inr (.inr (pending id member))
  | request channels pending counter =>
    rw [gives_moved moved counter, Option.toList_some]
    refine tallied.gives counter fun id live => ?_
    rcases live with member | member
    · exact .inr (.inl (channels id member))
    · exact (pending id member).imp_right .inr
  | @confirmed ours confirms channels pending same =>
    rw [gives_none moved same, Option.toList_none, append_nil]
    refine tallied.still same fun id live => tallied.known id ?_
    rcases live with member | member
    · rcases channels id member with rfl | before
      · exact .inr (confirms_pending confirms)
      · exact .inl before
    · exact .inr (pending id member).2

theorem tallied_path {events} (path : Path (Census.step config) .start events census) : Tallied census :=
  path_invariant (fun _ => Tallied) tallied_start (fun _ _ _ _ _ ran tallied => tallied_step ran tallied) path

/-- What is given next is in no table exactly if all that is in the tables was given
recently. -/
theorem Tallied.unused_iff (tallied : Tallied census) :
    (census.conn.nextId ∉ census.conn.channels ∧ census.conn.nextId ∉ census.conn.pending) ↔
      ∀ id, census.conn.Live id → id ∈ recent census.given := by
  constructor
  · rintro ⟨unentered, unasked⟩ id live
    refine (recent_iff tallied.rounds (tallied.known id live)).mpr ?_
    rw [← tallied.counter]
    rintro rfl
    exact live.elim unentered unasked
  · intro lately
    have dead : ¬census.conn.Live census.conn.nextId := fun live =>
      (recent_iff tallied.rounds (tallied.known _ live)).mp (lately _ live) tallied.counter
    exact ⟨fun member => dead (.inl member), fun member => dead (.inr member)⟩

/-- While no identifier in use is given again, no channel is in both tables. -/
theorem apart_step (ran : conn.step config event = some next) (unused : conn.EntersUnused config event)
    (apart : Apart conn) : Apart next := by
  intro id entered asked
  cases step_entered ran with
  | nothing channels pending _ => exact apart id (channels id entered) (pending id asked)
  | channel channels pending moved =>
    rcases channels id entered with rfl | before
    · exact (unused.1 _ (gives_moved ran moved)).2 (pending _ asked)
    · exact apart id before (pending id asked)
  | request channels pending moved =>
    rcases pending id asked with rfl | before
    · exact (unused.1 _ (gives_moved ran moved)).1 (channels _ entered)
    · exact apart id (channels id entered) before
  | confirmed _ channels pending _ =>
    rcases channels id entered with rfl | before
    · exact (pending _ asked).1 rfl
    · exact apart id before (pending id asked).2

/-- The condition on what was given makes an entry unused, as long as the tables are
apart. -/
theorem Tallied.enters_unused (tallied : Tallied census) (apart : Apart census.conn)
    (lately : census.RecentlyGiven config event) : census.conn.EntersUnused config event := by
  constructor
  · intro id given
    obtain rfl := gives_next given
    exact tallied.unused_iff.mpr (lately (by rw [given]; rfl))
  · intro id confirms entered
    exact apart id entered (confirms_pending confirms)

/-- In every run, whatever its length, each identifier that is entered in a table is in
use nowhere, exactly if no identifier is given while one is in use that was given
`2 ^ 32` identifiers ago or earlier. -/
theorem identifiers_unused_iff (config : Config) (events : List Event) :
    Throughout (Census.step config) .start (fun census event => census.conn.EntersUnused config event) events ↔
      Throughout (Census.step config) .start (Census.RecentlyGiven config) events := by
  constructor
  · intro unused past event rest census split path given
    obtain ⟨id, given⟩ := Option.isSome_iff_exists.mp given
    have free := (unused past event rest census split path).1 id given
    rw [gives_next given] at free
    exact (tallied_path path).unused_iff.mp free
  · intro lately past event rest census split path
    -- By induction on the run: the tables are apart as far as it went.
    have apart : Throughout (Census.step config) .start (Census.RecentlyGiven config) past → Apart census.conn := by
      refine path_invariant (fun past census => Throughout (Census.step config) .start
        (Census.RecentlyGiven config) past → Apart census.conn) ?_ ?_ path
      · intro _ id member
        exact absurd member (AList.notMem_empty id)
      · intro past census event later earlier ran apart lately
        obtain ⟨next, moved, rfl⟩ := Option.map_eq_some_iff.mp ran
        have unused := (tallied_path earlier).enters_unused (apart lately.earlier)
          (lately past event [] census rfl earlier)
        exact apart_step moved unused (apart lately.earlier)
    rw [split] at lately
    exact (tallied_path path).enters_unused (apart lately.earlier) (lately past event rest census rfl path)

end Census

section Collision

/-- A client opens a session of its own, and the peer declines. -/
def declinedRound (id : Nat) : List Event :=
  [.submit (.openSession ⟨none, none, none, false⟩ false false), .order,
    .packet false (openFailurePacket id connectFailed "") ⟨none, none⟩]

/-- The peer asks for a session. -/
def sessionOpen : Event := .packet false (openPacket "session" 0) ⟨none, none⟩

/-- Nothing is under way but the channels there are. -/
structure Resting (conn : Connection) : Prop where
  running : conn.done = false
  orders : conn.orders = []
  pending : conn.pending = ∅
  connects : conn.pendingConnects = 0

theorem failure_read {reason description} (bound : id < 2 ^ 32) (small : reason < 2 ^ 32) :
    openFailureFields.parse (openFailurePacket id reason description) = .ok id := by
  let rest : Bytes := Writer.utf8 description ++ Writer.utf8 ""
  refine Reader.parse_ok.mpr ⟨rest, ?_⟩
  refine (Reader.byte_bind_ok _ _ _).mpr ⟨Msg.channelOpenFailure, Writer.u32 id ++ (Writer.u32 reason ++ rest), ?_, ?_⟩
  · simp [openFailurePacket, chanPacket, Writer.byte, rest, append_assoc]
  refine (Reader.u32_bind_ok _ _ _).mpr ⟨id, Writer.u32 reason ++ rest, ⟨rfl, bound⟩, ?_⟩
  exact (Reader.u32_bind_ok _ _ _).mpr ⟨reason, rest, ⟨rfl, small⟩, rfl⟩

/-- A round leaves everything as it was but the counter. -/
theorem declined_round (resting : Resting conn) (few : conn.channels.keys.length < maxChannels)
    (bound : conn.nextId < 2 ^ 32) :
    ∃ next, Path (Connection.step config) conn (declinedRound conn.nextId) next ∧ Resting next ∧
      next.channels = conn.channels ∧ next.workers = conn.workers ∧ next.nextId = (conn.nextId + 1) % 2 ^ 32 := by
  let order : Order := .openSession ⟨none, none, none, false⟩ false false
  let asked : Connection := { conn with orders := [order] }
  let opened : Connection :=
    { conn with
      nextId := (conn.nextId + 1) % 2 ^ 32
      pending := conn.pending.insert conn.nextId (.session ⟨none, none, none, false⟩ false false)
      sent := conn.sent ++ [openPacket "session" conn.nextId] }
  let declined : Connection := { opened with pending := ∅, recvSinceTick := opened.recvSinceTick || !false }
  have submits : conn.step config (.submit order) = some asked := by
    simp only [step, resting.running, submits, resting.orders, nil_append, true_and, if_true, order, asked]
  have opens : asked.step config .order = some opened := by
    refine step_order rfl ?_ resting.running
    have room : ¬maxChannels ≤ load { conn with orders := [] } := by
      simp only [load, resting.pending, resting.connects, AList.keys_empty, length_nil]
      omega
    simp only [asked, order, onOrder, if_neg room, allocId, Connection.send, opened, resting.orders]
  have declines : opened.step config (.packet false (openFailurePacket conn.nextId connectFailed "") ⟨none, none⟩) =
      some declined := by
    refine step_packet resting.running ?_ resting.running
    have kind : onPacket config (opened.marked false) ⟨none, none⟩
        (openFailurePacket conn.nextId connectFailed "") =
      onOpenFailure (opened.marked false)
        (openFailurePacket conn.nextId connectFailed "") := rfl
    rw [kind, onOpenFailure, failure_read bound (by decide)]
    simp only [bind, Except.bind, opened, resting.pending, AList.lookup_insert, erase_insert_empty, declined]
    rfl
  exact ⟨declined, .cons submits (.cons opens (.cons declines .nil)),
    ⟨resting.running, resting.orders, rfl, resting.connects⟩,
    rfl, rfl, rfl⟩

/-- Any number of rounds. -/
theorem declined_rounds (count : Nat) (resting : Resting conn) (few : conn.channels.keys.length < maxChannels)
    (bound : conn.nextId < 2 ^ 32) :
    ∃ events next, Path (Connection.step config) conn events next ∧ Resting next ∧
      next.channels = conn.channels ∧ next.workers = conn.workers ∧ next.nextId = (conn.nextId + count) % 2 ^ 32 := by
  induction count with
  | zero => exact ⟨[], conn, .nil, resting, rfl, rfl, (Nat.mod_eq_of_lt bound).symm⟩
  | succ count ih =>
    obtain ⟨events, middle, path, rests, same, served, counter⟩ := ih
    have within : middle.nextId < 2 ^ 32 := by omega
    obtain ⟨next, round, still, kept, serves, moved⟩ := declined_round rests (same ▸ few) within
    refine ⟨events ++ declinedRound middle.nextId, next, path.trans round, still, kept.trans same,
      serves.trans served, ?_⟩
    rw [moved, counter]
    omega

/-- The peer gets its session, under the next identifier. -/
theorem session_opens (running : conn.done = false) (room : conn.load < maxChannels) :
    conn.step openServer sessionOpen = some (spawnSessionServer openServer
      { conn with
        recvSinceTick := conn.recvSinceTick || !false
        nextId := (conn.nextId + 1) % 2 ^ 32
        sent := conn.sent ++ [openConfirmPacket 0 conn.nextId] } conn.nextId 0 localWindow maxChunk) := by
  refine step_packet running ?_ running
  have header : openHeader (openPacket "session" 0) = .ok (("session", 0, localWindow, maxChunk),
    []) := by decide +kernel
  have kind : onPacket openServer (conn.marked false) ⟨none, none⟩
      (openPacket "session" 0) =
    onChannelOpen openServer (conn.marked false) (openPacket "session" 0) := rfl
  have fits : ¬maxChannels ≤ load (conn.marked false) := Nat.not_le.mpr room
  rw [kind, onChannelOpen, header]
  simp only [bind, Except.bind, if_neg fits]
  rfl

/-- The peer opens a session and keeps it, and is asked for so many others that the
counter comes round. The next session it opens takes the place of the first, whose task is
cut off. -/
theorem identifier_given_twice : ∃ events conn next, Path (Connection.step openServer) .start events conn ∧
    conn.step openServer sessionOpen = some next ∧ conn.gives openServer sessionOpen = some 0 ∧ 0 ∈ conn.channels ∧
    (conn.channels.lookup 0).map Entry.worker = some 0 ∧ (next.channels.lookup 0).map Entry.worker = some 1 := by
  have opened := @session_opens .start rfl (by decide)
  generalize kept : spawnSessionServer openServer _ _ _ _ _ = first at opened
  have rests : Resting first := by
    subst kept
    exact ⟨rfl, rfl, rfl, rfl⟩
  have entered : first.channels = (∅ : Table Nat Entry).insert 0 ⟨.make 0 true false, 0⟩ := by
    subst kept
    rfl
  have single : first.channels.keys.length < maxChannels := by
    rw [entered]
    decide
  have counter : first.nextId = 1 := by
    subst kept
    rfl
  have served : first.workers.length = 1 := by
    subst kept
    rfl
  obtain ⟨events, conn, path, still, same, serves, round⟩ :=
    @declined_rounds openServer first (2 ^ 32 - 1) rests single (by rw [counter]; decide)
  have again : conn.nextId = 0 := by
    rw [round, counter]
    rfl
  have known : conn.channels.lookup 0 = some ⟨.make 0 true false, 0⟩ := by
    rw [same, entered, AList.lookup_insert]
  have room : conn.load < maxChannels := by
    simp only [load, same, still.pending, still.connects, AList.keys_empty, length_nil]
    exact single
  have reopened := session_opens still.running room
  refine ⟨sessionOpen :: events, conn, _, .cons opened path, reopened, ?_, ?_, ?_, ?_⟩
  · refine (gives_eq_some reopened).mpr ⟨?_, again.symm⟩
    show (conn.nextId + 1) % 2 ^ 32 ≠ conn.nextId
    rw [again]
    decide
  · exact AList.lookup_isSome.mp (by rw [known]; rfl)
  · rw [known]
    rfl
  · simp only [spawnSessionServer, spawn, again, AList.lookup_insert, Option.map_some, serves, served]

end Collision

end Shh.Connections
