import Shh.Unasked

/-!
# How much a connection holds at once

The loop counts its channels, those it has asked for, and the connects it has under way
for its peer, and opens nothing new once the limit is reached. The connects are counted
by hand: one more when a connect is started, one less when its report is processed, and
their reports come whenever they come. The count is right as long as the loop runs, so
taking one off never meets zero, and the limit holds whatever the order of events.

The limit is on the loop's table. A forwarded stream holds its socket for as long as its
task runs, and the table forgets a channel as soon as both sides have closed it: a task
that still reads from a silent target is then counted nowhere. The second half bounds the
tasks themselves, for runs in which the peer closes a stream only once its task is done
and no identifier comes round again while it is in use.
-/

namespace Shh.Connections

open List Option Wire Reader Channels Runs Computations Connection

variable {config : Config} {conn next : Connection} {world : World} {payload : Bytes} {event : Event}

variable {order : Order} {rest : List Order} {id : Nat}

section Tables

variable {κ α : Type} [DecidableEq κ] {table : Table κ α} {key : κ} {value : α}

theorem found_mem_keys (found : table.lookup key = some value) : key ∈ table.keys := by
  rw [← AList.mem_keys, ← AList.lookup_isSome, found]
  rfl

theorem insert_length_le (table : Table κ α) (key : κ) (value : α) :
    (table.insert key value).keys.length ≤ table.keys.length + 1 := by
  rw [AList.keys_insert, length_cons]
  exact Nat.succ_le_succ (length_erase_le)

theorem insert_found_length {other} (found : table.lookup key = some value) :
    (table.insert key other).keys.length = table.keys.length := by
  have member := found_mem_keys found
  rw [AList.keys_insert, length_cons, length_erase_of_mem member]
  exact Nat.sub_add_cancel (length_pos_of_mem member)

theorem erase_length_le (table : Table κ α) (key : κ) : (table.erase key).keys.length ≤ table.keys.length := by
  rw [AList.keys_erase]
  exact length_erase_le

theorem erase_found_length (found : table.lookup key = some value) :
    (table.erase key).keys.length + 1 = table.keys.length := by
  have member := found_mem_keys found
  rw [AList.keys_erase, length_erase_of_mem member]
  exact Nat.sub_add_cancel (length_pos_of_mem member)

end Tables

/-- While the connection runs, and once it is over. -/
def Lives (Live Over : Connection → Prop) (conn : Connection) : Prop :=
  (conn.done = false → Live conn) ∧ (conn.done = true → Over conn)

/-- The order reports how a connect ended. -/
def Order.reportsConnect : Order → Bool
  | .connected _ _ _ _ => true
  | _ => false

/-- Connects that were started and whose report was not processed: those under way, and
those whose report is queued. -/
def Connection.awaited (conn : Connection) : Nat := conn.dials.length + conn.orders.countP Order.reportsConnect

/-- What holds while the connection runs. -/
structure Counted (conn : Connection) : Prop where
  within : conn.load ≤ maxChannels
  connects : conn.pendingConnects = conn.awaited

/-- What holds once it is over: there are no channels, and no orders but for channels. -/
structure Spent (conn : Connection) : Prop where
  within : conn.load ≤ maxChannels
  channels : conn.channels = ∅
  orders : ∀ order ∈ conn.orders, ∃ id cmd, order = .channel id cmd

theorem fallen_spent (within : conn.load ≤ maxChannels) : Spent conn.fallen where
  within := by
    simp only [load, fallen, AList.keys_empty, length_nil] at within ⊢
    omega
  channels := rfl
  orders := nofun

theorem Counted.falls (counted : Counted conn) : Spent conn.fallen := fallen_spent counted.within

/-- Nobody is there to take an order. -/
theorem Spent.carries (spent : Spent conn) (queued : conn.orders = order :: rest) :
    { conn with orders := rest }.onOrder config order = { conn with orders := rest } := by
  obtain ⟨id, cmd, rfl⟩ := spent.orders order (queued ▸ mem_cons_self)
  have absent : channel { conn with orders := rest } id = none := by
    simp only [channel, spent.channels, AList.lookup_empty]
    rfl
  simp only [onOrder, absent]

theorem Counted.aside (counted : Counted conn) (same : Aside conn next) : Counted next := by
  constructor
  · rw [load, same.channels, same.pending, same.pendingConnects]
    exact counted.within
  · rw [awaited, same.pendingConnects, same.dials, same.orders]
    exact counted.connects

/-- A channel is entered, for a place that was free or was given up. -/
theorem Counted.spawns {peer window max task endOnClose}
    (room : conn.load < maxChannels) (connects : conn.pendingConnects = conn.awaited) :
    Counted (conn.spawn config id peer window max task endOnClose) := by
  refine ⟨?_, connects⟩
  have grown := insert_length_le conn.channels id ⟨.make peer task.isSession endOnClose, conn.workers.length⟩
  simp only [load, spawn] at room ⊢
  omega

theorem Counted.applies {entry line turn} (counted : Counted conn)
    (there : conn.channel id = some (entry, line)) : Counted (conn.apply id entry turn) := by
  refine ⟨?_, counted.connects⟩
  obtain ⟨known, found, _⟩ := bind_eq_some_iff.mp there
  have within := counted.within
  simp only [load, apply] at within ⊢
  split
  · rw [insert_found_length found]
    exact within
  · have shrunk := erase_length_le conn.channels id
    omega

theorem Counted.handles (counted : Counted conn) (handled : Handled config conn payload next) : Counted next := by
  have within := counted.within
  cases handled with
  | aside same => exact counted.aside same
  | serves asked =>
    have room : conn.load < maxChannels := by
      simp only [asksSession, Bool.and_eq_true, decide_eq_true_eq] at asked
      exact asked.1.1.2
    exact Counted.spawns room counted.connects
  | dials room licensed =>
    refine ⟨?_, ?_⟩
    · simp only [load, spawnConnect] at room ⊢
      omega
    · have connects := counted.connects
      simp only [awaited, spawnConnect, length_append, length_singleton] at connects ⊢
      omega
  | @confirmed ours _ _ _ _ _ _ confirms asked kind read =>
    have room : load { conn with pending := conn.pending.erase ours } < maxChannels := by
      have shrunk := erase_found_length asked
      simp only [load] at within ⊢
      omega
    exact Counted.spawns room counted.connects
  | @declined ours done =>
    refine ⟨?_, counted.connects⟩
    have shrunk := erase_length_le conn.pending ours
    simp only [load] at within ⊢
    omega
  | heard read there ok => exact counted.applies there
  | bound same permitted => exact ⟨(counted.aside same).within, (counted.aside same).connects⟩
  | @unbound _ key handle found same =>
    have closed : Counted { conn with
        listeners := conn.listeners.erase key, effects := conn.effects ++ [.closed handle] } := { counted with }
    exact closed.aside same
  | replied | grants => exact { counted with }

theorem Counted.carries (counted : Counted conn) (queued : conn.orders = order :: rest) :
    Counted ({ conn with orders := rest }.onOrder config order) := by
  have within := counted.within
  have connects := counted.connects
  rw [awaited, queued] at connects
  -- Any order but a report leaves the connects that are awaited.
  have others (other : order.reportsConnect = false) : Counted { conn with orders := rest } := by
    refine ⟨within, ?_⟩
    rw [countP_cons_of_neg (by rw [other]; exact Bool.false_ne_true)] at connects
    exact connects
  -- One more channel is asked for, if there is room.
  have asks {id pending} (room : ¬maxChannels ≤ conn.load) :
      (conn.pending.insert id pending).keys.length + conn.channels.keys.length + conn.pendingConnects ≤ maxChannels := by
    have grown := insert_length_le conn.pending id pending
    simp only [load] at room
    omega
  cases order with
  | openTunnel kind addr port origHost origPort =>
    have kept := others rfl
    simp only [onOrder]
    split
    · exact { kept with }
    · rename_i room
      refine ⟨?_, kept.connects⟩
      have asked := @asks conn.nextId .direct room
      simp only [load, Connection.send, allocId]
      omega
  | remoteForward bind port targetHost targetPort =>
    have kept := others rfl
    exact { kept with }
  | openSession spec resizing endOnClose =>
    have kept := others rfl
    simp only [onOrder]
    split
    · exact kept
    · rename_i room
      refine ⟨?_, kept.connects⟩
      have asked := @asks conn.nextId (.session spec resizing endOnClose) room
      simp only [load, Connection.send, allocId]
      omega
  | connected peerId peerWindow peerMax result =>
    rw [countP_cons_of_pos rfl] at connects
    have fewer : conn.pendingConnects - 1 = conn.dials.length + rest.countP Order.reportsConnect := by omega
    cases result with
    | ok =>
      have room : load { conn with pendingConnects := conn.pendingConnects - 1 } < maxChannels := by
        simp only [load] at within ⊢
        omega
      exact Counted.spawns room fewer
    | error reason =>
      refine ⟨?_, fewer⟩
      simp only [onOrder, rejectOpen, Connection.send, load] at within ⊢
      omega
  | channel id cmd =>
    have kept := others rfl
    simp only [onOrder]
    split
    · exact kept
    · rename_i entry line there
      exact kept.applies there

/-- A task asks only for its channel. -/
theorem act_awaited {index label} (ran : conn.act index label = some next) :
    next.awaited = conn.awaited := by
  obtain ⟨worker, task, line, _, _, rfl⟩ := act_some ran
  have none_ : (line.cmds.map (Order.channel worker.id)).countP Order.reportsConnect = 0 := by
    refine countP_eq_zero.mpr fun order member => ?_
    obtain ⟨_, _, rfl⟩ := mem_map.mp member
    exact Bool.false_ne_true
  simp only [awaited, countP_append, none_, Nat.add_zero]

/-- A connection that is over stays so. -/
theorem step_done (ran : conn.step config event = some next) (done : conn.done = true) : next.done = true := by
  obtain ⟨after, moves, rfl | rfl⟩ := step_moves ran
  · cases moves with
    | packet running | broken running | tick running | silent running | fall running | submit running =>
      cases running.symm.trans done
    | @order order rest queued =>
      cases order with
      | connected _ _ _ result => cases result <;> exact done
      | _ => grind [onOrder, allocId, Connection.send, apply]
    | act ran =>
      obtain ⟨worker, task, line, _, _, rfl⟩ := act_some ran
      exact done
    | dialEnds => exact done
  · rfl

/-- What holds while the connection runs is to be shown for what an event comes to, and
what holds once it is over for the orders that are left. -/
theorem lives_step {Live Over : Connection → Prop} (falls : ∀ conn, Live conn → Over conn.fallen)
    (moves : Live conn → conn.done = false → ∀ after, Moves config conn event after → Live after)
    (rests : conn.done = true → Over conn → Over next) (ran : conn.step config event = some next)
    (lives : Lives Live Over conn) : Lives Live Over next := by
  cases done : conn.done with
  | true =>
    have ended := step_done ran done
    exact ⟨fun running => (by cases running.symm.trans ended), fun _ => rests done (lives.2 done)⟩
  | false =>
    obtain ⟨after, comes, ⟨rfl, going⟩ | rfl⟩ := step_settles ran
    · exact ⟨fun _ => moves (lives.1 done) done _ comes, fun ended => by cases (going done).symm.trans ended⟩
    · exact ⟨fun running => (by cases running), fun _ => falls _ (moves (lives.1 done) done _ comes)⟩

/-- What is left to do once the connection is over. -/
theorem spent_step (ran : conn.step config event = some next) (done : conn.done = true)
    (spent : Spent conn) : Spent next := by
  obtain ⟨after, moves, same⟩ := step_moves ran
  have carried : Spent after := by
    cases moves with
    | packet running | broken running | tick running | silent running | fall running | submit running =>
      cases running.symm.trans done
    | order queued =>
      rw [spent.carries queued]
      exact { spent with orders := fun order member => spent.orders order (queued ▸ mem_cons_of_mem _ member) }
    | act ran =>
      obtain ⟨worker, task, line, _, _, rfl⟩ := act_some ran
      refine { spent with orders := fun order member => ?_ }
      rcases mem_append.mp member with before | queued
      · exact spent.orders order before
      · obtain ⟨cmd, _, rfl⟩ := mem_map.mp queued
        exact ⟨worker.id, cmd, rfl⟩
    | dialEnds there =>
      refine { spent with orders := ?_ }
      rw [if_pos done]
      exact spent.orders
  rcases same with rfl | rfl
  · exact carried
  · exact fallen_spent carried.within

theorem Counted.moves (counted : Counted conn) (running : conn.done = false) (moves : Moves config conn event next) :
    Counted next := by
  have connects := counted.connects
  cases moves with
  | packet running ok =>
    refine Counted.handles ?_ (packet_handled ok)
    exact { counted with }
  | broken | silent | fall => exact { counted with }
  | order queued => exact counted.carries queued
  | tick running ok =>
    rcases tick_ok ok with same | same
    · exact counted.aside same
    · refine Counted.aside ?_ same
      exact { counted with }
  | @submit order _ running able =>
    refine ⟨counted.within, ?_⟩
    -- A report is not to be had from outside.
    have plain : order.reportsConnect = false := by
      cases order with
      | connected => cases able
      | openTunnel | remoteForward | openSession | channel => rfl
    simp only [awaited, countP_append, countP_singleton, plain] at connects ⊢
    exact connects
  | act ran =>
    have same := act_awaited ran
    obtain ⟨worker, task, line, _, _, rfl⟩ := act_some ran
    exact ⟨counted.within, same.symm ▸ connects⟩
  | dialEnds there =>
    have inside := (List.getElem?_eq_some_iff.mp there).1
    refine ⟨counted.within, ?_⟩
    simp only [awaited] at connects ⊢
    rw [running, length_eraseIdx_of_lt inside]
    simp only [Bool.false_eq_true, if_false, countP_append, countP_singleton, Order.reportsConnect, if_true]
    omega

theorem counted_step (ran : conn.step config event = some next) (lives : Lives Counted Spent conn) :
    Lives Counted Spent next :=
  lives_step (fun _ => Counted.falls) (fun counted running _ => counted.moves running) (spent_step ran) ran lives

theorem counted_path {events} (path : Path (Connection.step config) .start events conn) :
    Lives Counted Spent conn := by
  refine path_invariant (fun _ => Lives Counted Spent) ?_ (fun _ _ _ _ _ ran lives => counted_step ran lives) path
  exact ⟨fun _ => ⟨Nat.zero_le _, rfl⟩, nofun⟩

/-- Whatever the order of events, the limit on channels holds, the loop's count of connects
is the number of those whose report it has not processed, and it never takes one off from
none. -/
theorem channel_cap_holds {events : List Event} (path : Path (Connection.step config) .start events conn) :
    conn.channels.keys.length + conn.pending.keys.length + conn.pendingConnects ≤ maxChannels ∧
      (conn.done = false → conn.pendingConnects = conn.awaited) ∧
      ∀ peerId peerWindow peerMax result rest, conn.orders = .connected peerId peerWindow peerMax result :: rest →
        0 < conn.pendingConnects := by
  have lives := counted_path path
  cases done : conn.done with
  | true =>
    refine ⟨(lives.2 done).within, nofun, ?_⟩
    intro peerId peerWindow peerMax result rest queued
    obtain ⟨id, cmd, other⟩ := (lives.2 done).orders _ (queued ▸ mem_cons_self)
    cases other
  | false =>
    refine ⟨(lives.1 done).within, fun _ => (lives.1 done).connects, ?_⟩
    intro peerId peerWindow peerMax result rest queued
    rw [(lives.1 done).connects, awaited, queued, countP_cons_of_pos rfl]
    omega

/-- A server that connects anywhere for its clients. -/
def openServer : Config where
  platform := ⟨true, true⟩
  policy := .allowAll
  listenPolicy := .denyAll
  agentPath := none
  forceCommand := none
  permitAgent := false
  keepaliveMaxMissed := 3

/-- The peer asks for a stream to a target that will stay silent. -/
def tunnelOpen : Bytes :=
  openPacket "direct-tcpip" 0 ++ (Writer.utf8 "silent" ++ Writer.u32 80 ++ Writer.utf8 "" ++ Writer.u32 0)

/-- A stream is opened to its target, and another one is on its way. -/
def streamsOpened : List Event :=
  [.packet false tunnelOpen ⟨none, none⟩, .dialEnds 0 (.ok ()), .order, .packet false tunnelOpen ⟨none, none⟩]

theorem channel_cap_two : ∃ conn : Connection, conn.pendingConnects = 1 ∧ conn.channels.keys.length = 1 ∧
    conn.pendingConnects = conn.awaited ∧
    conn.channels.keys.length + conn.pending.keys.length + conn.pendingConnects ≤ maxChannels := by
  have holds := channel_cap_holds
    (@path_of_some _ _ (Connection.step openServer) .start streamsOpened (by decide +kernel))
  exact ⟨_, by decide +kernel, by decide +kernel, holds.2.1 (by decide +kernel), holds.1⟩

section Sockets

variable {id index count : Nat} {task : Task} {chan : Chan} {line : Line} {turn : Turn} {label : Task.Label}

/-- The task of a forwarded stream holds its socket for as long as it runs. -/
def Worker.holdsSocket (worker : Worker) : Bool :=
  match worker.task with
  | .forward task => task.running
  | _ => false

/-- Forwarded streams that hold a socket. -/
def Connection.sockets (conn : Connection) : Nat := conn.workers.countP Worker.holdsSocket

/-- The channel is that of a stream whose task still runs. -/
def Connection.busy (conn : Connection) (id : Nat) : Bool :=
  match conn.channels.lookup id with
  | some entry => conn.workers[entry.worker]?.any Worker.holdsSocket
  | none => false

/-- No channel has the identifier. -/
def Connection.free (conn : Connection) (id : Nat) : Bool := (conn.channels.lookup id).isNone

/-- The packet closes no stream under its running task, and gives no channel an identifier
that another one has. -/
def Connection.tamePacket (config : Config) (conn : Connection) (payload : Bytes) : Bool :=
  (match channelMessage.parse payload with
    | .ok (id, .close) => !conn.busy id
    | _ => true) &&
  (!conn.asksSession config payload || conn.free conn.nextId) &&
  (match openConfirmFields.parse payload with
    | .ok (ours, _) => payload.headD 0 ≠ Msg.channelOpenConfirmation || conn.free ours
    | .error _ => true)

/-- The event does neither. -/
def Connection.tame (config : Config) (conn : Connection) : Event → Bool
  | .packet _ payload _ => conn.tamePacket config payload
  | .order =>
    match conn.orders with
    | .connected _ _ _ (.ok _) :: _ => conn.free conn.nextId
    | _ => true
  | _ => true

/-- The table has every stream that holds a socket. -/
structure Pointed (conn : Connection) : Prop where
  unclosed : ∀ id entry, conn.channels.lookup id = some entry → entry.chan.peerClosed = false
  pointed : ∀ index worker, conn.workers[index]? = some worker → worker.holdsSocket = true →
    ∃ id entry, conn.channels.lookup id = some entry ∧ entry.worker = index

/-- Different streams have different entries. -/
theorem Pointed.sockets_le (pointed : Pointed conn) : conn.sockets ≤ conn.channels.keys.length := by
  let held := (conn.workers.zipIdx.filter fun pair => pair.1.holdsSocket).map Prod.snd
  have distinct : held.Nodup := by
    have ordered : (conn.workers.zipIdx.map Prod.snd).Nodup := by
      rw [zipIdx_map_snd]
      exact nodup_range'
    exact ordered.sublist (filter_sublist.map _)
  have counted : held.length = conn.sockets := by
    have all : conn.workers = conn.workers.zipIdx.map Prod.fst := (zipIdx_map_fst _ _).symm
    rw [sockets, all, countP_map, countP_eq_length_filter, length_map]
    rfl
  have entered : held ⊆ conn.channels.entries.map fun entry => entry.2.worker := by
    intro index member
    obtain ⟨⟨worker, position⟩, kept, rfl⟩ := mem_map.mp member
    obtain ⟨there, holds⟩ := mem_filter.mp kept
    obtain ⟨id, entry, found, same⟩ := pointed.pointed position worker (mem_zipIdx_iff_getElem?.mp there) holds
    exact mem_map.mpr ⟨⟨id, entry⟩, AList.mem_lookup_iff.mp found, same⟩
  calc conn.sockets = held.length := counted.symm
    _ ≤ (conn.channels.entries.map fun entry => entry.2.worker).length := (subperm_of_subset distinct entered).length_le
    _ = conn.channels.keys.length := by simp [AList.keys, List.keys]

theorem Pointed.aside (pointed : Pointed conn) (same : Aside conn next) : Pointed next := by
  constructor
  · rw [same.channels]
    exact pointed.unclosed
  · rw [same.channels, same.workers]
    exact pointed.pointed

theorem Pointed.spawns {peer window max endOnClose} (pointed : Pointed conn)
    (unused : conn.free id = true) : Pointed (conn.spawn config id peer window max task endOnClose) := by
  have absent : conn.channels.lookup id = none := isNone_iff_eq_none.mp unused
  have other {key entry} (found : conn.channels.lookup key = some entry) : key ≠ id := by
    rintro rfl
    cases absent.symm.trans found
  simp only [spawn, absent]
  constructor
  · intro key entry found
    by_cases same : key = id
    · subst same
      rw [AList.lookup_insert] at found
      cases found
      rfl
    · rw [AList.lookup_insert_ne same] at found
      exact pointed.unclosed key entry found
  · intro index worker there holds
    rcases Nat.lt_or_ge index conn.workers.length with before | after
    · rw [List.getElem?_append_left before] at there
      obtain ⟨key, entry, found, same⟩ := pointed.pointed index worker there holds
      exact ⟨key, entry, (AList.lookup_insert_ne (other found)).trans found, same⟩
    · have last : index = conn.workers.length := by
        have bound := (List.getElem?_eq_some_iff.mp there).1
        rw [length_append, length_singleton] at bound
        omega
      exact ⟨id, _, AList.lookup_insert _, last.symm⟩

/-- Only the peer's CLOSE drops a channel that the peer had not closed. -/
theorem deliver_unclosed {platform message}
    (unclosed : chan.peerClosed = false) (ok : chan.deliver platform line message = .ok turn) :
    (∀ kept, turn.chan = some kept → kept.peerClosed = false) ∧ (turn.chan = none → message = .close) := by
  cases message <;> grind

/-- A command drops no channel that the peer had not closed. -/
theorem command_unclosed (unclosed : chan.peerClosed = false) (cmd : Cmd) :
    ∃ kept, (chan.command line cmd).chan = some kept ∧ kept.peerClosed = false := by
  generalize turned : chan.command line cmd = turn
  cases cmd <;> grind

theorem Pointed.applies {entry : Entry} (pointed : Pointed conn)
    (there : conn.channel id = some (entry, line)) (unclosed : ∀ kept, turn.chan = some kept → kept.peerClosed = false)
    (idle : turn.chan = none → conn.busy id = false) : Pointed (conn.apply id entry turn) := by
  obtain ⟨known, found, rest⟩ := bind_eq_some_iff.mp there
  obtain ⟨served, working, same⟩ := bind_eq_some_iff.mp rest
  obtain ⟨rfl, _⟩ := Prod.mk.inj (Option.some.inj same)
  -- Lines change, and tasks do not.
  have before {index : Nat} {worker : Worker} (at_ : (conn.apply id known turn).workers[index]? = some worker) :
      ∃ old, conn.workers[index]? = some old ∧ old.holdsSocket = worker.holdsSocket := by
    simp only [apply, List.getElem?_modify] at at_
    obtain ⟨old, here, rfl⟩ := map_eq_some_iff.mp at_
    refine ⟨old, here, ?_⟩
    split <;> rfl
  cases kept : turn.chan with
  | some chan =>
    constructor
    · intro key entry other
      simp only [apply, kept] at other
      by_cases here : key = id
      · subst here
        rw [AList.lookup_insert] at other
        cases other
        exact unclosed chan kept
      · rw [AList.lookup_insert_ne here] at other
        exact pointed.unclosed key entry other
    · intro index worker at_ holds
      obtain ⟨old, was, alike⟩ := before at_
      obtain ⟨key, entry, other, points⟩ := pointed.pointed index old was (alike.trans holds)
      simp only [apply, kept]
      by_cases here : key = id
      · subst here
        cases found.symm.trans other
        exact ⟨key, _, AList.lookup_insert _, points⟩
      · exact ⟨key, entry, (AList.lookup_insert_ne here).trans other, points⟩
  | none =>
    constructor
    · intro key entry other
      simp only [apply, kept] at other
      by_cases here : key = id
      · subst here
        cases (AList.lookup_erase _ _).symm.trans other
      · rw [AList.lookup_erase_ne here] at other
        exact pointed.unclosed key entry other
    · intro index worker at_ holds
      obtain ⟨old, was, alike⟩ := before at_
      obtain ⟨key, entry, other, points⟩ := pointed.pointed index old was (alike.trans holds)
      have here : key ≠ id := by
        rintro rfl
        cases found.symm.trans other
        have busy : conn.busy key = true := by
          simp only [Connection.busy, found, points, was, any_some]
          exact alike.trans holds
        cases (idle kept).symm.trans busy
      simp only [apply, kept]
      exact ⟨key, entry, (AList.lookup_erase_ne here).trans other, points⟩

theorem Pointed.handles (pointed : Pointed conn) (tame : conn.tamePacket config payload = true)
    (handled : Handled config conn payload next) : Pointed next := by
  simp only [Connection.tamePacket, Bool.and_eq_true] at tame
  obtain ⟨⟨closes, asks⟩, confirms⟩ := tame
  cases handled with
  | aside same => exact pointed.aside same
  | @serves _ _ _ packet asked =>
    rw [asked] at asks
    have moved : Pointed (conn.allocId.2.send packet) := { pointed with }
    exact moved.spawns asks
  | dials | declined | replied | grants => exact { pointed with }
  | @confirmed ours _ _ _ _ _ _ opens asked kind read =>
    rw [read] at confirms
    have unused : conn.free ours = true := by
      simpa only [opens, ne_eq, not_true_eq_false, decide_false, Bool.false_or] using confirms
    have moved : Pointed { conn with pending := conn.pending.erase ours } := { pointed with }
    exact moved.spawns unused
  | @heard id entry line message turn read there ok =>
    obtain ⟨known, found, rest⟩ := bind_eq_some_iff.mp there
    obtain ⟨_, _, same⟩ := bind_eq_some_iff.mp rest
    obtain ⟨rfl, _⟩ := Prod.mk.inj (Option.some.inj same)
    obtain ⟨unclosed, closed⟩ := deliver_unclosed (pointed.unclosed id known found) ok
    refine pointed.applies there unclosed fun dropped => ?_
    rw [read, closed dropped] at closes
    exact (Bool.not_eq_true' _).mp closes
  | bound same permitted => exact { pointed.aside same with }
  | @unbound _ key handle found same =>
    have closed : Pointed { conn with
        listeners := conn.listeners.erase key, effects := conn.effects ++ [.closed handle] } := { pointed with }
    exact closed.aside same

theorem Pointed.carries {order rest} (pointed : Pointed conn) (queued : conn.orders = order :: rest)
    (tame : conn.tame config .order = true) : Pointed ({ conn with orders := rest }.onOrder config order) := by
  have kept : Pointed { conn with orders := rest } := { pointed with }
  cases order with
  | openTunnel | openSession =>
    simp only [onOrder]
    split <;> exact { pointed with }
  | remoteForward bind port targetHost targetPort => exact { pointed with }
  | connected peerId peerWindow peerMax result =>
    cases result with
    | ok =>
      have unused : conn.free conn.nextId = true := by simpa only [Connection.tame, queued] using tame
      have counted : Pointed
          { conn with
            orders := rest
            pendingConnects := conn.pendingConnects - 1
            nextId := (conn.nextId + 1) % 2 ^ 32
            sent := conn.sent ++ [openConfirmPacket peerId conn.nextId] } := { pointed with }
      exact counted.spawns unused
    | error reason => exact { pointed with }
  | channel id cmd =>
    simp only [onOrder]
    split
    · exact kept
    · rename_i entry line there
      obtain ⟨known, found, rest⟩ := bind_eq_some_iff.mp there
      obtain ⟨_, _, same⟩ := bind_eq_some_iff.mp rest
      obtain ⟨rfl, _⟩ := Prod.mk.inj (Option.some.inj same)
      obtain ⟨chan, stays, unclosed⟩ := @command_unclosed known.chan line (kept.unclosed id known found) cmd
      refine kept.applies there (fun other same => ?_) fun dropped => (by cases stays.symm.trans dropped)
      cases stays.symm.trans same
      exact unclosed

/-- A task that takes a step and still holds a socket held it before. -/
theorem step_holds {worker : Worker} (moved : worker.task.step worker.remoteMax worker.line label = some (task, line))
    (holds : Worker.holdsSocket { worker with task, line := { line with cmds := [] } } = true) :
    worker.holdsSocket = true := by
  have running := Task.step_running moved
  obtain ⟨mine, _, _, kind, _⟩ | ⟨_, _, _, _, _, rfl, _⟩ | ⟨_, _, _, _, _, rfl, _⟩ := Task.step_cases moved
  · rw [kind] at running
    simp only [Worker.holdsSocket, kind]
    exact running
  · cases holds
  · cases holds

theorem Pointed.acts (pointed : Pointed conn) (ran : conn.act index label = some next) :
    Pointed next := by
  obtain ⟨worker, task, line, there, moved, rfl⟩ := act_some ran
  refine ⟨pointed.unclosed, ?_⟩
  intro position other at_ holds
  dsimp only at at_
  by_cases here : index = position
  · subst here
    rw [List.getElem?_set_self (List.getElem?_eq_some_iff.mp there).1] at at_
    cases at_
    exact pointed.pointed index worker there (step_holds moved holds)
  · rw [List.getElem?_set_ne here] at at_
    exact pointed.pointed position other at_ holds

theorem act_sockets_le (ran : conn.act index label = some next) :
    next.sockets ≤ conn.sockets := by
  obtain ⟨worker, task, line, there, moved, rfl⟩ := act_some ran
  obtain ⟨inside, same⟩ := List.getElem?_eq_some_iff.mp there
  have kept := @step_holds task line label worker moved
  simp only [sockets, countP_set inside, same]
  have some_ : worker.holdsSocket = true → 0 < conn.workers.countP Worker.holdsSocket := fun holds =>
    countP_pos_iff.mpr ⟨worker, mem_of_getElem? there, holds⟩
  grind

theorem fallen_sockets (conn : Connection) : conn.fallen.sockets = conn.sockets := by
  have alike : conn.fallen.workers.map Worker.holdsSocket = conn.workers.map Worker.holdsSocket := by
    refine ext_getElem? fun index => ?_
    simp only [fallen, List.getElem?_map, List.getElem?_mapIdx, Option.map_map]
    congr 1
    funext worker
    simp only [Function.comp_apply]
    split <;> rfl
  have counted (workers : List Worker) :
      workers.countP Worker.holdsSocket = (workers.map Worker.holdsSocket).countP id := by
    rw [countP_map]
    rfl
  rw [sockets, counted, alike, ← counted]
  rfl

/-- While the connection runs, every socket is counted against the limit. -/
structure Held (conn : Connection) : Prop extends Counted conn, Pointed conn

/-- Once it is over, sockets are only given up. -/
structure Released (conn : Connection) : Prop extends Spent conn where
  sockets : conn.sockets + conn.dials.length ≤ maxChannels

theorem Held.within_limit (held : Held conn) : conn.sockets + conn.awaited ≤ maxChannels := by
  have few := held.sockets_le
  have within := held.within
  have connects := held.connects
  simp only [load] at within
  omega

theorem Held.falls (held : Held conn) : Released conn.fallen := by
  refine ⟨held.toCounted.falls, ?_⟩
  have within := held.within_limit
  rw [fallen_sockets]
  simp only [awaited, fallen] at within ⊢
  omega

theorem Released.within_limit (released : Released conn) : conn.sockets + conn.awaited ≤ maxChannels := by
  have unreported : conn.orders.countP Order.reportsConnect = 0 := by
    refine countP_eq_zero.mpr fun order member => ?_
    obtain ⟨id, cmd, rfl⟩ := released.orders order member
    exact Bool.false_ne_true
  rw [awaited, unreported]
  exact released.sockets

theorem Pointed.moves (pointed : Pointed conn) (tame : conn.tame config event = true)
    (moves : Moves config conn event next) : Pointed next := by
  cases moves with
  | @packet parked _ _ _ running ok =>
    have marked : Pointed (conn.marked parked) := { pointed with }
    exact marked.handles tame (packet_handled ok)
  | broken | silent | fall | submit | dialEnds => exact { pointed with }
  | order queued => exact pointed.carries queued tame
  | tick running ok =>
    rcases tick_ok ok with same | same
    · exact pointed.aside same
    · refine Pointed.aside ?_ same
      exact { pointed with }
  | act ran => exact pointed.acts ran

/-- Sockets are only given up once the connection is over. -/
theorem released_step (ran : conn.step config event = some next) (done : conn.done = true) (released : Released conn) :
    Released next := by
  refine ⟨spent_step ran done released.toSpent, ?_⟩
  have within := released.sockets
  obtain ⟨after, moves, same⟩ := step_moves ran
  have fewer : after.sockets + after.dials.length ≤ conn.sockets + conn.dials.length := by
    cases moves with
    | packet running | broken running | tick running | silent running | fall running | submit running =>
      cases running.symm.trans done
    | order queued => exact Nat.le_of_eq (by rw [released.carries queued]; rfl)
    | act ran =>
      have fewer := act_sockets_le ran
      obtain ⟨worker, task, line, _, _, rfl⟩ := act_some ran
      exact Nat.add_le_add_right fewer _
    | dialEnds => exact Nat.add_le_add_left (length_eraseIdx_le _ _) _
  rcases same with rfl | rfl
  · exact Nat.le_trans fewer within
  · rw [fallen_sockets]
    exact Nat.le_trans fewer within

theorem held_step (ran : conn.step config event = some next) (tame : conn.tame config event = true)
    (lives : Lives Held Released conn) : Lives Held Released next := by
  refine lives_step (fun _ => Held.falls) (fun held running after moves => ?_) (released_step ran) ran lives
  exact ⟨held.toCounted.moves running moves, held.toPointed.moves tame moves⟩

/-- As long as the peer closes no stream under its running task and no identifier comes
round while it is in use, the sockets of forwarded streams and the connects under way are
within the limit on channels. -/
theorem sockets_within_limit {events : List Event}
    (path : Path (guarded (Connection.step config) (Connection.tame config)) .start events conn) :
    conn.sockets + conn.awaited ≤ maxChannels := by
  have lives : Lives Held Released conn := by
    refine path_invariant (fun _ => Lives Held Released) ?_ ?_ path
    · refine ⟨fun _ => ⟨⟨Nat.zero_le _, rfl⟩, ?_, ?_⟩, nofun⟩
      · intro id entry found
        cases (AList.lookup_empty id).symm.trans found
      · intro index worker there
        exact absurd (mem_of_getElem? there) not_mem_nil
    · intro past state event next _ ran lives
      obtain ⟨tame, moved⟩ := guarded_eq_some.mp ran
      exact held_step moved tame lives
  cases done : conn.done with
  | true => exact (lives.2 done).within_limit
  | false => exact (lives.1 done).within_limit

/-- The target accepts; the channel is confirmed, and the peer closes it at once. The
stream's task is told, and goes on reading from its target. -/
def leakRound (id : Nat) : List Event :=
  [.packet false tunnelOpen ⟨none, none⟩, .dialEnds 0 (.ok ()), .order,
   .packet false (encode id .close) ⟨none, none⟩, .act id (.forward .recv)]

/-- The table is empty, and there are some tasks. -/
def leaking (count : Nat) (workers : List Worker) (sent : List Bytes) (effects : List Effect) : Connection :=
  { Connection.start with nextId := count, workers, sent, effects }

theorem open_handled_anywhere (room : conn.load < maxChannels) :
    conn.onPacket openServer world tunnelOpen = .ok (conn.spawnConnect 0 localWindow maxChunk (.host "silent" 80)) := by
  have header : openHeader tunnelOpen = .ok (("direct-tcpip", 0, localWindow, maxChunk),
      Writer.utf8 "silent" ++ Writer.u32 80 ++ Writer.utf8 "" ++ Writer.u32 0) := by decide +kernel
  have address : tunnelAddress.parse (Writer.utf8 "silent" ++ Writer.u32 80 ++ Writer.utf8 "" ++ Writer.u32 0) =
      .ok ("silent", 80) := by decide +kernel
  have opens : conn.onPacket openServer world tunnelOpen = conn.onChannelOpen openServer tunnelOpen := rfl
  rw [opens, onChannelOpen, header]
  simp only [bind, Except.bind, if_neg (Nat.not_le.mpr room)]
  rw [if_neg (by decide), if_pos trivial, address]
  rfl

theorem close_read (bound : id < 2 ^ 32) : channelMessage.parse (encode id .close) = .ok (id, .close) := by
  refine parse_ok.mpr ⟨[], ?_⟩
  refine (byte_bind_ok _ _ _).mpr ⟨Msg.channelClose, Writer.u32 id, rfl, ?_⟩
  exact (u32_bind_ok _ _ _).mpr ⟨id, [], ⟨(append_nil _).symm, bound⟩, rfl⟩

theorem erase_insert_empty {α : Type} (key : Nat) (value : α) : ((∅ : Table Nat α).insert key value).erase key = ∅ := by
  refine AList.ext ?_
  simp [AList.insert, AList.erase, List.kinsert]

/-- One round leaves one more task that holds a socket. -/
theorem leak_round {workers : List Worker} {sent effects}
    (each : workers.length = count) (bound : count < 2 ^ 32 - 1) :
    ∃ worker sent_ effects_, worker.holdsSocket = true ∧
      Path (Connection.step openServer) (leaking count workers sent effects) (leakRound count)
        (leaking (count + 1) (workers ++ [worker]) sent_ effects_) := by
  let dial : Dial := ⟨0, localWindow, maxChunk, .host "silent" 80⟩
  let line : Line := .make openServer.platform localWindow
  let fresh : Worker := ⟨count, .forward .start, line, maxChunk⟩
  let dialing : Connection :=
    { leaking count workers sent (effects ++ [.dialed dial.target]) with pendingConnects := 1, dials := [dial] }
  let reported : Connection :=
    { leaking count workers sent (effects ++ [.dialed dial.target]) with
      pendingConnects := 1, orders := [.connected 0 localWindow maxChunk (.ok ())] }
  let confirmed : Connection :=
    { leaking (count + 1) (workers ++ [fresh]) (sent ++ [openConfirmPacket 0 count]) (effects ++
    [.dialed dial.target]) with
      channels := (∅ : Table Nat Entry).insert count ⟨.make 0 false false, count⟩ }
  let closed : Connection :=
    leaking (count + 1) (workers ++ [{ fresh with line := (line.push .close).hangUp }])
      (sent ++ [openConfirmPacket 0 count] ++ [encode 0 .close]) (effects ++ [.dialed dial.target])
  -- The task in question is the last one.
  have last (worker : Worker) : (workers ++ [worker])[count]? = some worker := by
    rw [← each, List.getElem?_concat_length]
  have changed (old new : Worker) : (workers ++ [old]).set count new = workers ++ [new] := by
    rw [← each, set_append_right _ _ (Nat.le_refl _)]
    simp
  have opens : (leaking count workers sent effects).step openServer (.packet false tunnelOpen ⟨none, none⟩) =
      some dialing := step_packet rfl (open_handled_anywhere (by show 0 < maxChannels; decide)) rfl
  have reports : dialing.step openServer (.dialEnds 0 (.ok ())) = some reported := rfl
  have confirms : reported.step openServer .order = some confirmed := by
    have wraps : (count + 1) % 2 ^ 32 = count + 1 := Nat.mod_eq_of_lt (by omega)
    refine step_order rfl ?_ rfl
    simp only [reported, confirmed, leaking, onOrder, allocId, Connection.send, spawnForward, spawn, wraps, each]
    rfl
  have closes : confirmed.step openServer (.packet false (encode count .close) ⟨none, none⟩) = some closed := by
    refine step_packet rfl ?_ rfl
    have kind : onPacket openServer (confirmed.marked false) ⟨none, none⟩
        (encode count .close) = (channelMessage.parse (encode count .close) >>= fun pair =>
          onChannelMessage openServer (confirmed.marked false) pair.1 pair.2) := rfl
    have there : channel (confirmed.marked false) count =
        some (⟨.make 0 false false, count⟩, line) := by
      simp only [channel, confirmed, AList.lookup_insert, Option.bind_eq_bind, Option.bind_some, leaking, last]
      rfl
    rw [kind, close_read (by omega)]
    simp only [bind, Except.bind, onChannelMessage, there]
    simp only [Chan.deliver, Except.map, Chan.onClose, Chan.closeIfDone, Chan.make, Bool.and_self, if_true, apply]
    have removed := erase_insert_empty count (⟨.make 0 false false, count⟩ : Entry)
    simp only [confirmed, closed, leaking, removed, modify_eq_set_getElem?, last, Option.map_eq_map, Option.map_some,
      Option.getD_some, changed, Bool.false_eq_true, if_false, map_cons, map_nil, append_nil]
    rfl
  have hears : closed.step openServer (.act count (.forward .recv)) = some (leaking (count + 1)
    (workers ++ [{ fresh with
        task := .forward { Forward.start with writer := .ended }, line := line.hangUp }])
      (sent ++ [openConfirmPacket 0 count] ++ [encode 0 .close]) (effects ++ [.dialed dial.target])) := by
    simp only [step, act, closed, leaking, last, Option.bind_eq_bind, Option.bind_some, changed]
    rfl
  exact ⟨_, _, _, rfl, .cons opens (.cons reports (.cons confirms (.cons closes (.cons hears .nil))))⟩

/-- The rounds can be repeated for as long as the identifiers last. -/
theorem leaks (bound : count < 2 ^ 32) :
    ∃ events workers sent effects, workers.length = count ∧ workers.countP Worker.holdsSocket = count ∧
      Path (Connection.step openServer) .start events (leaking count workers sent effects) := by
  induction count with
  | zero => exact ⟨[], [], [], [], rfl, rfl, .nil⟩
  | succ count ih =>
    obtain ⟨events, workers, sent, effects, each, held, path⟩ := ih (by omega)
    obtain ⟨worker, sent_, effects_, holds, round⟩ := @leak_round count workers sent effects each (by omega)
    refine ⟨events ++ leakRound count, workers ++ [worker], sent_, effects_, ?_, ?_, path.trans round⟩
    · rw [length_append, each, length_singleton]
    · rw [countP_append, held, countP_singleton, if_pos holds]

/-- More sockets than the limit, and an empty table. -/
theorem sockets_beyond_limit : ∃ events conn, Path (Connection.step openServer) .start events conn ∧
    maxChannels < conn.sockets + conn.awaited := by
  obtain ⟨events, workers, sent, effects, _, held, path⟩ := @leaks 257 (by decide)
  refine ⟨events, _, path, ?_⟩
  have more : maxChannels < workers.countP Worker.holdsSocket := by
    rw [held]
    decide
  exact Nat.lt_of_lt_of_le more (Nat.le_add_right _ _)

theorem sockets_within_limit_two : ∃ conn : Connection, conn.sockets = 1 ∧ conn.awaited = 1 ∧
    conn.sockets + conn.awaited ≤ maxChannels := by
  have within := sockets_within_limit
    (@path_of_some _ _ (guarded (Connection.step openServer) (Connection.tame openServer)) .start streamsOpened
      (by decide +kernel))
  exact ⟨_, by decide +kernel, by decide +kernel, within⟩

end Sockets

end Shh.Connections
