import Shh.Closings
import Shh.Identifiers
import Shh.Traffic

/-!
# Nothing follows CLOSE

Every message that a connection sends for a channel is one of a turn on that channel, so
what was sent can be told apart by the task that was started for it. Each of these
sequences is in order: one EOF with no data behind it, one CLOSE with nothing behind it.

There are two ways out. A peer that asks for something on a forwarded channel which we
have closed is answered, because the channel is still in the table. And commands name a
channel by its identifier: once identifiers come round again, a task that has outlived its
channel speaks on another one.
-/

namespace Shh.Connections

open List Wire Channels Runs Connection

variable {config : Config} {conn next : Connection} {payload : Bytes} {event : Event}

/-- A message on the wire, with the task whose channel it is for and the peer's identifier
of it. -/
structure Post where
  worker : Nat
  peer : Nat
  message : Message
deriving DecidableEq, Repr

def Post.packet (post : Post) : Bytes := encode post.peer post.message

/-- The messages for channels that an event has the loop send. -/
def Connection.posts (config : Config) (conn : Connection) (event : Event) : List Post :=
  match conn.turn config event with
  | some (_, entry, turn) => turn.sent.map fun message => ⟨entry.worker, entry.chan.peerId, message⟩
  | none => []

/-- A connection, with the messages for channels it has sent, oldest first. -/
structure Posting where
  conn : Connection
  posts : List Post

namespace Posting

def start : Posting := ⟨.start, []⟩

def step (config : Config) (posting : Posting) (event : Event) : Option Posting :=
  (posting.conn.step config event).map fun next => ⟨next, posting.posts ++ posting.conn.posts config event⟩

/-- What was sent for the channel of a task. -/
def said (posting : Posting) (worker : Nat) : List Message :=
  (posting.posts.filter fun post => post.worker = worker).map Post.message

end Posting

/-- The peer asks for something on a forwarded channel that we have closed. -/
def Connection.pressed (conn : Connection) : Event → Bool
  | .packet _ payload _ =>
    forChannel payload &&
      match channelMessage.parse payload with
      | .ok (id, message) => (conn.channels.lookup id).any fun entry => entry.chan.pressed message
      | .error _ => false
  | _ => false

/-- The identifier of the channel that an event has the loop start a task for. -/
def Connection.seats (config : Config) (conn : Connection) : Event → Option Nat
  | .packet parked payload world =>
    if conn.asksSession config payload then some conn.nextId else conn.confirms (.packet parked payload world)
  | .order =>
    match conn.orders with
    | .connected _ _ _ (.ok _) :: _ => some conn.nextId
    | _ => none
  | _ => none

/-- Nothing is asked on a channel that we have closed, and no identifier has two channels. -/
def Posting.fair (config : Config) (posting : Posting) (event : Event) : Bool :=
  !posting.conn.pressed event &&
    (posting.conn.seats config event).all fun id => posting.conn.workers.all fun worker => worker.id ≠ id

section Wire

variable {posting later : Posting}

/-- The kinds of the messages for channels are their own. -/
theorem encode_for_channel (peer : Nat) (message : Message) : forChannel (encode peer message) = true := by
  cases message with
  | reply success => cases success <;> rfl
  | data | extData | adjust | eof | close | request => rfl

theorem asked_aloof (request : PendingGlobal) : forChannel request.packet = false := by
  cases request <;> rfl

/-- What is sent for an event, as far as it is for a channel. -/
theorem traffic_posts {more : List Bytes} (traffic : Traffic config conn event more) :
    more.filter forChannel = (conn.posts config event).map Post.packet := by
  cases traffic with
  | @turns id entry turn turned =>
    have goodbyes : (if turn.done then [goodbye] else []).filter forChannel = [] := by
      split <;> rfl
    have all : (turn.sent.map (encode entry.chan.peerId)).filter forChannel = turn.sent.map
      (encode entry.chan.peerId) := by
      refine filter_eq_self.mpr fun packet member => ?_
      obtain ⟨message, _, rfl⟩ := mem_map.mp member
      exact encode_for_channel _ _
    rw [filter_append, all, goodbyes, append_nil, posts, turned, map_map]
    rfl
  | asks idle =>
    rw [posts, idle]
    simp [asked_aloof]
  | other idle _ kinds =>
    rw [posts, idle]
    refine filter_eq_nil_iff.mpr fun packet member => ?_
    rw [(kinds packet member).1]
    exact Bool.false_ne_true

/-- Every packet for a channel was sent for one of the tasks. -/
def Posted (posting : Posting) : Prop := posting.conn.sent.filter forChannel = posting.posts.map Post.packet

theorem posted_step (posted : Posted posting) (ran : posting.step config event = some later) : Posted later := by
  obtain ⟨next, moved, rfl⟩ := Option.map_eq_some_iff.mp ran
  obtain ⟨more, grown, traffic⟩ := step_traffic moved
  unfold Posted
  dsimp only
  rw [grown, filter_append, map_append, ← traffic_posts traffic, ← posted]

end Wire

section Queues

/-- The command for a channel that an order is, if it is one. -/
def Order.cmdFor (id : Nat) : Order → Option Cmd
  | .channel other cmd => if other = id then some cmd else none
  | _ => none

/-- The commands for a channel that are queued. -/
def Connection.queue (conn : Connection) (id : Nat) : List Cmd := conn.orders.filterMap (Order.cmdFor id)

variable {id : Nat}

theorem queue_pop {order : Order} {rest} (queued : conn.orders = order :: rest) :
    conn.queue id = (order.cmdFor id).toList ++ Connection.queue { conn with orders := rest } id := by
  unfold queue
  rw [queued, filterMap_cons]
  cases order.cmdFor id <;> rfl

theorem cmds_for (cmds : List Cmd) (id other : Nat) :
    (cmds.map (Order.channel id)).filterMap (Order.cmdFor other) = if id = other then cmds else [] := by
  induction cmds with
  | nil => split <;> rfl
  | cons cmd rest ih =>
    rw [map_cons, filterMap_cons, ih]
    by_cases same : id = other
    · simp only [Order.cmdFor, if_pos same]
    · simp only [Order.cmdFor, if_neg same]

end Queues

section Courtesy

variable {posting later : Posting}

variable {id : Nat} {entry : Entry} {line : Line}

variable {turn : Turn} {chan : Chan} {message : Message} {parked : Bool} {world : World}

/-- The task of a channel that is there, and how far it is with ending. -/
structure Tended (posting : Posting) (id : Nat) (entry : Entry) (worker : Worker) : Prop where
  working : posting.conn.workers[entry.worker]? = some worker
  named : worker.id = id
  alive : worker.line.gone = false
  sound : worker.task.Sound
  tidy : Tidy worker.task (posting.conn.queue id) entry.chan (posting.said entry.worker)

/-- What was sent for each channel is in order, and identifiers tell channels apart. -/
structure Courteous (posting : Posting) : Prop where
  tended : ∀ id entry, posting.conn.channels.lookup id = some entry → ∃ worker, Tended posting id entry worker
  known : ∀ id, posting.conn.queue id ≠ [] → ∃ worker ∈ posting.conn.workers, worker.id = id
  distinct : (posting.conn.workers.map Worker.id).Nodup
  emptied : ∀ worker ∈ posting.conn.workers, worker.line.cmds = []
  orderly : ∀ worker, Orderly (posting.said worker)
  fresh : ∀ worker, posting.conn.workers.length ≤ worker → posting.said worker = []

theorem courteous_start : Courteous .start where
  tended := fun id entry found => by cases found
  known := fun id some_ => absurd rfl some_
  distinct := nodup_nil
  emptied := fun worker member => absurd member not_mem_nil
  orderly := fun worker => licensed_nil _
  fresh := fun worker _ => rfl

variable {posts : List Post}

/-- Only the tables and the queues matter. A command that is passed over is for no channel. -/
theorem Courteous.passes (courteous : Courteous ⟨conn, posts⟩) (channels : next.channels = conn.channels)
    (workers : next.workers = conn.workers) (queue : ∀ id ∈ conn.channels, next.queue id = conn.queue id)
    (known : ∀ id, next.queue id ≠ [] → conn.queue id ≠ []) : Courteous ⟨next, posts⟩ := by
  refine ⟨?_, ?_, ?_, ?_, courteous.orderly, ?_⟩
  · intro id entry found
    dsimp only at found
    rw [channels] at found
    obtain ⟨worker, working, named, alive, sound, tidy⟩ := courteous.tended id entry found
    refine ⟨worker, (by rw [workers]; exact working), named, alive, sound, ?_⟩
    rw [queue id (AList.lookup_isSome.mp (by rw [found]; rfl))]
    exact tidy
  · intro id some_
    dsimp only
    rw [workers]
    exact courteous.known id (known id some_)
  · dsimp only
    rw [workers]
    exact courteous.distinct
  · dsimp only
    rw [workers]
    exact courteous.emptied
  · dsimp only
    rw [workers]
    exact courteous.fresh

theorem Courteous.keeps (courteous : Courteous ⟨conn, posts⟩) (channels : next.channels = conn.channels)
    (workers : next.workers = conn.workers) (queue : ∀ id, next.queue id = conn.queue id) : Courteous ⟨next, posts⟩ :=
  courteous.passes channels workers (fun id _ => queue id) fun id some_ => queue id ▸ some_

/-- The connection is over: no channel is there, and what is queued is dropped. -/
theorem Courteous.falls (courteous : Courteous ⟨conn, posts⟩) : Courteous ⟨conn.fallen, posts⟩ := by
  refine ⟨?_, ?_, ?_, ?_, courteous.orderly, ?_⟩
  · intro id entry found
    cases found
  · intro id some_
    exact absurd rfl some_
  · have ids : conn.fallen.workers.map Worker.id = conn.workers.map Worker.id := by
      refine ext_getElem? fun index => ?_
      simp only [fallen, List.getElem?_map, List.getElem?_mapIdx, Option.map_map]
      congr 1
      funext worker
      simp only [Function.comp_apply]
      split <;> rfl
    rw [ids]
    exact courteous.distinct
  · intro worker member
    obtain ⟨index, bound, rfl⟩ := mem_iff_getElem.mp member
    simp only [fallen, getElem_mapIdx]
    split <;> rfl
  · intro worker past
    simp only [fallen, length_mapIdx] at past
    exact courteous.fresh worker past

/-- Channels with different identifiers have different tasks. -/
theorem tended_apart {other} {seat : Entry} {worker server}
    (tended : Tended posting id entry worker) (seated : Tended posting other seat server) (apart : other ≠ id) :
    seat.worker ≠ entry.worker := by
  intro same
  have one := seated.working
  rw [same, tended.working] at one
  cases one
  exact apart (seated.named.symm.trans tended.named)

/-- A task is started for a channel whose identifier is new. -/
theorem Courteous.spawns {peer window max} {task : Task} {endOnClose} (courteous : Courteous ⟨conn, posts⟩)
    (fresh : task.Fresh) (unused : ∀ worker ∈ conn.workers, worker.id ≠ id) :
    Courteous ⟨conn.spawn config id peer window max task endOnClose, posts⟩ := by
  have absent : conn.channels.lookup id = none := by
    cases found : conn.channels.lookup id with
    | none => rfl
    | some entry =>
      obtain ⟨worker, working, named, _⟩ := courteous.tended id entry found
      exact absurd named (unused worker (mem_of_getElem? working))
  have idle : conn.queue id = [] := by
    by_contra some_
    obtain ⟨worker, member, named⟩ := courteous.known id some_
    exact unused worker member named
  simp only [spawn, absent]
  refine ⟨?_, ?_, ?_, ?_, courteous.orderly, ?_⟩
  · intro key entry found
    dsimp only at found
    by_cases same : key = id
    · subst same
      rw [AList.lookup_insert] at found
      cases found
      refine ⟨_, List.getElem?_concat_length, rfl, rfl, fresh.sound, ?_⟩
      have unsaid : Posting.said ⟨conn, posts⟩ conn.workers.length = [] := courteous.fresh _ (Nat.le_refl _)
      show Tidy task (conn.queue key) _ (Posting.said ⟨conn, posts⟩ conn.workers.length)
      rw [idle, unsaid]
      exact .start task peer task.isSession endOnClose
    · rw [AList.lookup_insert_ne same] at found
      obtain ⟨worker, working, named, alive, sound, tidy⟩ := courteous.tended key entry found
      refine ⟨worker, ?_, named, alive, sound, tidy⟩
      rw [List.getElem?_append_left (List.getElem?_eq_some_iff.mp working).1]
      exact working
  · intro key some_
    obtain ⟨worker, member, named⟩ := courteous.known key some_
    exact ⟨worker, mem_append_left _ member, named⟩
  · rw [map_append, map_singleton]
    refine nodup_append.mpr ⟨courteous.distinct, nodup_singleton _, ?_⟩
    intro old member new last
    obtain ⟨worker, inside, rfl⟩ := mem_map.mp member
    rw [mem_singleton.mp last]
    exact unused worker inside
  · intro worker member
    rcases mem_append.mp member with before | last
    · exact courteous.emptied worker before
    · rw [mem_singleton.mp last]
      rfl
  · intro worker past
    dsimp only at past
    rw [length_append] at past
    exact courteous.fresh worker (Nat.le_trans (Nat.le_add_right _ _) past)

theorem said_append (more : List Post) (worker : Nat) :
    Posting.said ⟨conn, posts ++ more⟩ worker = Posting.said ⟨conn, posts⟩ worker ++
    Posting.said ⟨conn, more⟩ worker := by
  simp only [Posting.said, filter_append, map_append]

theorem said_turn (sent : List Message) (worker peer other : Nat) :
    Posting.said ⟨conn, sent.map fun message => ⟨worker, peer,
    message⟩⟩ other = if worker = other then sent else [] := by
  simp only [Posting.said, filter_map, map_map, Function.comp_def]
  split
  · rename_i same
    rw [filter_eq_self.mpr fun _ _ => decide_eq_true same]
    exact map_id _
  · rename_i apart
    rw [filter_eq_nil_iff.mpr fun _ _ same => apart (of_decide_eq_true same)]
    rfl

/-- The loop makes something of an event on a channel. -/
theorem Courteous.applies {before : Connection}
    (courteous : Courteous ⟨conn, posts⟩) (there : conn.channel id = some (entry, line))
    (channels : before.channels = conn.channels) (workers : before.workers = conn.workers)
    (others : ∀ other, other ≠ id → before.queue other = conn.queue other)
    (known : before.queue id ≠ [] → conn.queue id ≠ [])
    (keeps : ∀ worker, Tended ⟨conn, posts⟩ id entry worker →
      KeepsOrder worker.task (before.queue id) (Posting.said ⟨conn, posts⟩ entry.worker) turn)
    (gone : turn.line.gone = line.gone) (cmds : turn.line.cmds = line.cmds) :
    Courteous ⟨before.apply id entry turn,
      posts ++ turn.sent.map fun message => ⟨entry.worker, entry.chan.peerId, message⟩⟩ := by
  obtain ⟨seat, found, rest⟩ := Option.bind_eq_some_iff.mp there
  obtain ⟨served, working, same⟩ := Option.bind_eq_some_iff.mp rest
  obtain ⟨rfl, rfl⟩ := Prod.mk.inj (Option.some.inj same)
  obtain ⟨worker, tended⟩ := courteous.tended id _ found
  cases working.symm.trans tended.working
  obtain ⟨orderly, stays⟩ := keeps served tended
  have now (index : Nat) : (before.apply id seat turn).workers[index]? =
      conn.workers[index]?.map
      fun worker => if seat.worker = index then { worker with line := turn.line } else worker := by
    simp only [apply, workers, List.getElem?_modify]
    rfl
  have ids : (before.apply id seat turn).workers.map Worker.id = conn.workers.map Worker.id := by
    refine ext_getElem? fun index => ?_
    rw [List.getElem?_map, now, List.getElem?_map, Option.map_map]
    congr 1
    funext worker
    simp only [Function.comp_apply]
    split <;> rfl
  have told (index : Nat) : Posting.said ⟨before.apply id seat turn,
      posts ++ turn.sent.map fun message => ⟨seat.worker, seat.chan.peerId, message⟩⟩ index =
      Posting.said ⟨conn, posts⟩ index ++ if seat.worker = index then turn.sent else [] := by
    rw [said_append, said_turn]
    rfl
  refine ⟨?_, ?_, ?_, ?_, ?_, ?_⟩
  · intro key entry inside
    simp only [apply, channels] at inside
    by_cases here : key = id
    · subst here
      cases kept : turn.chan with
      | none =>
        simp only [kept, AList.lookup_erase] at inside
        cases inside
      | some chan =>
        simp only [kept, AList.lookup_insert] at inside
        obtain rfl := Option.some.inj inside
        refine ⟨{ served with line := turn.line }, ?_, tended.named, gone.trans tended.alive, tended.sound, ?_⟩
        · show (before.apply key seat turn).workers[seat.worker]? = _
          rw [now, working, Option.map_some, if_pos rfl]
        · show Tidy served.task (before.queue key) chan _
          rw [told, if_pos rfl]
          exact stays chan kept
    · have old : conn.channels.lookup key = some entry := by
        cases kept : turn.chan with
        | none =>
          simp only [kept] at inside
          rw [AList.lookup_erase_ne here] at inside
          exact inside
        | some chan =>
          simp only [kept] at inside
          rw [AList.lookup_insert_ne here] at inside
          exact inside
      obtain ⟨server, seated⟩ := courteous.tended key entry old
      have apart := tended_apart tended seated here
      refine ⟨server, ?_, seated.named, seated.alive, seated.sound, ?_⟩
      · show (before.apply id seat turn).workers[entry.worker]? = _
        rw [now, seated.working, Option.map_some, if_neg fun same => apart same.symm]
      · show Tidy server.task (before.queue key) entry.chan _
        rw [told, if_neg fun same => apart same.symm, append_nil, others key here]
        exact seated.tidy
  · intro key some_
    have earlier : ∃ worker ∈ conn.workers, worker.id = key := by
      by_cases here : key = id
      · subst here
        exact courteous.known key (known some_)
      · refine courteous.known key ?_
        rw [← others key here]
        exact some_
    obtain ⟨worker, member, named⟩ := earlier
    have inside : key ∈ conn.workers.map Worker.id := mem_map.mpr ⟨worker, member, named⟩
    rw [← ids] at inside
    exact mem_map.mp inside
  · rw [ids]
    exact courteous.distinct
  · intro worker member
    obtain ⟨index, at_⟩ := mem_iff_getElem?.mp member
    rw [now] at at_
    obtain ⟨old, was, rfl⟩ := Option.map_eq_some_iff.mp at_
    split
    · exact cmds.trans (courteous.emptied served (mem_of_getElem? working))
    · exact courteous.emptied old (mem_of_getElem? was)
  · intro index
    rw [told]
    split
    · rename_i same
      exact same ▸ orderly
    · rw [append_nil]
      exact courteous.orderly index
  · intro index past
    have size : (before.apply id seat turn).workers.length = conn.workers.length := by
      simp only [apply, workers, length_modify]
    have bound := (List.getElem?_eq_some_iff.mp working).1
    dsimp only at past
    rw [size] at past
    rw [told, if_neg (by omega), append_nil]
    exact courteous.fresh index past

/-- A task takes a step. -/
theorem Courteous.acts {index label} (courteous : Courteous ⟨conn, posts⟩)
    (ran : conn.act index label = some next) : Courteous ⟨next, posts⟩ := by
  obtain ⟨worker, task, line, there, moved, rfl⟩ := act_some ran
  have bound := (List.getElem?_eq_some_iff.mp there).1
  have member : worker ∈ conn.workers := mem_of_getElem? there
  have queue (key : Nat) : Connection.queue { conn with
      orders := conn.orders ++ line.cmds.map (.channel worker.id)
      workers := conn.workers.set index { worker with task, line := { line with cmds := [] } } } key =
      conn.queue key ++ if worker.id = key then line.cmds else [] := by
    simp only [Connection.queue, filterMap_append, cmds_for]
  have ids : (conn.workers.set index { worker with task, line := { line with cmds := [] } }).map Worker.id =
      conn.workers.map Worker.id := by
    rw [map_set]
    refine ext_getElem? fun place => ?_
    by_cases here : index = place
    · subst here
      rw [List.getElem?_set_self (by rw [length_map]; exact bound), List.getElem?_map, there]
      rfl
    · rw [List.getElem?_set_ne here]
  refine ⟨?_, ?_, ?_, ?_, courteous.orderly, ?_⟩
  · intro key entry found
    obtain ⟨server, seated⟩ := courteous.tended key entry found
    by_cases here : entry.worker = index
    · -- The task of this channel: what it asks for goes behind what it has asked for.
      subst here
      cases there.symm.trans seated.working
      obtain ⟨more, grown, utters⟩ := Task.step_utters seated.alive moved
      rw [courteous.emptied worker member, nil_append] at grown
      have alive : line.gone = false := (Task.step_does seated.sound moved).pays.gone.trans seated.alive
      refine ⟨_, List.getElem?_set_self bound, seated.named, alive, Task.step_sound seated.sound moved, ?_⟩
      show Tidy task (Connection.queue _ key) _ _
      rw [queue, if_pos seated.named, grown]
      exact seated.tidy.acts (Task.step_running moved) utters
    · have other : worker.id ≠ key := by
        intro same
        have inside := (List.getElem?_eq_some_iff.mp seated.working).1
        have one : (conn.workers.map Worker.id)[entry.worker]? = (conn.workers.map Worker.id)[index]? := by
          rw [List.getElem?_map, List.getElem?_map, seated.working, there, Option.map_some,
            Option.map_some, seated.named, same]
        exact here ((List.getElem?_inj (by rw [length_map]; exact inside) courteous.distinct).mp one)
      refine ⟨server, ?_, seated.named, seated.alive, seated.sound, ?_⟩
      · show (conn.workers.set index _)[entry.worker]? = _
        rw [List.getElem?_set_ne fun same => here same.symm]
        exact seated.working
      · show Tidy server.task (Connection.queue _ key) _ _
        rw [queue, if_neg other, append_nil]
        exact seated.tidy
  · intro key some_
    have inside : key ∈ conn.workers.map Worker.id := by
      rw [queue] at some_
      by_cases here : worker.id = key
      · exact mem_map.mpr ⟨worker, member, here⟩
      · rw [if_neg here, append_nil] at some_
        obtain ⟨server, known, named⟩ := courteous.known key some_
        exact mem_map.mpr ⟨server, known, named⟩
    rw [← ids] at inside
    exact mem_map.mp inside
  · rw [ids]
    exact courteous.distinct
  · intro server inside
    rcases mem_or_eq_of_mem_set inside with old | rfl
    · exact courteous.emptied server old
    · rfl
  · intro place past
    dsimp only at past
    rw [length_set] at past
    exact courteous.fresh place past

theorem deliver_gone {platform}
    (ok : chan.deliver platform line message = .ok turn) : turn.line.gone = line.gone := by
  cases message <;> grind

theorem command_line {cmd} :
    (chan.command line cmd).line.gone = line.gone ∧ (chan.command line cmd).line.cmds = line.cmds := by
  cases cmd <;> grind

theorem fair_seats (fair : Posting.fair config ⟨conn, posts⟩ event = true)
    (starts : conn.seats config event = some id) : ∀ worker ∈ conn.workers, worker.id ≠ id := by
  intro worker member
  have fresh := ((Bool.and_eq_true _ _).mp fair).2
  dsimp only at fresh
  rw [starts] at fresh
  exact of_decide_eq_true (all_eq_true.mp fresh worker member)

theorem fair_pressed
    (fair : Posting.fair config ⟨conn, posts⟩ (.packet parked payload world) = true) (kind : forChannel payload = true)
    (read : channelMessage.parse payload = .ok (id, message)) (found : conn.channels.lookup id = some entry) :
    entry.chan.pressed message = false := by
  have unpressed := (Bool.not_eq_true' _).mp ((Bool.and_eq_true _ _).mp fair).1
  simpa only [pressed, kind, read, found, Bool.true_and, Option.any_some] using unpressed

/-- A packet of the peer. -/
theorem Courteous.hears (courteous : Courteous ⟨conn, posts⟩)
    (fair : Posting.fair config ⟨conn, posts⟩ (.packet parked payload world) = true)
    (ok : conn.onPacket config world payload = .ok next) :
    Courteous ⟨next, posts ++ conn.posts config (.packet parked payload world)⟩ := by
  cases turned : conn.turn config (.packet parked payload world) with
  | some result =>
    obtain ⟨kind, id, message, entry, line, turn, read, there, delivered, rfl⟩ := packet_turn turned
    rw [packet_for_channel kind read, onChannelMessage, there] at ok
    dsimp only at ok
    rw [delivered] at ok
    cases ok
    rw [Connection.posts, turned]
    refine courteous.applies there rfl rfl (fun _ _ => rfl) (fun some_ => some_)
      (fun worker tended => ?_) (deliver_gone delivered)
      (deliver_grants delivered).cmds
    obtain ⟨seat, found, rest⟩ := Option.bind_eq_some_iff.mp there
    obtain ⟨_, _, same⟩ := Option.bind_eq_some_iff.mp rest
    obtain ⟨rfl, _⟩ := Prod.mk.inj (Option.some.inj same)
    exact tended.tidy.hears (fair_pressed fair kind read found) delivered
  | none =>
    have unsent : conn.posts config (.packet parked payload world) = [] := by rw [Connection.posts, turned]
    rw [unsent, append_nil]
    cases packet_handled ok with
    | aside same => exact courteous.keeps same.channels same.workers fun id => by rw [queue, same.orders]; rfl
    | @serves _ _ _ packet asked =>
      have starts : conn.seats config (.packet parked payload world) = some conn.nextId := if_pos asked
      have unused := fair_seats fair starts
      have moved : Courteous ⟨conn.allocId.2.send packet, posts⟩ := courteous.keeps rfl rfl fun _ => rfl
      exact moved.spawns (.server _ _) unused
    | dials | declined | replied | grants => exact courteous.keeps rfl rfl fun _ => rfl
    | @confirmed ours _ _ _ _ task _ confirms asked kind read =>
      have other : conn.asksSession config payload = false := by
        have clash : decide (Msg.channelOpenConfirmation = Msg.channelOpen) = false := rfl
        simp only [Connection.asksSession, confirms, clash, Bool.and_false, Bool.false_and]
      have starts : conn.seats config (.packet parked payload world) = some ours := by
        simp only [Connection.seats, other, Bool.false_eq_true, if_false, Connection.confirms, if_pos confirms, read]
        exact if_pos (by rw [asked]; rfl)
      have unused := fair_seats fair starts
      have moved : Courteous ⟨{ conn with pending := conn.pending.erase ours }, posts⟩ :=
        courteous.keeps rfl rfl fun _ => rfl
      refine moved.spawns ?_ unused
      rcases kind with rfl | ⟨spec, resizing, rfl⟩
      · exact .forward
      · exact .client spec resizing
    | heard read there delivered kind =>
      have inside : forChannel payload = true :=
        (Bool.and_eq_true _ _).mpr ⟨decide_eq_true kind.1, decide_eq_true kind.2⟩
      simp only [Connection.turn, inside, if_true, read, there, delivered] at turned
      cases turned
    | bound same =>
      exact courteous.keeps same.channels same.workers fun id => by rw [queue, queue]; dsimp only; rw [same.orders]
    | unbound _ same => exact courteous.keeps same.channels same.workers fun id => by rw [queue, same.orders]; rfl

/-- An order from the queue. -/
theorem Courteous.carries {order rest} (courteous : Courteous ⟨conn, posts⟩)
    (fair : Posting.fair config ⟨conn, posts⟩ .order = true) (queued : conn.orders = order :: rest) :
    Courteous ⟨{ conn with orders := rest }.onOrder config order, posts ++ conn.posts config .order⟩ := by
  have popped (id : Nat) := @queue_pop conn id order rest queued
  have unsent (other : ∀ id cmd, order ≠ .channel id cmd) : conn.posts config .order = [] := by
    simp only [Connection.posts, Connection.turn, queued]
    split
    · rename_i turned
      split at turned
      · rename_i id cmd _ same
        exact absurd (List.cons.inj same).1 (other id cmd)
      · cases turned
    · rfl
  -- An order that is for no channel leaves the queues.
  have plain (other : ∀ id cmd, order ≠ .channel id cmd) : Courteous ⟨{ conn with orders := rest }, posts⟩ := by
    refine courteous.keeps rfl rfl fun id => ?_
    rw [popped]
    cases order with
    | channel id cmd => exact absurd rfl (other id cmd)
    | openTunnel | remoteForward | openSession | connected => rfl
  cases order with
  | openTunnel kind addr port origHost origPort =>
    rw [unsent (by simp), append_nil]
    simp only [onOrder]
    split
    all_goals exact (plain (by simp)).keeps rfl rfl fun _ => rfl
  | remoteForward bind port targetHost targetPort =>
    rw [unsent (by simp), append_nil]
    exact (plain (by simp)).keeps rfl rfl fun _ => rfl
  | openSession spec resizing endOnClose =>
    rw [unsent (by simp), append_nil]
    simp only [onOrder]
    split
    · exact plain (by simp)
    · exact (plain (by simp)).keeps rfl rfl fun _ => rfl
  | connected peerId peerWindow peerMax result =>
    rw [unsent (by simp), append_nil]
    have kept := plain (by simp)
    cases result with
    | ok =>
      have unused : ∀ worker ∈ conn.workers, worker.id ≠ conn.nextId :=
        fair_seats fair (by simp only [Connection.seats, queued])
      have moved : Courteous ⟨{ conn with
          orders := rest
          pendingConnects := conn.pendingConnects - 1
          nextId := (conn.nextId + 1) % 2 ^ 32
          sent := conn.sent ++ [openConfirmPacket peerId conn.nextId] }, posts⟩ := kept.keeps rfl rfl fun _ => rfl
      exact moved.spawns .forward unused
    | error reason => exact kept.keeps rfl rfl fun _ => rfl
  | channel id cmd =>
    have mine : conn.queue id = cmd :: Connection.queue { conn with orders := rest } id := by
      rw [popped, Order.cmdFor, if_pos rfl]
      rfl
    have others (other : Nat) (apart : other ≠ id) :
      Connection.queue { conn with orders := rest } other = conn.queue other := by
      rw [popped, Order.cmdFor, if_neg fun same => apart same.symm]
      rfl
    have turned : conn.turn config .order =
        (conn.channel id).map fun pair => (id, pair.1, pair.1.chan.command pair.2 cmd) := by
      rw [Connection.turn, queued]
    have same : channel { conn with orders := rest } id = conn.channel id := rfl
    simp only [onOrder, same]
    cases there : conn.channel id with
    | none =>
      have idle : conn.posts config .order = [] := by rw [Connection.posts, turned, there]; rfl
      rw [idle, append_nil]
      -- The channel is gone, and so the command is passed over.
      have absent : id ∉ conn.channels := by
        intro member
        obtain ⟨entry, found⟩ := Option.isSome_iff_exists.mp (AList.lookup_isSome.mpr member)
        obtain ⟨worker, tended⟩ := courteous.tended id entry found
        have working := tended.working
        dsimp only at working
        rw [Connection.channel, found] at there
        simp only [Option.bind_eq_bind, Option.bind_some, working] at there
        cases there
      refine courteous.passes rfl rfl (fun other member => others other fun clash => absent (clash ▸ member)) ?_
      intro other some_
      by_cases here : other = id
      · rw [here, mine]
        exact cons_ne_nil _ _
      · rw [← others other here]
        exact some_
    | some pair =>
      have sends : conn.posts config .order =
          (pair.1.chan.command pair.2 cmd).sent.map fun message => ⟨pair.1.worker, pair.1.chan.peerId, message⟩ := by
        rw [Connection.posts, turned, there]
        rfl
      rw [sends]
      refine @Courteous.applies _ _ _ _ _ _
        { conn with orders := rest } courteous there rfl rfl others ?_ ?_ command_line.1
        command_line.2
      · intro _
        rw [mine]
        exact cons_ne_nil _ _
      · intro worker tended
        have tidy := tended.tidy
        dsimp only at tidy
        rw [mine] at tidy
        exact tidy.commands

theorem courteous_step (courteous : Courteous posting) (fair : posting.fair config event = true)
    (ran : posting.step config event = some later) : Courteous later := by
  obtain ⟨next, stepped, rfl⟩ := Option.map_eq_some_iff.mp ran
  obtain ⟨after, moves, same⟩ := step_moves stepped
  have idle (none_ : posting.conn.turn config event = none) (kept : Courteous ⟨after, posting.posts⟩) :
      Courteous ⟨after, posting.posts ++ posting.conn.posts config event⟩ := by
    rw [posts, none_, append_nil]
    exact kept
  have moved : Courteous ⟨after, posting.posts ++ posting.conn.posts config event⟩ := by
    cases moves with
    | @packet parked payload world _ running ok =>
      let marked := (posting.conn.marked parked)
      have kept : Courteous ⟨marked, posting.posts⟩ := courteous.keeps rfl rfl fun _ => rfl
      exact @Courteous.hears config marked after payload parked world posting.posts kept fair ok
    | broken running failed => exact idle (broken_idle failed) (courteous.keeps rfl rfl fun _ => rfl)
    | order queued => exact courteous.carries fair queued
    | tick running ok =>
      rcases tick_ok ok with same | same
      all_goals exact idle rfl (courteous.keeps same.channels same.workers fun id => by rw [queue, same.orders]; rfl)
    | silent | fall => exact idle rfl courteous
    | @submit order _ running able =>
      refine idle rfl (courteous.keeps rfl rfl fun id => ?_)
      cases order with
      | openTunnel | remoteForward | openSession => simp [queue, Order.cmdFor]
      | connected | channel => cases able
    | act ran => exact idle rfl (courteous.acts ran)
    | dialEnds =>
      refine idle rfl (courteous.keeps rfl rfl fun id => ?_)
      simp only [queue]
      split
      · rfl
      · simp [Order.cmdFor]
  rcases same with rfl | rfl
  · exact moved
  · exact moved.falls

end Courtesy

/-- In every run in which the peer asks for nothing on a forwarded channel that we have
closed, and no channel is given an identifier that another one had: every packet for a
channel was sent for one of the tasks, and what was sent for each of them is in order. -/
theorem nothing_follows_close {events : List Event} {posting : Posting}
    (path : Path (guarded (Posting.step config) (Posting.fair config)) .start events posting) :
    posting.conn.sent.filter forChannel = posting.posts.map Post.packet ∧ ∀ worker, Orderly (posting.said worker) := by
  have initial : Posted .start ∧ Courteous .start := ⟨rfl, courteous_start⟩
  have invariant : Posted posting ∧ Courteous posting := by
    refine path_invariant (fun _ posting => Posted posting ∧ Courteous posting) initial ?_ path
    rintro past before event after _ ran ⟨posted, courteous⟩
    obtain ⟨fair, moved⟩ := guarded_eq_some.mp ran
    exact ⟨posted_step posted moved, courteous_step courteous fair moved⟩
  exact ⟨invariant.1, invariant.2.orderly⟩

section Samples

/-- A stream is forwarded; the target closes its side, and then refuses what is written to
it, so that the server closes the channel. -/
def closedStream : List Event :=
  [.packet false (openPacket "direct-tcpip" 7 ++ Writer.utf8 "localhost" ++ Writer.u32 80 ++
  Writer.utf8 "" ++ Writer.u32 0)
    ⟨none, none⟩,
   .dialEnds 0 (.ok ()),
   .order,
   .act 0 (.forward .readEnds),
   .packet false (encode 0 (.data [1])) ⟨none, none⟩,
   .act 0 (.forward .recv),
   .act 0 (.forward .writeFails),
   .order,
   .order]

/-- The peer, which has yet to answer, asks for something. -/
def lateRequest : Event := .packet false (encode 0 (.request "keepalive@openssh.com" true [])) ⟨none, none⟩

theorem late_request_run : ((closedStream ++ [lateRequest]).foldlM (Posting.step openServer) .start).isSome = true := by
  decide +kernel

theorem closed_stream_run :
    (closedStream.foldlM (guarded (Posting.step openServer) (Posting.fair openServer)) .start).isSome = true := by
  decide +kernel

/-- CHANNEL_FAILURE is sent after CLOSE. -/
theorem answer_follows_close : ∃ posting, Path (Posting.step openServer) .start (closedStream ++
    [lateRequest]) posting ∧
    posting.conn.sent.filter forChannel = [encode 7 .eof, encode 7 .close, encode 7 (.reply false)] ∧
    posting.said 0 = [.eof, .close, .reply false] ∧ ¬Orderly (posting.said 0) := by
  let posting := ((closedStream ++ [lateRequest]).foldlM (Posting.step openServer) .start).get late_request_run
  have said : posting.said 0 = [.eof, .close, .reply false] := by decide +kernel
  refine ⟨posting, path_of_some _ late_request_run, by decide +kernel, said, ?_⟩
  rw [said]
  intro orderly
  exact (orderly [.eof, .close] (.reply false) [] rfl).1 (by decide)

theorem closed_stream_in_order : ∃ posting,
    Path (guarded (Posting.step openServer) (Posting.fair openServer)) .start closedStream posting ∧
    posting.said 0 = [.eof, .close] ∧
    posting.conn.sent.filter forChannel = posting.posts.map Post.packet ∧ ∀ worker, Orderly (posting.said worker) := by
  let posting := (closedStream.foldlM
    (guarded (Posting.step openServer) (Posting.fair openServer)) .start).get closed_stream_run
  have said : posting.said 0 = [.eof, .close] := by decide +kernel
  exact ⟨posting, path_of_some _ closed_stream_run, said, nothing_follows_close (path_of_some _ closed_stream_run)⟩

end Samples

end Shh.Connections
