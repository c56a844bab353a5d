import Shh.Connections

/-!
# What a client does for its server

A client's connection is the same loop as a server's. It differs by its configuration:
no target may be connected to and nothing may be listened on for the peer. What it does
outside of the connection is then to connect to the target of a remote forward that it
asked for and the server granted, or to its agent.

One kind of open is gated by nothing: a session is served whoever asks for it, and a
session runs commands. The results here are about runs in which the server does not ask
for one.
-/

namespace Shh.Connections

open List Wire Channels Runs Computations Connection

variable {config : Config} {conn next : Connection} {world : World} {payload : Bytes} {past more : List Event}

variable {index id window max port : Nat} {worker : Worker} {addr : String}

/-- A configuration as the client binaries have it. -/
structure Config.IsClient (config : Config) : Prop where
  policy : config.policy = .denyAll
  listenPolicy : config.listenPolicy = .denyAll
  permitAgent : config.permitAgent = false

/-- What the sessions of a connection have started. -/
def Connection.programs (conn : Connection) : List Program :=
  conn.workers.filterMap fun worker =>
    match worker.task with
    | .server task => task.program
    | _ => none

/-- The event has the connection serve a session. -/
def Connection.servesSession (config : Config) (conn : Connection) : Event → Bool
  | .packet _ payload _ => conn.asksSession config payload
  | _ => false

/-- The client has asked for a remote forward. -/
def Asked (past : List Event) (request : String × Nat × String × Nat) : Prop :=
  .submit (.remoteForward request.1 request.2.1 request.2.2.1 request.2.2.2) ∈ past

/-- What a client may do outside of its connection. -/
inductive Justified (config : Config) (granted : List (String × Nat × String × Nat)) : Effect → Prop where
  | forward {bind host port target} (member : (bind, port, host, target) ∈ granted) :
      Justified config granted (.dialed (.host host target))
  | agent {path} (configured : config.agentPath = some path) : Justified config granted (.dialed (.agent path))

/-- What holds of a client that serves no sessions, after some events. -/
structure Passive (config : Config) (past : List Event) (conn : Connection) : Prop where
  tasks : ∀ worker ∈ conn.workers, ∀ task, worker.task ≠ .server task
  listeners : conn.listeners = ∅
  effects : ∀ effect ∈ conn.effects, Justified config conn.granted effect
  forwards : ∀ key target, conn.remoteForwards.lookup key = some target →
    ∃ bind port, (bind, port, target) ∈ conn.granted
  granted : ∀ request ∈ conn.granted, Asked past request
  globals : ∀ bind port target, .forward bind port target ∈ conn.pendingGlobal → Asked past (bind, port, target)
  orders : ∀ bind port host target, .remoteForward bind port host target ∈ conn.orders →
    Asked past (bind, port, host, target)

theorem Passive.start (config : Config) : Passive config [] .start where
  tasks := fun _ member => absurd member not_mem_nil
  listeners := rfl
  effects := fun _ member => absurd member not_mem_nil
  forwards := fun key _ found => absurd ((AList.lookup_empty key).symm.trans found) nofun
  granted := fun _ member => absurd member not_mem_nil
  globals := fun _ _ _ member => absurd member not_mem_nil
  orders := fun _ _ _ _ member => absurd member not_mem_nil

theorem Passive.later (passive : Passive config past conn) : Passive config (past ++ more) conn where
  tasks := passive.tasks
  listeners := passive.listeners
  effects := passive.effects
  forwards := passive.forwards
  granted := fun request member => mem_append_left _ (passive.granted request member)
  globals := fun bind port target member => mem_append_left _ (passive.globals bind port target member)
  orders := fun bind port host target member => mem_append_left _ (passive.orders bind port host target member)

/-- A change of lines leaves the tasks. -/
theorem modify_task {workers : List Worker} {change : Worker → Worker}
    (member : worker ∈ workers.modify index change) (same : ∀ worker, (change worker).task = worker.task) :
    ∃ before ∈ workers, worker.task = before.task := by
  obtain ⟨position, bound, rfl⟩ := mem_iff_getElem.mp member
  rw [getElem_modify]
  have inside : position < workers.length := by simpa using bound
  split
  · exact ⟨workers[position], getElem_mem inside, same _⟩
  · exact ⟨workers[position], getElem_mem inside, rfl⟩

theorem fallen_task (member : worker ∈ conn.fallen.workers) :
    ∃ before ∈ conn.workers, worker.task = before.task := by
  obtain ⟨position, bound, rfl⟩ := mem_mapIdx.mp member
  refine ⟨conn.workers[position], getElem_mem bound, ?_⟩
  split <;> rfl

theorem Passive.falls (passive : Passive config past conn) : Passive config past conn.fallen where
  tasks := by
    intro worker member task kind
    obtain ⟨before, there, same⟩ := fallen_task member
    exact passive.tasks before there task (same.symm.trans kind)
  listeners := rfl
  effects := passive.effects
  forwards := passive.forwards
  granted := passive.granted
  globals := passive.globals
  orders := nofun

theorem Passive.aside (passive : Passive config past conn) (same : Aside conn next) : Passive config past next := by
  obtain ⟨_, _, forwards, listeners, globals, _, orders, _, workers, _, effects, granted⟩ := same
  constructor
  · exact workers ▸ passive.tasks
  · exact listeners.trans passive.listeners
  · exact effects ▸ granted ▸ passive.effects
  · exact forwards ▸ granted ▸ passive.forwards
  · exact granted ▸ passive.granted
  · exact globals ▸ passive.globals
  · exact orders ▸ passive.orders

/-- Starting a task that serves no session. -/
theorem Passive.spawns {peer task endOnClose} (passive : Passive config past conn)
    (kind : ∀ server, task ≠ .server server) :
    Passive config past (conn.spawn config id peer window max task endOnClose) := by
  refine { passive with tasks := ?_ }
  intro worker member server served
  rcases mem_append.mp member with before | last
  · split at before
    · obtain ⟨old, there, same⟩ := modify_task before (fun _ => rfl)
      exact passive.tasks old there server (same.symm.trans served)
    · exact passive.tasks worker before server served
  · obtain rfl := mem_singleton.mp last
    exact kind server served

theorem Passive.applies {entry turn} (passive : Passive config past conn) :
    Passive config past (conn.apply id entry turn) := by
  refine { passive with tasks := ?_ }
  intro worker member server served
  obtain ⟨old, there, same⟩ := modify_task member (fun _ => rfl)
  exact passive.tasks old there server (same.symm.trans served)

theorem lookup_remote_found {target}
    (found : conn.lookupRemote addr port = some target) : ∃ key, conn.remoteForwards.lookup key = some target := by
  rcases Option.or_eq_some_iff.mp found with here | ⟨_, wild⟩
  · exact ⟨_, here⟩
  · obtain ⟨name, _, there⟩ := exists_of_findSome?_eq_some wild
    exact ⟨_, there⟩

/-- A packet that asks for no session. -/
theorem Passive.handles (client : config.IsClient) (passive : Passive config past conn)
    (unasked : conn.asksSession config payload = false) (handled : Handled config conn payload next) :
    Passive config past next := by
  cases handled with
  | aside same => exact passive.aside same
  | serves asked => cases unasked.symm.trans asked
  | dials room licensed =>
    refine { passive with effects := ?_ }
    intro effect member
    rcases mem_append.mp member with before | last
    · exact passive.effects effect before
    · obtain rfl := mem_singleton.mp last
      cases licensed with
      | direct permitted =>
        rw [client.policy] at permitted
        cases permitted
      | forwarded found =>
        obtain ⟨key, there⟩ := lookup_remote_found found
        obtain ⟨bind, port, granted⟩ := passive.forwards key _ there
        exact .forward granted
      | agent configured => exact .agent configured
  | confirmed confirms asked kind read =>
    refine Passive.spawns { passive with } ?_
    rintro server rfl
    rcases kind with other | ⟨_, _, other⟩ <;> cases other
  | declined => exact { passive with }
  | heard read there ok => exact passive.applies
  | bound same permitted =>
    rw [client.listenPolicy] at permitted
    cases permitted
  | unbound found same =>
    rw [passive.listeners] at found
    cases (AList.lookup_empty _).symm.trans found
  | replied queued =>
    refine { passive with globals := fun bind port target member => passive.globals bind port target ?_ }
    rw [queued]
    exact mem_cons_of_mem _ member
  | @grants bind port actual target rest queued =>
    have asked : Asked past (bind, port, target) := passive.globals bind port target (queued ▸ mem_cons_self)
    refine ⟨passive.tasks, passive.listeners, ?_, ?_, ?_, ?_, passive.orders⟩
    · intro effect member
      cases passive.effects effect member with
      | forward there => exact .forward (mem_append_left _ there)
      | agent configured => exact .agent configured
    · intro key other found
      by_cases same : key = (bind, actual)
      · subst same
        rw [AList.lookup_insert] at found
        cases found
        exact ⟨bind, port, mem_append_right _ (mem_singleton.mpr rfl)⟩
      · rw [AList.lookup_insert_ne same] at found
        obtain ⟨bind, port, there⟩ := passive.forwards key other found
        exact ⟨bind, port, mem_append_left _ there⟩
    · intro request member
      rcases mem_append.mp member with before | last
      · exact passive.granted request before
      · obtain rfl := mem_singleton.mp last
        exact asked
    · intro bind port target member
      exact passive.globals bind port target (queued ▸ mem_cons_of_mem _ member)

theorem Passive.carries {order rest} (passive : Passive config past conn)
    (queued : conn.orders = order :: rest) : Passive config past
    ({ conn with orders := rest }.onOrder config order) := by
  have shorter : Passive config past { conn with orders := rest } :=
    { passive with orders := fun bind port host target member =>
        passive.orders bind port host target (queued ▸ mem_cons_of_mem _ member) }
  cases order with
  | openTunnel kind addr port origHost origPort =>
    simp only [onOrder]
    split
    all_goals exact { shorter with }
  | remoteForward bind port targetHost targetPort =>
    refine { shorter with globals := ?_ }
    intro other at_ target member
    rcases mem_append.mp member with before | last
    · exact shorter.globals other at_ target before
    · obtain ⟨rfl, rfl, rfl⟩ := PendingGlobal.forward.inj (mem_singleton.mp last)
      exact passive.orders _ _ _ _ (queued ▸ mem_cons_self)
  | openSession spec resizing endOnClose =>
    simp only [onOrder]
    split
    · exact shorter
    · exact { shorter with }
  | connected peerId peerWindow peerMax result =>
    cases result with
    | ok =>
      have counted : Passive config past
          { conn with
            orders := rest
            pendingConnects := conn.pendingConnects - 1
            nextId := (conn.nextId + 1) % 2 ^ 32
            sent := conn.sent ++ [openConfirmPacket peerId conn.nextId] } := { shorter with }
      refine counted.spawns ?_
      intro server same
      cases same
    | error reason => exact { shorter with }
  | channel id cmd =>
    simp only [onOrder]
    split
    · exact shorter
    · exact shorter.applies

/-- A task stays of its kind, and asks only for its channel. -/
theorem Passive.acts {label} (passive : Passive config past conn)
    (ran : conn.act index label = some next) : Passive config past next := by
  obtain ⟨worker, task, line, there, moved, rfl⟩ := act_some ran
  refine { passive with tasks := ?_, orders := ?_ }
  · intro other member server served
    rcases mem_or_eq_of_mem_set member with before | rfl
    · exact passive.tasks other before server served
    · obtain rfl : task = .server server := served
      obtain ⟨_, _, _, _, _, kind, _⟩ | ⟨_, _, _, _, _, kind, _⟩ | ⟨mine, _, _, kind, _⟩ := Task.step_cases moved
      · cases kind
      · cases kind
      · exact passive.tasks worker (mem_of_getElem? there) mine kind
  · intro bind port host target member
    rcases mem_append.mp member with before | queued
    · exact passive.orders bind port host target before
    · obtain ⟨_, _, same⟩ := mem_map.mp queued
      cases same

theorem passive_step {event} (client : config.IsClient) (ran : conn.step config event = some next)
    (unserved : conn.servesSession config event = false) (passive : Passive config past conn) :
    Passive config (past ++ [event]) next := by
  have kept : Passive config (past ++ [event]) conn := passive.later
  refine step_keeps _ (fun _ => Passive.falls) (fun after moves => ?_) ran
  cases moves with
  | @packet parked _ _ _ running ok =>
    have marked : Passive config _ (conn.marked parked) := { kept with }
    exact marked.handles client unserved (packet_handled ok)
  | broken | silent | fall => exact { kept with }
  | order queued => exact kept.carries queued
  | tick running ok =>
    rcases tick_ok ok with same | same
    · exact kept.aside same
    · refine Passive.aside ?_ same
      refine { kept with globals := ?_ }
      intro bind port target member
      rcases mem_append.mp member with before | last
      · exact kept.globals bind port target before
      · cases mem_singleton.mp last
  | submit running able =>
    refine { kept with orders := ?_ }
    intro bind port host target member
    rcases mem_append.mp member with before | last
    · exact kept.orders bind port host target before
    · cases mem_singleton.mp last
      exact mem_append_right _ (mem_singleton.mpr rfl)
  | act ran => exact kept.acts ran
  | dialEnds there =>
    refine { kept with orders := ?_ }
    intro bind port host target member
    split at member
    · exact kept.orders bind port host target member
    · rcases mem_append.mp member with before | last
      · exact kept.orders bind port host target before
      · cases mem_singleton.mp last

/-- An open that the client has asked for in no way, by its kind and what follows the
common fields. -/
inductive Unrequested (config : Config) (conn : Connection) : String → Bytes → Prop where
  | session {rest} : Unrequested config conn "session" rest
  | direct {rest host port} (read : tunnelAddress.parse rest = .ok (host, port)) :
      Unrequested config conn "direct-tcpip" rest
  | forwarded {rest addr port} (read : tunnelAddress.parse rest = .ok (addr, port))
      (unasked : ∀ bind ∈ [addr, "", "0.0.0.0", "::", "*"], conn.remoteForwards.lookup (bind, port) = none) :
      Unrequested config conn "forwarded-tcpip" rest
  | agent {rest} (read : Reader.finish.parse rest = .ok ()) (unset : config.agentPath = none) :
      Unrequested config conn agentChannel rest

theorem lookup_remote_none
    (unasked : ∀ bind ∈ [addr, "", "0.0.0.0", "::", "*"], conn.remoteForwards.lookup (bind, port) = none) :
    conn.lookupRemote addr port = none := by
  refine Option.or_eq_none_iff.mpr ⟨unasked addr mem_cons_self, ?_⟩
  exact List.findSome?_eq_none_iff.mpr fun wild member => unasked wild (mem_cons_of_mem _ member)

theorem unrequested_refused {kind sender rest} (client : config.IsClient)
    (opens : payload.headD 0 = Msg.channelOpen) (header : openHeader payload = .ok ((kind, sender, window, max), rest))
    (unrequested : Unrequested config conn kind rest) (unserved : conn.asksSession config payload = false) :
    ∃ reason description, conn.onChannelOpen config payload = .ok (conn.rejectOpen sender reason description) := by
  unfold onChannelOpen
  rw [header]
  simp only [bind, Except.bind]
  split
  · exact ⟨_, _, rfl⟩
  · rename_i full
    cases unrequested with
    | session =>
      have elsewhere : config.platform.unix = false := by
        have room : conn.load < maxChannels := Nat.lt_of_not_le full
        rw [asksSession, header, opens] at unserved
        simpa only [room, decide_true, Bool.and_true] using unserved
      rw [if_pos rfl, elsewhere]
      exact ⟨_, _, rfl⟩
    | direct read =>
      rw [if_neg (by decide), if_pos rfl, read, client.policy]
      exact ⟨_, _, rfl⟩
    | forwarded read unasked =>
      rw [if_neg (by decide), if_neg (by decide), if_pos rfl, read]
      simp only [lookup_remote_none unasked]
      exact ⟨_, _, rfl⟩
    | agent read unset =>
      rw [if_neg (by decide), if_neg (by decide), if_neg (by decide), if_pos rfl, read, unset]
      cases config.platform.unix <;> exact ⟨_, _, rfl⟩

/-- A client that is asked for no session starts nothing and listens nowhere. It connects
only to the targets of forwards it has asked for and the server has granted, and to its
agent; and it refuses every open it has not asked for. -/
theorem client_serves_nobody {events : List Event} (client : config.IsClient)
    (path : Path (guarded (Connection.step config) fun conn event => !conn.servesSession config event) .start events conn) :
    conn.programs = [] ∧
      (∀ effect ∈ conn.effects,
        (∃ bind port host target, effect = .dialed (.host host target) ∧ (bind, port, host, target) ∈ conn.granted ∧
          Asked events (bind, port, host, target)) ∨
        ∃ path, effect = .dialed (.agent path) ∧ config.agentPath = some path) ∧
      ∀ parked payload world kind sender window max rest, conn.done = false → payload.headD 0 = Msg.channelOpen →
        openHeader payload = .ok ((kind, sender, window, max), rest) → Unrequested config conn kind rest →
        conn.servesSession config (.packet parked payload world) = false →
        ∃ reason description, (conn.step config (.packet parked payload world)).map (·.sent) =
          some (conn.sent ++ [openFailurePacket sender reason description]) := by
  have passive : Passive config events conn := by
    refine path_invariant (Passive config) (.start config) ?_ path
    intro past state event next _ ran passive
    obtain ⟨allowed, moved⟩ := guarded_eq_some.mp ran
    exact passive_step client moved (Bool.not_eq_true' _ ▸ allowed) passive
  refine ⟨?_, ?_, ?_⟩
  · refine filterMap_eq_nil_iff.mpr fun worker member => ?_
    split
    · rename_i task kind
      exact absurd kind (passive.tasks worker member task)
    · rfl
  · intro effect member
    cases passive.effects effect member with
    | forward granted => exact .inl ⟨_, _, _, _, rfl, granted, passive.granted _ granted⟩
    | agent configured => exact .inr ⟨_, rfl, configured⟩
  · intro parked payload world kind sender window max rest running opens header unrequested unserved
    have marked : Unrequested config (conn.marked parked) kind rest := by
      cases unrequested with
      | session => exact .session
      | direct read => exact .direct read
      | forwarded read unasked => exact .forwarded read unasked
      | agent read unset => exact .agent read unset
    obtain ⟨reason, description, refused⟩ := unrequested_refused client opens header marked unserved
    refine ⟨reason, description, ?_⟩
    have handled : onPacket config (conn.marked parked) world payload =
        .ok (rejectOpen (conn.marked parked) sender reason description) := by
      rw [← refused, onPacket, opens]
      rfl
    have open_ : ¬conn.done = true := by
      rw [running]
      exact Bool.false_ne_true
    simp only [step, handled, settle, rejectOpen, send, if_neg open_, Option.map_some]

/-- A client that forwards nothing for its server, and has no agent to show. -/
def plainClient : Config where
  platform := ⟨true, true⟩
  policy := .denyAll
  listenPolicy := .denyAll
  agentPath := none
  forceCommand := none
  permitAgent := false
  keepaliveMaxMissed := 3

theorem plain_client_is_client : plainClient.IsClient := ⟨rfl, rfl, rfl⟩

/-- A server opens a session and asks it to run a command. -/
def sessionOpened : List Event :=
  [.packet false (openPacket "session" 0) ⟨none, none⟩,
   .packet false (encode 0 (.request "exec" true (Writer.utf8 "id"))) ⟨none, none⟩,
   .act 0 (.server (.recv ⟨true, true, true, true⟩))]

theorem client_runs_command : ∃ conn, plainClient.IsClient ∧
    Path (Connection.step plainClient) .start sessionOpened conn ∧
    conn.programs = [.shell (some "id") none] :=
  ⟨_, plain_client_is_client, path_of_some sessionOpened (by decide +kernel), by decide +kernel⟩

/-- The client asks for a remote forward, the server grants it and opens a connection to it. -/
def forwardGranted : List Event :=
  [.submit (.remoteForward "" 8080 "localhost" 80),
   .order,
   .packet false (Writer.byte Msg.requestSuccess) ⟨none, none⟩,
   .packet false (openPacket "forwarded-tcpip" 0 ++ Writer.utf8 "" ++ Writer.u32 8080 ++ Writer.utf8 "" ++ Writer.u32 0)
     ⟨none, none⟩]

theorem client_dials_granted : ∃ conn :
    Connection, conn.effects = [.dialed (.host "localhost" 80)] ∧ conn.programs = [] ∧
    (∀ effect ∈ conn.effects,
      (∃ bind port host target, effect = .dialed (.host host target) ∧ (bind, port, host, target) ∈ conn.granted ∧
        Asked forwardGranted (bind, port, host, target)) ∨
      ∃ path, effect = .dialed (.agent path) ∧ plainClient.agentPath = some path) := by
  have served := client_serves_nobody plain_client_is_client (path_of_some forwardGranted (by decide +kernel))
  exact ⟨_, by decide +kernel, served.1, served.2.1⟩

end Shh.Connections
