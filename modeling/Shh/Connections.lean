import Shh.Echoes

/-!
# The connection loop

One loop owns the transport of a connection, whichever side it is on. It keeps the
channels that exist, those that were asked for, the remote forwards that were granted
and the listeners that were bound, and it starts a task for every channel. Three kinds
of event reach it: a packet of the peer, a command of a task or of an acceptor, and the
ticks of a timer. Connects to local targets run on their own and report back by a
command.

A task outlives its channel: the loop drops the channel from its table when both sides
have closed it, and the task ends when it gets to it. So the state here holds every task
that was started, and the table only points to them.

Packets are read from bytes, as they come from the transport, which refuses empty ones.
What the transport makes of key exchange packets, and whether connects and binds succeed,
is part of the event. An error ends the connection.
-/

namespace Shh.Connections

open Wire Channels

/-- A table with one entry for a key. -/
abbrev Table (κ α : Type) := AList fun _ : κ => α

/-- How many channels there may be, asked for and established, and how many tunnels may
be waiting to be asked for. -/
def maxChannels : Nat := 256
def maxPendingOpens : Nat := 64

def agentChannel : String := "auth-agent@openssh.com"

/-- Which targets may be connected to, or listened on, for the peer. -/
inductive Policy where
  | denyAll
  | allowAll
  /-- `"*"` is any host, and port `0` any port. -/
  | allow (list : List (String × Nat))
deriving DecidableEq, Repr

def Policy.permits : Policy → String → Nat → Bool
  | .denyAll, _, _ => false
  | .allowAll, _, _ => true
  | .allow list, host, port => list.any fun (h, p) => (h = "*" || h = host) && (p = 0 || p = port)

/-- What a connection is set up with. -/
structure Config where
  platform : Platform
  /-- Gates incoming direct-tcpip opens. -/
  policy : Policy
  /-- Gates incoming tcpip-forward requests. -/
  listenPolicy : Policy
  agentPath : Option String
  forceCommand : Option String
  permitAgent : Bool
  keepaliveMaxMissed : Nat
deriving DecidableEq, Repr

/-- The loop's record of a channel, and the task that serves it. -/
structure Entry where
  chan : Chan
  worker : Nat
deriving DecidableEq, Repr

/-- A task that was started, with the channel it was started for. -/
structure Worker where
  id : Nat
  task : Task
  line : Line
  remoteMax : Nat
deriving DecidableEq, Repr

/-- A channel that was asked for. -/
inductive Pending where
  | direct
  | session (spec : SessionSpec) (resizing endOnClose : Bool)
deriving DecidableEq, Repr

/-- A global request that awaits its reply. -/
inductive PendingGlobal where
  | forward (bind : String) (port : Nat) (target : String × Nat)
  | keepalive
deriving DecidableEq, Repr

inductive Target where
  | host (host : String) (port : Nat)
  | agent (path : String)
deriving DecidableEq, Repr

/-- A connect under way for an open of the peer. -/
structure Dial where
  peerId : Nat
  peerWindow : Nat
  peerMax : Nat
  target : Target
deriving DecidableEq, Repr

/-- What is queued for the loop. -/
inductive Order where
  | openTunnel (kind addr : String) (port : Nat) (origHost : String) (origPort : Nat)
  | remoteForward (bind : String) (port : Nat) (targetHost : String) (targetPort : Nat)
  | openSession (spec : SessionSpec) (resizing endOnClose : Bool)
  | connected (peerId peerWindow peerMax : Nat) (result : Except String Unit)
  | channel (id : Nat) (cmd : Cmd)

/-- What the loop does outside of its connection. -/
inductive Effect where
  | dialed (target : Target)
  | bound (handle : Nat) (addr : String) (port : Nat)
  | closed (handle : Nat)
deriving DecidableEq, Repr

structure Connection where
  channels : Table Nat Entry
  pending : Table Nat Pending
  /-- Server bind to local target. -/
  remoteForwards : Table (String × Nat) (String × Nat)
  listeners : Table (String × Nat) Nat
  pendingGlobal : List PendingGlobal
  keepaliveOutstanding : Nat
  recvSinceTick : Bool
  nextId : Nat
  orders : List Order
  /-- Tunnels that may still be queued. -/
  openAdmission : Nat
  pendingConnects : Nat
  done : Bool
  workers : List Worker
  dials : List Dial
  /-- Packets sent and effects, oldest first, and the forwards the peer has granted. The
  code never reads these. -/
  sent : List Bytes
  effects : List Effect
  granted : List (String × Nat × String × Nat)

/-- What the rest of the system makes of an event: an error of the transport, and the
port a listener was bound to. -/
structure World where
  transport : Option Error
  bound : Option Nat

namespace Connection

def start : Connection where
  channels := ∅
  pending := ∅
  remoteForwards := ∅
  listeners := ∅
  pendingGlobal := []
  keepaliveOutstanding := 0
  recvSinceTick := true
  nextId := 0
  orders := []
  openAdmission := maxPendingOpens
  pendingConnects := 0
  done := false
  workers := []
  dials := []
  sent := []
  effects := []
  granted := []

def send (conn : Connection) (packet : Bytes) : Connection := { conn with sent := conn.sent ++ [packet] }

/-- The number of channels that count against the limit. -/
def load (conn : Connection) : Nat := conn.channels.keys.length + conn.pending.keys.length + conn.pendingConnects

def allocId (conn : Connection) : Nat × Connection :=
  (conn.nextId, { conn with nextId := (conn.nextId + 1) % 2 ^ 32 })

end Connection

section Packets

def adminProhibited : Nat := 1
def connectFailed : Nat := 2
def unknownChannelType : Nat := 3

/-- The head of a packet for a channel of the peer. -/
def chanPacket (kind : UInt8) (peer : Nat) : Bytes := Writer.byte kind ++ Writer.u32 peer

def encode (peer : Nat) : Message → Bytes
  | .data bytes => chanPacket Msg.channelData peer ++ Writer.string bytes
  | .extData kind bytes => chanPacket Msg.channelExtendedData peer ++ Writer.u32 kind ++ Writer.string bytes
  | .adjust add => chanPacket Msg.channelWindowAdjust peer ++ Writer.u32 add
  | .eof => chanPacket Msg.channelEof peer
  | .close => chanPacket Msg.channelClose peer
  | .request kind wantReply body =>
    chanPacket Msg.channelRequest peer ++ Writer.utf8 kind ++ Writer.boolean wantReply ++ body
  | .reply success => chanPacket (if success then Msg.channelSuccess else Msg.channelFailure) peer

def openFailurePacket (peer reason : Nat) (description : String) : Bytes :=
  chanPacket Msg.channelOpenFailure peer ++ Writer.u32 reason ++ Writer.utf8 description ++ Writer.utf8 ""

def openConfirmPacket (peer id : Nat) : Bytes :=
  chanPacket Msg.channelOpenConfirmation peer ++ Writer.u32 id ++ Writer.u32 localWindow ++ Writer.u32 maxChunk

def openPacket (kind : String) (id : Nat) : Bytes :=
  Writer.byte Msg.channelOpen ++ Writer.utf8 kind ++ Writer.u32 id ++ Writer.u32 localWindow ++ Writer.u32 maxChunk

/-- The last packet of a connection whose session has ended. -/
def goodbye : Bytes :=
  Writer.byte Msg.disconnect ++ Writer.u32 11 ++ Writer.utf8 "session closed" ++ Writer.utf8 ""

/-- The fields all opens have in common: kind, sender, window and packet size. -/
def openHeader : Reader (String × Nat × Nat × Nat) := do
  let _kind ← Reader.byte
  let kind ← Reader.utf8
  let sender ← Reader.u32
  let window ← Reader.u32
  let max ← Reader.u32
  return (kind, sender, window, max)

/-- The address of a tunnel. -/
def tunnelAddress : Reader (String × Nat) := do
  let host ← Reader.utf8
  let port ← Reader.u32
  Reader.require (port < 2 ^ 16) (.protocol "port out of range")
  let _origHost ← Reader.utf8
  let _origPort ← Reader.u32
  Reader.finish
  return (host, port)

/-- A message for a channel of ours. -/
def channelMessage : Reader (Nat × Message) := do
  let kind ← Reader.byte
  let id ← Reader.u32
  if kind = Msg.channelData then
    let bytes ← Reader.string
    return (id, .data bytes)
  else if kind = Msg.channelExtendedData then
    let ext ← Reader.u32
    let bytes ← Reader.string
    return (id, .extData ext bytes)
  else if kind = Msg.channelWindowAdjust then
    let add ← Reader.u32
    return (id, .adjust add)
  else if kind = Msg.channelEof then return (id, .eof)
  else if kind = Msg.channelClose then return (id, .close)
  else if kind = Msg.channelRequest then
    let name ← Reader.utf8
    let wantReply ← Reader.boolean
    let body ← Reader.rest
    return (id, .request name wantReply body)
  else return (id, .reply (kind = Msg.channelSuccess))

def openConfirmFields : Reader (Nat × Nat × Nat × Nat) := do
  let _kind ← Reader.byte
  let ours ← Reader.u32
  let peer ← Reader.u32
  let window ← Reader.u32
  let max ← Reader.u32
  Reader.finish
  return (ours, peer, window, max)

def openFailureFields : Reader Nat := do
  let _kind ← Reader.byte
  let ours ← Reader.u32
  let _reason ← Reader.u32
  return ours

def globalHeader : Reader (String × Bool) := do
  let _kind ← Reader.byte
  let name ← Reader.utf8
  let wantReply ← Reader.boolean
  return (name, wantReply)

def bindAddress : Reader (String × Nat) := do
  let bind ← Reader.utf8
  let port ← Reader.u32
  return (bind, port)

/-- A port that does not fit is taken for port `0`. -/
def fitPort (port : Nat) : Nat := if port < 2 ^ 16 then port else 0

/-- The port a peer allocated, from its reply. -/
def allocatedPort (payload : Bytes) : Nat :=
  match Reader.parse (do let _kind ← Reader.byte; Reader.u32) payload with
  | .ok port => fitPort port
  | .error _ => 0

def normalizeBind (bind : String) : String :=
  if bind = "" ∨ bind = "*" then "0.0.0.0" else if bind = "localhost" then "127.0.0.1" else bind

end Packets

namespace Connection

variable (config : Config)

/-- Start a task and enter its channel. A channel that had the id is lost, and its task's
queue with it. -/
def spawn (conn : Connection) (id peerId peerWindow peerMax : Nat) (task : Task) (endOnClose : Bool) : Connection :=
  let workers :=
    match conn.channels.lookup id with
    | some lost => conn.workers.modify lost.worker fun worker =>
      { worker with line := { worker.line with hungUp := true } }
    | none => conn.workers
  { conn with
    channels := conn.channels.insert id ⟨.make peerId task.isSession endOnClose, conn.workers.length⟩
    workers := workers ++ [⟨id, task, .make config.platform peerWindow, max 1 (min peerMax maxChunk)⟩] }

def spawnForward (conn : Connection) (id peerId peerWindow peerMax : Nat) : Connection :=
  conn.spawn config id peerId peerWindow peerMax (.forward .start) false

def spawnSessionServer (conn : Connection) (id peerId peerWindow peerMax : Nat) : Connection :=
  conn.spawn config id peerId peerWindow peerMax (.server (.make config.permitAgent config.forceCommand)) false

def spawnSessionClient (conn : Connection) (id peerId peerWindow peerMax : Nat) (spec : SessionSpec)
    (resizing endOnClose : Bool) : Connection :=
  conn.spawn config id peerId peerWindow peerMax (.client (.make spec resizing)) endOnClose

/-- Connect to a target and report back. -/
def spawnConnect (conn : Connection) (peerId peerWindow peerMax : Nat) (target : Target) : Connection :=
  { conn with
    pendingConnects := conn.pendingConnects + 1
    dials := conn.dials ++ [⟨peerId, peerWindow, peerMax, target⟩]
    effects := conn.effects ++ [.dialed target] }

def rejectOpen (conn : Connection) (peer reason : Nat) (description : String) : Connection :=
  conn.send (openFailurePacket peer reason description)

/-- The local target of a remote forward: the very address that was asked for, or a
wildcard on that port. -/
def lookupRemote (conn : Connection) (addr : String) (port : Nat) : Option (String × Nat) :=
  (conn.remoteForwards.lookup (addr, port)).or
    (["", "0.0.0.0", "::", "*"].findSome? fun wild => conn.remoteForwards.lookup (wild, port))

def onChannelOpen (conn : Connection) (payload : Bytes) : Except Error Connection := do
  let ((kind, sender, window, max), rest) ← openHeader payload
  if maxChannels ≤ conn.load then return conn.rejectOpen sender adminProhibited "too many open channels"
  else if kind = "session" then
    if config.platform.unix then
      let (id, conn) := conn.allocId
      return (conn.send (openConfirmPacket sender id)).spawnSessionServer config id sender window max
    else return conn.rejectOpen sender unknownChannelType "sessions are not served on this platform"
  else if kind = "direct-tcpip" then
    let (host, port) ← tunnelAddress.parse rest
    if config.policy.permits host port then return conn.spawnConnect sender window max (.host host port)
    else return conn.rejectOpen sender adminProhibited "forwarding to that target is not permitted"
  else if kind = "forwarded-tcpip" then
    let (addr, port) ← tunnelAddress.parse rest
    match conn.lookupRemote addr port with
    | some (host, port) => return conn.spawnConnect sender window max (.host host port)
    | none => return conn.rejectOpen sender adminProhibited "no matching remote forward"
  else if kind = agentChannel then
    Reader.finish.parse rest
    match config.platform.unix, config.agentPath with
    | true, some path => return conn.spawnConnect sender window max (.agent path)
    | _, _ => return conn.rejectOpen sender adminProhibited "agent forwarding was not requested"
  else return conn.rejectOpen sender unknownChannelType "unsupported channel type"

def onOpenConfirm (conn : Connection) (payload : Bytes) : Except Error Connection := do
  let (ours, peer, window, max) ← openConfirmFields.parse payload
  let after := { conn with pending := conn.pending.erase ours }
  match conn.pending.lookup ours with
  | none => throw (.protocol "confirmation for an unknown channel")
  | some .direct => return after.spawnForward config ours peer window max
  | some (.session spec resizing endOnClose) =>
    return after.spawnSessionClient config ours peer window max spec resizing endOnClose

def onOpenFailure (conn : Connection) (payload : Bytes) : Except Error Connection := do
  let ours ← openFailureFields.parse payload
  let after := { conn with pending := conn.pending.erase ours }
  match conn.pending.lookup ours with
  | some (.session _ _ true) => return { after with done := true }
  | _ => return after

/-- What the loop made of an event on a channel. -/
def apply (conn : Connection) (id : Nat) (entry : Entry) (turn : Turn) : Connection :=
  { conn with
    channels :=
      match turn.chan with
      | some chan => conn.channels.insert id { entry with chan }
      | none => conn.channels.erase id
    workers := conn.workers.modify entry.worker fun worker => { worker with line := turn.line }
    sent := conn.sent ++ turn.sent.map (encode entry.chan.peerId) ++ if turn.done then [goodbye] else []
    done := conn.done || turn.done }

/-- The channel of an id, with the line to its task. Every entry has a task. -/
def channel (conn : Connection) (id : Nat) : Option (Entry × Line) := do
  let entry ← conn.channels.lookup id
  let worker ← conn.workers[entry.worker]?
  return (entry, worker.line)

/-- A message for a channel; one for a channel that is not there is passed over. -/
def onChannelMessage (conn : Connection) (id : Nat) (message : Message) : Except Error Connection :=
  match conn.channel id with
  | none => .ok conn
  | some (entry, line) => (entry.chan.deliver config.platform line message).map (conn.apply id entry)

/-- A peer asks for a listener. -/
def handleTcpipForward (conn : Connection) (world : World) (bind : String) (reqPort : Nat)
    (wantReply : Bool) : Connection :=
  let reqPort := fitPort reqPort
  let addr := normalizeBind bind
  let refuse := if wantReply then conn.send (Writer.byte Msg.requestFailure) else conn
  if config.listenPolicy.permits bind reqPort || config.listenPolicy.permits addr reqPort then
    match world.bound with
    | none => refuse
    | some actual =>
      let handle := conn.effects.length
      let conn :=
        if wantReply then
          conn.send (Writer.byte Msg.requestSuccess ++ if reqPort = 0 then Writer.u32 actual else [])
        else conn
      let listeners := if reqPort ≠ actual then conn.listeners.insert (addr, reqPort) handle else conn.listeners
      { conn with
        listeners := listeners.insert (addr, actual) handle
        effects := conn.effects ++ [.bound handle addr actual] }
  else refuse

def onGlobalRequest (conn : Connection) (world : World) (payload : Bytes) : Except Error Connection := do
  let ((name, wantReply), rest) ← globalHeader payload
  if name = "tcpip-forward" then
    let (bind, port) ← bindAddress.parse rest
    return conn.handleTcpipForward config world bind port wantReply
  else if name = "cancel-tcpip-forward" then
    let (bind, port) ← bindAddress.parse rest
    let key := (normalizeBind bind, fitPort port)
    let conn :=
      match conn.listeners.lookup key with
      | some handle =>
        { conn with listeners := conn.listeners.erase key, effects := conn.effects ++ [.closed handle] }
      | none => conn
    return if wantReply then conn.send (Writer.byte Msg.requestSuccess) else conn
  else return if wantReply then conn.send (Writer.byte Msg.requestFailure) else conn

/-- Replies come in the order of the requests. -/
def onGlobalReply (conn : Connection) (payload : Bytes) (success : Bool) : Connection :=
  match conn.pendingGlobal with
  | [] => conn
  | .keepalive :: rest => { conn with pendingGlobal := rest, keepaliveOutstanding := 0 }
  | .forward bind port target :: rest =>
    let conn := { conn with pendingGlobal := rest }
    if success then
      let actual := if port = 0 then allocatedPort payload else port
      { conn with
        remoteForwards := conn.remoteForwards.insert (bind, actual) target
        granted := conn.granted ++ [(bind, port, target)] }
    else conn

def onPacket (conn : Connection) (world : World) (payload : Bytes) : Except Error Connection :=
  let kind := payload.headD 0
  if kind = Msg.ignore ∨ kind = Msg.debug ∨ kind = Msg.unimplemented then .ok conn
  else if kind = Msg.extInfo ∨ kind = Msg.kexInit then world.transport.elim (.ok conn) .error
  else if kind = Msg.disconnect then .ok { conn with done := true }
  else if kind = Msg.globalRequest then conn.onGlobalRequest config world payload
  else if kind = Msg.requestSuccess then .ok (conn.onGlobalReply payload true)
  else if kind = Msg.requestFailure then .ok (conn.onGlobalReply payload false)
  else if kind = Msg.channelOpen then conn.onChannelOpen config payload
  else if kind = Msg.channelOpenConfirmation then conn.onOpenConfirm config payload
  else if kind = Msg.channelOpenFailure then conn.onOpenFailure payload
  else if Msg.channelWindowAdjust ≤ kind ∧ kind ≤ Msg.channelRequest then do
    let (id, message) ← channelMessage.parse payload
    conn.onChannelMessage config id message
  else if kind = Msg.channelSuccess ∨ kind = Msg.channelFailure then
    match channelMessage.parse payload with
    | .ok (id, message) => conn.onChannelMessage config id message
    | .error _ => .ok conn
  else if kind = Msg.newKeys ∨ kind = Msg.kexEcdhInit ∨ kind = Msg.kexEcdhReply then
    .error (.protocol "key exchange message outside key exchange")
  else .error (.protocol s!"unexpected message {kind.toNat}")

def onOrder (conn : Connection) : Order → Connection
  | .openTunnel kind addr port origHost origPort =>
    let conn := { conn with openAdmission := conn.openAdmission + 1 }
    if maxChannels ≤ conn.load then conn
    else
      let (id, conn) := conn.allocId
      send { conn with pending := conn.pending.insert id .direct }
        (openPacket kind id ++
          if kind = agentChannel then []
          else Writer.utf8 addr ++ Writer.u32 port ++ Writer.utf8 origHost ++ Writer.u32 origPort)
  | .remoteForward bind port targetHost targetPort =>
    send { conn with pendingGlobal := conn.pendingGlobal ++ [.forward bind port (targetHost, targetPort)] }
      (Writer.byte Msg.globalRequest ++ Writer.utf8 "tcpip-forward" ++ Writer.boolean true ++ Writer.utf8 bind ++
        Writer.u32 port)
  | .openSession spec resizing endOnClose =>
    if maxChannels ≤ conn.load then conn
    else
      let (id, conn) := conn.allocId
      send { conn with pending := conn.pending.insert id (.session spec resizing endOnClose) } (openPacket "session" id)
  | .connected peerId peerWindow peerMax result =>
    let conn := { conn with pendingConnects := conn.pendingConnects - 1 }
    match result with
    | .ok () =>
      let (id, conn) := conn.allocId
      (conn.send (openConfirmPacket peerId id)).spawnForward config id peerId peerWindow peerMax
    | .error reason => conn.rejectOpen peerId connectFailed s!"connect failed: {reason}"
  | .channel id cmd =>
    match conn.channel id with
    | none => conn
    | some (entry, line) => conn.apply id entry (entry.chan.command line cmd)

/-- Probe a silent peer, and give up on one that does not answer. -/
def onKeepaliveTick (conn : Connection) : Except Error Connection :=
  if conn.recvSinceTick then .ok { conn with recvSinceTick := false, keepaliveOutstanding := 0 }
  else if config.keepaliveMaxMissed ≤ conn.keepaliveOutstanding then
    .error (.disconnect s!"peer unresponsive to {conn.keepaliveOutstanding} keepalives")
  else
    .ok (send { conn with
      keepaliveOutstanding := conn.keepaliveOutstanding + 1
      pendingGlobal := conn.pendingGlobal ++ [.keepalive] }
        (Writer.byte Msg.globalRequest ++ Writer.utf8 "keepalive@openssh.com" ++ Writer.boolean true))

/-- The connection is over: the channels' tasks are woken, and nobody takes commands. -/
def fallen (conn : Connection) : Connection :=
  { conn with
    channels := ∅
    pending := ∅
    listeners := ∅
    orders := []
    done := true
    workers := conn.workers.mapIdx fun index worker =>
      if conn.channels.entries.any fun entry => entry.2.worker = index then { worker with line := worker.line.fall }
      else { worker with line := { worker.line with cmds := [], gone := true } } }

/-- The loop goes on unless an event was its last. -/
def settle (conn : Connection) : Except Error Connection → Connection
  | .ok next => if next.done then next.fallen else next
  | .error _ => conn.fallen

inductive Event where
  /-- A packet from the transport, or one it had kept back during a key exchange. -/
  | packet (parked : Bool) (payload : Bytes) (world : World)
  | order
  | tick
  /-- The transport fails. -/
  | fall
  /-- A handle of the connection is used. -/
  | submit (order : Order)
  | act (worker : Nat) (label : Task.Label)
  /-- A connect ends. -/
  | dialEnds (index : Nat) (result : Except String Unit)

/-- What can be asked of the loop from outside. -/
def submits (conn : Connection) : Order → Bool
  | .openTunnel _ _ _ _ _ => 0 < conn.openAdmission
  | .remoteForward _ _ _ _ | .openSession _ _ _ => true
  | .connected _ _ _ _ | .channel _ _ => false

/-- A task takes a step; what it asks of the loop is queued. -/
def act (conn : Connection) (index : Nat) (label : Task.Label) : Option Connection := do
  let worker ← conn.workers[index]?
  let (task, line) ← worker.task.step worker.remoteMax worker.line label
  return { conn with
    orders := conn.orders ++ line.cmds.map (.channel worker.id)
    workers := conn.workers.set index { worker with task, line := { line with cmds := [] } } }

/-- What arrives counts for the keepalive, unless it was held back. -/
abbrev marked (conn : Connection) (parked : Bool) : Connection :=
  { conn with recvSinceTick := conn.recvSinceTick || !parked }

def step (conn : Connection) : Event → Option Connection
  | .packet parked payload world =>
    if conn.done then none
    else
      let conn := conn.marked parked
      some (conn.settle (conn.onPacket config world payload))
  | .order =>
    match conn.orders with
    | [] => none
    | order :: rest =>
      let conn := { conn with orders := rest }
      some (conn.settle (.ok (conn.onOrder config order)))
  | .tick => if conn.done then none else some (conn.settle (conn.onKeepaliveTick config))
  | .fall => if conn.done then none else some conn.fallen
  | .submit order =>
    if conn.done = false ∧ conn.submits order then
      let openAdmission := match order with
        | .openTunnel _ _ _ _ _ => conn.openAdmission - 1
        | _ => conn.openAdmission
      some { conn with orders := conn.orders ++ [order], openAdmission }
    else none
  | .act worker label => conn.act worker label
  | .dialEnds index result =>
    match conn.dials[index]? with
    | none => none
    | some dial => some { conn with
        dials := conn.dials.eraseIdx index
        orders := if conn.done then conn.orders
          else conn.orders ++ [.connected dial.peerId dial.peerWindow dial.peerMax result] }

end Connection

section Handled

open Computations Connection

variable {config : Config} {conn next : Connection} {world : World} {payload : Bytes}

/-- Nothing changed but what was sent, and the marks of liveness. -/
structure Aside (conn next : Connection) : Prop where
  channels : next.channels = conn.channels
  pending : next.pending = conn.pending
  remoteForwards : next.remoteForwards = conn.remoteForwards
  listeners : next.listeners = conn.listeners
  pendingGlobal : next.pendingGlobal = conn.pendingGlobal
  nextId : next.nextId = conn.nextId
  orders : next.orders = conn.orders
  pendingConnects : next.pendingConnects = conn.pendingConnects
  workers : next.workers = conn.workers
  dials : next.dials = conn.dials
  effects : next.effects = conn.effects
  granted : next.granted = conn.granted

theorem Aside.refl (conn : Connection) : Aside conn conn := ⟨rfl, rfl, rfl, rfl, rfl, rfl, rfl, rfl, rfl, rfl, rfl, rfl⟩

theorem Aside.send (conn : Connection) (packet : Bytes) : Aside conn (conn.send packet) :=
  ⟨rfl, rfl, rfl, rfl, rfl, rfl, rfl, rfl, rfl, rfl, rfl, rfl⟩

/-- A step of a task: the task moves on, and what it asks for is queued. -/
theorem act_some {index label} (ran : conn.act index label = some next) :
    ∃ worker task line, conn.workers[index]? = some worker ∧
      worker.task.step worker.remoteMax worker.line label = some (task, line) ∧
      next = { conn with
        orders := conn.orders ++ line.cmds.map (.channel worker.id)
        workers := conn.workers.set index { worker with task, line := { line with cmds := [] } } } := by
  obtain ⟨worker, there, ran⟩ := Option.bind_eq_some_iff.mp ran
  obtain ⟨⟨task, line⟩, moved, ran⟩ := Option.bind_eq_some_iff.mp ran
  exact ⟨worker, task, line, there, moved, (Option.some.inj ran).symm⟩

/-- A tick sends at most a probe. -/
theorem tick_ok (ok : conn.onKeepaliveTick config = .ok next) :
    Aside conn next ∨
      Aside { conn with pendingGlobal := conn.pendingGlobal ++ [.keepalive] } next := by
  unfold onKeepaliveTick at ok
  split at ok
  · cases ok
    exact .inl ⟨rfl, rfl, rfl, rfl, rfl, rfl, rfl, rfl, rfl, rfl, rfl, rfl⟩
  · split at ok
    · cases ok
    · cases ok
      exact .inr ⟨rfl, rfl, rfl, rfl, rfl, rfl, rfl, rfl, rfl, rfl, rfl, rfl⟩

/-- A target the peer may have us connect to: one the policy permits, that of a remote
forward, or the agent. -/
inductive Licensed (config : Config) (conn : Connection) : Target → Prop where
  | direct {host port} (permitted : config.policy.permits host port = true) :
      Licensed config conn (.host host port)
  | forwarded {addr host port target} (found : conn.lookupRemote addr port = some (host, target)) :
      Licensed config conn (.host host target)
  | agent {path} (configured : config.agentPath = some path) : Licensed config conn (.agent path)

/-- The packet asks for a session, and the connection would serve one. -/
def Connection.asksSession (config : Config) (conn : Connection) (payload : Bytes) : Bool :=
  config.platform.unix && conn.load < maxChannels && payload.headD 0 = Msg.channelOpen &&
    match openHeader payload with
    | .ok ((kind, _), _) => kind = "session"
    | .error _ => false

/-- The ways a packet can be handled. -/
inductive Handled (config : Config) (conn : Connection) (payload : Bytes) : Connection → Prop where
  | aside {next : Connection} (same : Aside conn next) : Handled config conn payload next
  | serves {sender window max packet} (asked : conn.asksSession config payload = true) :
      Handled config conn payload
        ((conn.allocId.2.send packet).spawnSessionServer config conn.nextId sender window max)
  | dials {sender window max target} (room : conn.load < maxChannels)
      (licensed : Licensed config conn target) :
      Handled config conn payload (conn.spawnConnect sender window max target)
  | confirmed {ours peer window max pending task endOnClose}
      (confirms : payload.headD 0 = Msg.channelOpenConfirmation) (asked : conn.pending.lookup ours = some pending)
      (kind : task = .forward .start ∨ ∃ spec resizing, task = .client (.make spec resizing))
      (read : openConfirmFields.parse payload = .ok (ours, peer, window, max)) :
      Handled config conn payload
        (spawn config { conn with pending := conn.pending.erase ours } ours peer window max task endOnClose)
  | declined {ours done} :
      Handled config conn payload { conn with pending := conn.pending.erase ours, done }
  | heard {id} {entry : Entry} {line message turn}
      (read : channelMessage.parse payload = .ok (id, message)) (there : conn.channel id = some (entry, line))
      (ok : entry.chan.deliver config.platform line message = .ok turn)
      (kind : Msg.channelWindowAdjust ≤ payload.headD 0 ∧ payload.headD 0 ≤ Msg.channelFailure) :
      Handled config conn payload (conn.apply id entry turn)
  | bound {between : Connection} {bind port handle addr actual listeners} (same : Aside conn between)
      (permitted : config.listenPolicy.permits bind port = true) (kind : payload.headD 0 = Msg.globalRequest) :
      Handled config conn payload
        { between with listeners, effects := conn.effects ++ [.bound handle addr actual] }
  | unbound {between key handle} (found : conn.listeners.lookup key = some handle)
      (same : Aside { conn with
        listeners := conn.listeners.erase key, effects := conn.effects ++ [.closed handle] } between)
      (kind : payload.headD 0 = Msg.globalRequest) : Handled config conn payload between
  | replied {first rest keepaliveOutstanding}
      (queued : conn.pendingGlobal = first :: rest) :
      Handled config conn payload { conn with pendingGlobal := rest, keepaliveOutstanding }
  | grants {bind port actual target rest}
      (queued : conn.pendingGlobal = .forward bind port target :: rest) :
      Handled config conn payload
        { conn with
          pendingGlobal := rest
          remoteForwards := conn.remoteForwards.insert (bind, actual) target
          granted := conn.granted ++ [(bind, port, target)] }

attribute [local grind intro] Handled Licensed
attribute [local grind .] Aside.refl Aside.send

/-- An answer is sent if one is wanted. -/
theorem Aside.answer (conn : Connection) (wantReply : Bool) (packet : Bytes) :
    Aside conn (if wantReply then conn.send packet else conn) := by
  split
  · exact .send _ _
  · exact .refl _

theorem open_handled (kind : payload.headD 0 = Msg.channelOpen) (ok : conn.onChannelOpen config payload = .ok next) :
    Handled config conn payload next := by
  have served {name : String} {ids : Nat × Nat × Nat} {rest : Bytes} (header : openHeader payload = .ok ((name, ids), rest)) :
      conn.asksSession config payload = (config.platform.unix && conn.load < maxChannels && decide (name = "session")) := by
    simp only [asksSession, header, kind, decide_true, Bool.and_true]
  simp only [onChannelOpen, bind, Except.bind, pure, Except.pure] at ok
  grind [rejectOpen, allocId]

theorem confirm_handled (confirms : payload.headD 0 = Msg.channelOpenConfirmation)
    (ok : conn.onOpenConfirm config payload = .ok next) : Handled config conn payload next := by
  simp only [onOpenConfirm, bind, Except.bind, pure, Except.pure, throw, throwThe, MonadExceptOf.throw] at ok
  grind [spawnForward, spawnSessionClient]

theorem failure_handled (ok : conn.onOpenFailure payload = .ok next) : Handled config conn payload next := by
  simp only [onOpenFailure, bind, Except.bind, pure, Except.pure] at ok
  grind

/-- A message for a channel is passed over, or turns the channel. -/
theorem channel_message_ok {id message} (ok : conn.onChannelMessage config id message = .ok next) :
    (conn.channel id = none ∧ next = conn) ∨
      ∃ entry line turn, conn.channel id = some (entry, line) ∧
        entry.chan.deliver config.platform line message = .ok turn ∧ next = conn.apply id entry turn := by
  unfold onChannelMessage at ok
  split at ok
  · rename_i absent
    exact .inl ⟨absent, (Except.ok.inj ok).symm⟩
  · rename_i entry line there
    cases delivered : entry.chan.deliver config.platform line message with
    | error reason =>
      rw [delivered] at ok
      cases ok
    | ok turn =>
      rw [delivered] at ok
      exact .inr ⟨entry, line, turn, there, delivered, (Except.ok.inj ok).symm⟩

theorem message_handled {id : Nat} {message : Message}
    (kind : Msg.channelWindowAdjust ≤ payload.headD 0 ∧ payload.headD 0 ≤ Msg.channelFailure)
    (read : channelMessage.parse payload = .ok (id, message)) (ok : conn.onChannelMessage config id message = .ok next) :
    Handled config conn payload next := by
  rcases channel_message_ok ok with ⟨_, rfl⟩ | ⟨entry, line, turn, there, delivered, rfl⟩
  · exact .aside (.refl _)
  · exact .heard read there delivered kind

theorem forward_handled {bind : String} {port : Nat} {wantReply : Bool} (kind : payload.headD 0 = Msg.globalRequest) :
    Handled config conn payload (conn.handleTcpipForward config world bind port wantReply) := by
  unfold handleTcpipForward
  dsimp only
  split
  · rename_i permitted
    split
    · exact .aside (.answer _ _ _)
    · rw [(Aside.answer _ _ _).effects]
      rcases (Bool.or_eq_true _ _).mp permitted with permitted | permitted
      · exact .bound (.answer _ _ _) permitted kind
      · exact .bound (.answer _ _ _) permitted kind
  · exact .aside (.answer _ _ _)

theorem global_handled (kind : payload.headD 0 = Msg.globalRequest)
    (ok : conn.onGlobalRequest config world payload = .ok next) : Handled config conn payload next := by
  obtain ⟨⟨⟨name, wantReply⟩, rest⟩, _, ok⟩ := except_bind_ok.mp ok
  dsimp only at ok
  split at ok
  · obtain ⟨⟨bind, port⟩, _, ok⟩ := except_bind_ok.mp ok
    cases ok
    exact forward_handled kind
  · split at ok
    · obtain ⟨⟨bind, port⟩, _, ok⟩ := except_bind_ok.mp ok
      cases ok
      dsimp only
      cases found : conn.listeners.lookup (normalizeBind bind, fitPort port) with
      | none => exact .aside (.answer _ _ _)
      | some handle => exact .unbound found (.answer _ _ _) kind
    · cases ok
      exact .aside (.answer _ _ _)

theorem reply_handled {success : Bool} : Handled config conn payload (conn.onGlobalReply payload success) := by
  unfold onGlobalReply
  grind

/-- Where a packet goes by its kind. -/
inductive Dispatched (config : Config) (world : World) (conn : Connection) (payload : Bytes) : Connection → Prop where
  | ignored (unanswered : payload.headD 0 ≠ Msg.requestSuccess ∧ payload.headD 0 ≠ Msg.requestFailure)
      (unread : Msg.channelWindowAdjust ≤ payload.headD 0 → payload.headD 0 ≤ Msg.channelFailure →
        ∃ reason, channelMessage.parse payload = .error reason) : Dispatched config world conn payload conn
  | stopped (kind : payload.headD 0 = Msg.disconnect) : Dispatched config world conn payload { conn with done := true }
  | requests {next : Connection} (kind : payload.headD 0 = Msg.globalRequest)
      (ok : conn.onGlobalRequest config world payload = .ok next) : Dispatched config world conn payload next
  | replies {success} (kind : payload.headD 0 = if success then Msg.requestSuccess else Msg.requestFailure) :
      Dispatched config world conn payload (conn.onGlobalReply payload success)
  | opens {next : Connection} (kind : payload.headD 0 = Msg.channelOpen)
      (ok : conn.onChannelOpen config payload = .ok next) : Dispatched config world conn payload next
  | confirms {next : Connection} (kind : payload.headD 0 = Msg.channelOpenConfirmation)
      (ok : conn.onOpenConfirm config payload = .ok next) : Dispatched config world conn payload next
  | declines {next : Connection} (kind : payload.headD 0 = Msg.channelOpenFailure)
      (ok : conn.onOpenFailure payload = .ok next) : Dispatched config world conn payload next
  | message {id message next}
      (kind : Msg.channelWindowAdjust ≤ payload.headD 0 ∧ payload.headD 0 ≤ Msg.channelFailure)
      (read : channelMessage.parse payload = .ok (id, message)) (ok : conn.onChannelMessage config id message = .ok next) :
      Dispatched config world conn payload next

theorem packet_dispatched (ok : conn.onPacket config world payload = .ok next) :
    Dispatched config world conn payload next := by
  unfold onPacket at ok
  generalize named : payload.headD 0 = kind at ok
  by_cases plain : kind = Msg.ignore ∨ kind = Msg.debug ∨ kind = Msg.unimplemented
  · rw [if_pos plain] at ok
    cases ok
    refine .ignored ?_ fun least => ?_
    · rw [named]
      rcases plain with rfl | rfl | rfl <;> decide
    · rw [named] at least
      rcases plain with rfl | rfl | rfl <;> exact absurd least (by decide)
  rw [if_neg plain] at ok
  by_cases transport : kind = Msg.extInfo ∨ kind = Msg.kexInit
  · rw [if_pos transport] at ok
    cases failed : world.transport with
    | none =>
      rw [failed] at ok
      cases ok
      refine .ignored ?_ fun least => ?_
      · rw [named]
        rcases transport with rfl | rfl <;> decide
      · rw [named] at least
        rcases transport with rfl | rfl <;> exact absurd least (by decide)
    | some reason =>
      rw [failed] at ok
      cases ok
  rw [if_neg transport] at ok
  by_cases stopped : kind = Msg.disconnect
  · rw [if_pos stopped] at ok
    cases ok
    exact .stopped (named.trans stopped)
  rw [if_neg stopped] at ok
  by_cases request : kind = Msg.globalRequest
  · rw [if_pos request] at ok
    exact .requests (named.trans request) ok
  rw [if_neg request] at ok
  by_cases success : kind = Msg.requestSuccess
  · rw [if_pos success] at ok
    cases ok
    exact @Dispatched.replies config world conn payload true (named.trans success)
  rw [if_neg success] at ok
  by_cases failure : kind = Msg.requestFailure
  · rw [if_pos failure] at ok
    cases ok
    exact @Dispatched.replies config world conn payload false (named.trans failure)
  rw [if_neg failure] at ok
  by_cases opens : kind = Msg.channelOpen
  · rw [if_pos opens] at ok
    exact .opens (named.trans opens) ok
  rw [if_neg opens] at ok
  by_cases confirms : kind = Msg.channelOpenConfirmation
  · rw [if_pos confirms] at ok
    exact .confirms (named.trans confirms) ok
  rw [if_neg confirms] at ok
  by_cases declines : kind = Msg.channelOpenFailure
  · rw [if_pos declines] at ok
    exact .declines (named.trans declines) ok
  rw [if_neg declines] at ok
  by_cases message : Msg.channelWindowAdjust ≤ kind ∧ kind ≤ Msg.channelRequest
  · rw [if_pos message] at ok
    obtain ⟨⟨id, heard⟩, read, ok⟩ := except_bind_ok.mp ok
    have within : kind ≤ Msg.channelFailure := UInt8.le_trans message.2 (by decide)
    exact .message (named ▸ ⟨message.1, within⟩) read ok
  rw [if_neg message] at ok
  by_cases reply : kind = Msg.channelSuccess ∨ kind = Msg.channelFailure
  · rw [if_pos reply] at ok
    have within : Msg.channelWindowAdjust ≤ payload.headD 0 ∧ payload.headD 0 ≤ Msg.channelFailure := by
      rw [named]
      rcases reply with rfl | rfl <;> decide
    cases read : channelMessage.parse payload with
    | ok pair =>
      rw [read] at ok
      exact .message within read ok
    | error reason =>
      rw [read] at ok
      cases ok
      refine .ignored ?_ fun _ _ => ⟨reason, read⟩
      rw [named]
      rcases reply with rfl | rfl <;> decide
  rw [if_neg reply] at ok
  by_cases exchange : kind = Msg.newKeys ∨ kind = Msg.kexEcdhInit ∨ kind = Msg.kexEcdhReply
  · rw [if_pos exchange] at ok
    cases ok
  · rw [if_neg exchange] at ok
    cases ok

theorem packet_handled (ok : conn.onPacket config world payload = .ok next) : Handled config conn payload next := by
  cases packet_dispatched ok with
  | ignored => exact .aside (.refl _)
  | stopped => exact .aside ⟨rfl, rfl, rfl, rfl, rfl, rfl, rfl, rfl, rfl, rfl, rfl, rfl⟩
  | requests kind ok => exact global_handled kind ok
  | replies => exact reply_handled
  | opens kind ok => exact open_handled kind ok
  | confirms kind ok => exact confirm_handled kind ok
  | declines _ ok => exact failure_handled ok
  | message kind read ok => exact message_handled kind read ok

end Handled

section Moves

open Connection

variable {config : Config} {conn next : Connection} {event : Event}

/-- What an event comes to, before it is seen whether it was the last. -/
inductive Moves (config : Config) (conn : Connection) : Event → Connection → Prop where
  | packet {parked payload world next} (running : conn.done = false)
      (ok : onPacket config (conn.marked parked) world payload = .ok next) :
      Moves config conn (.packet parked payload world) next
  | broken {parked payload world reason} (running : conn.done = false)
      (failed : onPacket config (conn.marked parked) world payload = .error reason) :
      Moves config conn (.packet parked payload world) (conn.marked parked)
  | order {order rest} (queued : conn.orders = order :: rest) :
      Moves config conn .order ({ conn with orders := rest }.onOrder config order)
  | tick {next : Connection} (running : conn.done = false) (ok : conn.onKeepaliveTick config = .ok next) :
      Moves config conn .tick next
  | silent {reason} (running : conn.done = false) (failed : conn.onKeepaliveTick config = .error reason) :
      Moves config conn .tick conn
  | fall (running : conn.done = false) : Moves config conn .fall conn
  | submit {order openAdmission} (running : conn.done = false) (able : conn.submits order = true) :
      Moves config conn (.submit order) { conn with orders := conn.orders ++ [order], openAdmission }
  | act {index label next} (ran : conn.act index label = some next) :
      Moves config conn (.act index label) next
  | dialEnds {index} {dial : Dial} {result} (there : conn.dials[index]? = some dial) :
      Moves config conn (.dialEnds index result) { conn with
        dials := conn.dials.eraseIdx index
        orders := if conn.done then conn.orders
          else conn.orders ++ [.connected dial.peerId dial.peerWindow dial.peerMax result] }

attribute [local grind intro] Moves

/-- A step is what its event comes to, or the end of the connection after it. -/
theorem step_settles (ran : conn.step config event = some next) :
    ∃ after, Moves config conn event after ∧
      (next = after ∧ (conn.done = false → after.done = false) ∨ next = after.fallen) := by
  have settles {before : Connection} {result : Except Error Connection} (same : before.settle result = next)
      (ok : ∀ after, result = .ok after → Moves config conn event after)
      (failed : ∀ reason, result = .error reason → Moves config conn event before) :
      ∃ after, Moves config conn event after ∧
        (next = after ∧ (conn.done = false → after.done = false) ∨ next = after.fallen) := by
    cases result <;> grind [settle]
  cases event with
  | packet parked payload world =>
    simp only [step] at ran
    split at ran
    · cases ran
    · rename_i running
      have alive : conn.done = false := (Bool.not_eq_true _).mp running
      exact settles (Option.some.inj ran) (fun _ ok => .packet alive ok) fun _ failed => .broken alive failed
  | tick =>
    simp only [step] at ran
    split at ran
    · cases ran
    · rename_i running
      have alive : conn.done = false := (Bool.not_eq_true _).mp running
      exact settles (Option.some.inj ran) (fun _ ok => .tick alive ok) fun _ failed => .silent alive failed
  | order =>
    simp only [step] at ran
    split at ran
    · cases ran
    · rename_i order rest queued
      exact settles (Option.some.inj ran) (fun _ ok => Except.ok.inj ok ▸ .order queued) fun _ failed => by cases failed
  | act index label =>
    obtain ⟨worker, task, line, _, _, rfl⟩ := act_some ran
    exact ⟨_, .act ran, .inl ⟨rfl, id⟩⟩
  | fall | dialEnds => grind [step]
  | submit order =>
    simp only [step] at ran
    split at ran
    · rename_i able
      cases ran
      exact ⟨_, .submit able.1 able.2, .inl ⟨rfl, id⟩⟩
    · cases ran

theorem step_moves (ran : conn.step config event = some next) :
    ∃ after, Moves config conn event after ∧ (next = after ∨ next = after.fallen) := by
  obtain ⟨after, moves, settled⟩ := step_settles ran
  exact ⟨after, moves, settled.imp_left And.left⟩

/-- What survives the end of the connection is only to be shown for what an event comes to. -/
theorem step_keeps (Inv : Connection → Prop) (falls : ∀ conn, Inv conn → Inv conn.fallen)
    (moves : ∀ after, Moves config conn event after → Inv after) (ran : conn.step config event = some next) : Inv next := by
  obtain ⟨after, comes, rfl | rfl⟩ := step_moves ran
  · exact moves _ comes
  · exact falls _ (moves _ comes)

theorem step_packet {parked : Bool} {payload : Bytes} {world : World} (running : conn.done = false)
    (ok : onPacket config (conn.marked parked) world payload = .ok next)
    (going : next.done = false) : conn.step config (.packet parked payload world) = some next := by
  simp only [step, running, Bool.false_eq_true, if_false]
  simp only [ok, settle, going, Bool.false_eq_true, if_false]

theorem step_order {order rest} (queued : conn.orders = order :: rest)
    (ok : { conn with orders := rest }.onOrder config order = next) (going : next.done = false) :
    conn.step config .order = some next := by
  simp only [step, queued, ok, settle, going, Bool.false_eq_true, if_false]

end Moves

end Shh.Connections
