import Shh.Runs
import Shh.Sessions

/-!
# One end of a channel

The loop's record, the line and the task of one channel, with everything that was
sent to the peer and heard from it. A step is a message from the peer, a command
carried out, a step of the task, or the end of the whole connection. They come in
any order: the peer is arbitrary, and so is when each party gets to run.
-/

namespace Shh.Channels

open Wire Semaphores

/-- The task of a channel of each kind. -/
inductive Task where
  | forward (task : Forward)
  | client (task : Client)
  | server (task : Server)
deriving DecidableEq, Repr

namespace Task

inductive Label where
  | forward (label : Forward.Label)
  | client (label : Client.Label)
  | server (label : Server.Label)
deriving DecidableEq, Repr

def step (remoteMax : Nat) (line : Line) : Task → Label → Option (Task × Line)
  | .forward task, .forward label => (task.step remoteMax line label).map fun (task, line) => (.forward task, line)
  | .client task, .client label => (task.step remoteMax line label).map fun (task, line) => (.client task, line)
  | .server task, .server label => (task.step remoteMax line label).map fun (task, line) => (.server task, line)
  | _, _ => none

def isSession : Task → Bool
  | .forward _ => false
  | .client _ | .server _ => true

def running : Task → Bool
  | .forward task => task.running
  | .client task => task.running
  | .server task => task.running

/-- Bytes taken from the queue and not yet reported. -/
def holding : Task → Nat
  | .forward task => task.holding
  | .client task => task.holding
  | .server task => task.holding

/-- Bytes read and not yet handed to the loop. -/
def unsent : Task → Bytes
  | .forward task => task.unsent
  | .client task => task.unsent
  | .server task => task.unsent

/-- The kind of extended data that is being sent, if it is. -/
def ext : Task → Option Nat
  | .forward _ => none
  | .client task => task.ext
  | .server task => task.ext

/-- Messages whose bytes the task takes and never reports: extended data on a
forwarded stream or a session's server, and any data while a client awaits a
reply. -/
def passesOver : Task → ToTask → Bool
  | .forward _, .extData _ _ | .server _, .extData _ _ => true
  | .client task, .data _ | .client task, .extData _ _ => task.phase = .awaitingPty || task.phase = .awaiting
  | _, _ => false

/-- A task that has done nothing yet. -/
inductive Fresh : Task → Prop where
  | forward : Fresh (.forward .start)
  | client (spec : SessionSpec) (resizing : Bool) : Fresh (.client (.make spec resizing))
  | server (permitAgent : Bool) (forceCommand : Option String) : Fresh (.server (.make permitAgent forceCommand))

end Task

structure End where
  chan : Option Chan
  line : Line
  task : Task
  remoteMax : Nat
  /-- Messages to the peer and from it, oldest first. The code never reads these. -/
  sent : List Message
  heard : List Message
deriving DecidableEq, Repr

namespace End

/-- A channel whose peer advertised this window and packet size. -/
def make (platform : Platform) (task : Task) (endOnClose : Bool) (peerId peerWindow peerMax : Nat) : End where
  chan := some (.make peerId task.isSession endOnClose)
  line := .make platform peerWindow
  task := task
  remoteMax := max 1 (min peerMax maxChunk)
  sent := []
  heard := []

/-- What can happen at an end. -/
inductive Label where
  | hear (message : Message)
  | process
  | fall
  | act (label : Task.Label)
deriving DecidableEq, Repr

/-- The connection is over. -/
def fallen (stay : End) : End := { stay with chan := none, line := stay.line.fall }

/-- What the loop made of an event, and the end of the connection if it was the last. -/
def take (stay : End) (turn : Turn) : End :=
  let stay := { stay with chan := turn.chan, line := turn.line, sent := stay.sent ++ turn.sent }
  if turn.done then stay.fallen else stay

/-- A message from the peer; one that breaks the rules ends the connection. -/
def hear (platform : Platform) (stay : End) (message : Message) : End :=
  let stay := { stay with heard := stay.heard ++ [message] }
  match stay.chan with
  | none => stay
  | some chan =>
    match chan.deliver platform stay.line message with
    | .ok turn => stay.take turn
    | .error _ => stay.fallen

/-- The loop carries out a command; one for a channel that is gone is passed over. -/
def process (stay : End) (cmd : Cmd) (rest : List Cmd) : End :=
  let stay := { stay with line := { stay.line with cmds := rest } }
  match stay.chan with
  | none => stay
  | some chan => stay.take (chan.command stay.line cmd)

def step (platform : Platform) (stay : End) : Label → Option End
  | .hear message => if stay.line.gone then none else some (stay.hear platform message)
  | .process =>
    match stay.line.cmds with
    | [] => none
    | cmd :: rest => some (stay.process cmd rest)
  | .fall => some stay.fallen
  | .act label =>
    (stay.task.step stay.remoteMax stay.line label).map fun (task, line) => { stay with task, line }

/-- The ways a step can go. -/
inductive Happens (platform : Platform) (stay : End) : Label → End → Prop where
  | unheard {message} (dropped : stay.chan = none) :
      Happens platform stay (.hear message) { stay with heard := stay.heard ++ [message] }
  | heard {message} {chan : Chan} {turn} (there : stay.chan = some chan)
      (ok : chan.deliver platform stay.line message = .ok turn) :
      Happens platform stay (.hear message) (take { stay with heard := stay.heard ++ [message] } turn)
  | broken {message} {chan : Chan} {error} (there : stay.chan = some chan)
      (refused : chan.deliver platform stay.line message = .error error) :
      Happens platform stay (.hear message) (fallen { stay with heard := stay.heard ++ [message] })
  | skipped {cmd rest} (queued : stay.line.cmds = cmd :: rest) (dropped : stay.chan = none) :
      Happens platform stay .process { stay with line := { stay.line with cmds := rest } }
  | processed {cmd rest} {chan : Chan} (queued : stay.line.cmds = cmd :: rest)
      (there : stay.chan = some chan) :
      Happens platform stay .process (take { stay with line := { stay.line with cmds := rest } }
        (chan.command { stay.line with cmds := rest } cmd))
  | fell : Happens platform stay .fall stay.fallen
  | acted {label task line}
      (ran : stay.task.step stay.remoteMax stay.line label = some (task, line)) :
      Happens platform stay (.act label) { stay with task, line }

variable {platform : Platform} {stay next : End} {label : Label}

/-- What survives the end of the connection is only to be shown for the turn itself. -/
theorem take_keeps (Inv : End → Prop) (falls : ∀ stay, Inv stay → Inv stay.fallen) {turn : Turn}
    (taken : Inv { stay with chan := turn.chan, line := turn.line, sent := stay.sent ++ turn.sent }) :
    Inv (stay.take turn) := by
  unfold take
  dsimp only
  split
  · exact falls _ taken
  · exact taken

attribute [local grind intro] Happens

theorem step_happens (ran : stay.step platform label = some next) : Happens platform stay label next := by
  cases label with
  | act label =>
    obtain ⟨⟨task, line⟩, moved, rfl⟩ := Option.map_eq_some_iff.mp ran
    exact .acted moved
  | _ => grind [step, hear, process]

end End

end Shh.Channels
