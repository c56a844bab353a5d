import Shh.Channels

/-!
# The task of a forwarded stream

A forwarded socket is spliced to a channel by two loops that run side by side: one
reads the socket and sends what it read under the peer's window, the other writes
to the socket what the channel brings. Each loop is given by its waiting points;
what the socket does at one is the label of the step from it.

The task closes the channel when both loops have ended.
-/

namespace Shh.Channels

open Wire Semaphores

/-- Socket to channel: reading, or sending the rest of what was read. -/
inductive ReadLoop where
  | reading
  | sending (left : Bytes)
  | ended
deriving DecidableEq, Repr

/-- Channel to socket: waiting for a message, writing the rest of a message of some
size, or shutting the write half down. -/
inductive WriteLoop where
  | waiting
  | writing (left : Bytes) (size : Nat)
  | shutting
  | ended
deriving DecidableEq, Repr

/-- The task, with what it has read from its socket and written to it. -/
structure Forward where
  reader : ReadLoop
  writer : WriteLoop
  taken : Bytes
  written : Bytes
  /-- The write half was shut down after the peer's EOF. -/
  shut : Bool
deriving DecidableEq, Repr

namespace Forward

def start : Forward := ⟨.reading, .waiting, [], [], false⟩

/-- What can happen next, with the socket's part in it. -/
inductive Label where
  | read (bytes : Bytes)
  /-- The socket's end, or an error on reading. -/
  | readEnds
  | send
  | recv
  | wrote (count : Nat)
  | writeFails
  | shutdown
deriving DecidableEq, Repr

def running (task : Forward) : Bool := task.reader ≠ .ended || task.writer ≠ .ended

/-- Both loops have ended: tear the channel down. -/
def join (task : Forward) (line : Line) : Forward × Line :=
  if task.running then (task, line) else (task, line.send .close)

/-- A message for the writing loop. -/
def onMessage (task : Forward) (line : Line) : ToTask → Forward × Line
  | .data bytes => ({ task with writer := .writing bytes bytes.length }, line)
  | .eof => ({ task with writer := .shutting }, line)
  | .close => join { task with writer := .ended } line
  -- A forwarded stream has no stderr and grants no channel requests.
  | .request _ wantReply _ => (task, if wantReply then line.send (.reply false) else line)
  | .extData _ _ | .reply _ => (task, line)

def step (remoteMax : Nat) (task : Forward) (line : Line) : Label → Option (Forward × Line)
  | .read bytes =>
    match task.reader with
    | .reading =>
      if bytes ≠ [] ∧ bytes.length ≤ maxChunk then
        some ({ task with reader := .sending bytes, taken := task.taken ++ bytes }, line)
      else none
    | _ => none
  | .readEnds =>
    match task.reader with
    | .reading => some (join { task with reader := .ended } (line.send .eof))
    | _ => none
  | .send =>
    match task.reader with
    | .sending left =>
      match line.sendCredited remoteMax none left with
      | (.sent rest, line) => some ({ task with reader := if rest = [] then .reading else .sending rest }, line)
      | (.waiting, line) => some (task, line)
      | (.refused, line) => some (join { task with reader := .ended } line)
    | _ => none
  | .recv =>
    match task.writer with
    | .waiting =>
      match line.recv with
      | some (some message, line) => some (task.onMessage line message)
      | some (none, line) => some (join { task with writer := .ended } line)
      | none => none
    | _ => none
  | .wrote count =>
    match task.writer with
    | .writing left size =>
      if count ≤ left.length then
        let task := { task with written := task.written ++ left.take count }
        if left.drop count = [] then some ({ task with writer := .waiting }, line.send (.consumed size))
        else some ({ task with writer := .writing (left.drop count) size }, line)
      else none
    | _ => none
  | .writeFails =>
    match task.writer with
    | .writing _ _ => some (join { task with writer := .ended } line)
    | _ => none
  | .shutdown =>
    match task.writer with
    | .shutting => some ({ task with writer := .waiting, shut := true }, line)
    | _ => none

/-- Bytes taken from the queue and not yet reported. -/
def holding (task : Forward) : Nat :=
  match task.writer with
  | .writing _ size => size
  | _ => 0

/-- Bytes read and not yet handed to the loop. -/
def unsent (task : Forward) : Bytes :=
  match task.reader with
  | .sending left => left
  | _ => []

variable {remoteMax : Nat} {task next : Forward} {line after : Line} {label : Label}

theorem join_task (task : Forward) (line : Line) : (task.join line).1 = task := by
  unfold join
  split <;> rfl

/-- The ways a step of a forwarded stream can go. -/
inductive Goes (remoteMax : Nat) (task : Forward) (line : Line) : Label → Forward → Line → Prop where
  | read {bytes : Bytes} (reading : task.reader = .reading) (some : bytes ≠ []) :
      Goes remoteMax task line (.read bytes) { task with reader := .sending bytes, taken := task.taken ++ bytes } line
  | readEnds {after : Line} (reading : task.reader = .reading)
      (joined : after = (join { task with reader := .ended } (line.send .eof)).2) :
      Goes remoteMax task line .readEnds { task with reader := .ended } after
  | sent {left : Bytes} (sending : task.reader = .sending left)
      (enough : min left.length remoteMax ≤ line.credit.permits) (alive : line.gone = false) :
      Goes remoteMax task line .send
        { task with reader :=
          if left.drop (min left.length remoteMax) = [] then .reading
          else .sending (left.drop (min left.length remoteMax)) }
        { line with
          credit := { line.credit with
            permits := line.credit.permits - min left.length remoteMax, waiting := 0 }
          cmds := line.cmds ++ [.data (left.take (min left.length remoteMax))] }
  | waits {left : Bytes} (sending : task.reader = .sending left) :
      Goes remoteMax task line .send task
        { line with credit := { line.credit with waiting := min left.length remoteMax } }
  | refused {left : Bytes} {after : Line} (sending : task.reader = .sending left) (shut : line.credit.closed = true)
      (joined : after = (join { task with reader := .ended }
        { line with credit := { line.credit with waiting := 0 } }).2) :
      Goes remoteMax task line .send { task with reader := .ended } after
  | lost {left : Bytes} {credit : Semaphore} {after : Line} (sending : task.reader = .sending left)
      (dead : line.gone = true) (spent : credit.permits ≤ line.credit.permits)
      (closed : credit.closed = line.credit.closed)
      (joined : after = (join { task with reader := .ended } { line with credit }).2) :
      Goes remoteMax task line .send { task with reader := .ended } after
  | takes {message : ToTask} {rest : List ToTask} {next : Forward} {after : Line} (waiting : task.writer = .waiting)
      (there : line.inbox = message :: rest) (result : task.onMessage { line with inbox := rest } message = (next, after)) :
      Goes remoteMax task line .recv next after
  | hungUp {after : Line} (waiting : task.writer = .waiting) (empty : line.inbox = []) (gone : line.hungUp = true)
      (joined : after = (join { task with writer := .ended } line).2) :
      Goes remoteMax task line .recv { task with writer := .ended } after
  | wrote {left : Bytes} {size count : Nat} (writing : task.writer = .writing left size) (all : left.drop count = []) :
      Goes remoteMax task line (.wrote count)
        { task with writer := .waiting, written := task.written ++ left.take count } (line.send (.consumed size))
  | writes {left : Bytes} {size count : Nat} (writing : task.writer = .writing left size) :
      Goes remoteMax task line (.wrote count)
        { task with writer := .writing (left.drop count) size, written := task.written ++ left.take count } line
  | writeFails {left : Bytes} {size : Nat} {after : Line} (writing : task.writer = .writing left size)
      (joined : after = (join { task with writer := .ended } line).2) :
      Goes remoteMax task line .writeFails { task with writer := .ended } after
  | shutdown (shutting : task.writer = .shutting) :
      Goes remoteMax task line .shutdown { task with writer := .waiting, shut := true } line

attribute [local grind intro] Goes
attribute [local grind =] join_task

theorem step_goes (ran : task.step remoteMax line label = some (next, after)) :
    Goes remoteMax task line label next after := by
  cases label with
  | send =>
    cases sending : task.reader with
    | sending left =>
      have turn := send_credited_cases line remoteMax none left
      grind [step, Line.chunk]
    | _ => grind [step]
  | recv => grind [step, Line.recv]
  | _ => grind [step]

end Forward

end Shh.Channels
