import Shh.Semaphores
import Shh.Wire

/-!
# One channel at the connection loop

A channel is served by two parties. The loop keeps the channel's record, answers
messages of the peer and carries out commands; a task of its own moves the data.
They share a queue in each direction and a semaphore whose permits are the bytes
the peer still lets us send. The peer in turn may send what the record's local
window allows, and the window is opened again when the task has reported enough
bytes as consumed.

The functions here are the loop's two halves for a channel that exists: a message
from the peer (`Chan.deliver`) and a command of the task (`Chan.command`).
-/

namespace Shh.Channels

open Wire Semaphores

/-- The window we grant, the largest chunk we send, and how much must be consumed
before the window is opened again. -/
def localWindow : Nat := 2 * 1024 * 1024
def maxChunk : Nat := 32 * 1024
def windowRefill : Nat := localWindow / 2
def windowMax : Nat := 2 ^ 32 - 1

/-- The kind of extended data that is standard error. -/
def stderr : Nat := 1

/-- What differs between builds. -/
structure Platform where
  unix : Bool
  /-- Whether a machine word has 64 bits, or 32. -/
  wide : Bool
deriving DecidableEq, Repr

/-- The most permits a semaphore can hold: an eighth of the largest word. -/
def Platform.maxPermits (platform : Platform) : Nat :=
  (2 ^ (if platform.wide then 64 else 32) - 1) / 8

/-- A message of a channel, as it crosses the wire in either direction. -/
inductive Message where
  | data (bytes : Bytes)
  | extData (kind : Nat) (bytes : Bytes)
  | adjust (add : Nat)
  | eof
  | close
  | request (kind : String) (wantReply : Bool) (data : Bytes)
  | reply (success : Bool)
deriving DecidableEq, Repr

/-- What the loop passes on to a task. -/
inductive ToTask where
  | data (bytes : Bytes)
  | extData (kind : Nat) (bytes : Bytes)
  | eof
  | close
  | request (kind : String) (wantReply : Bool) (data : Bytes)
  | reply (success : Bool)
deriving DecidableEq, Repr

/-- What a task asks of the loop. Data and extended data have spent their credit. -/
inductive Cmd where
  | data (bytes : Bytes)
  | extData (kind : Nat) (bytes : Bytes)
  | request (kind : String) (wantReply : Bool) (data : Bytes)
  | reply (success : Bool)
  | eof
  | close
  | consumed (count : Nat)
deriving DecidableEq, Repr

/-- What loop and task share. The loop hangs up when it drops the channel; `gone`
means that nobody takes commands any more. What is queued for a task that has
ended is never read. -/
structure Line where
  credit : Semaphore
  inbox : List ToTask
  hungUp : Bool
  cmds : List Cmd
  gone : Bool
deriving DecidableEq, Repr

namespace Line

/-- The line of a new channel, whose peer advertised this window. -/
def make (platform : Platform) (peerWindow : Nat) : Line :=
  ⟨Semaphore.make (min peerWindow platform.maxPermits), [], false, [], false⟩

def push (line : Line) (message : ToTask) : Line := { line with inbox := line.inbox ++ [message] }

def send (line : Line) (cmd : Cmd) : Line :=
  if line.gone then line else { line with cmds := line.cmds ++ [cmd] }

/-- The next message, nothing if there is none yet, and the end of the queue once
the loop has hung up. -/
def recv (line : Line) : Option (Option ToTask × Line) :=
  match line.inbox with
  | message :: rest => some (some message, { line with inbox := rest })
  | [] => if line.hungUp then some (none, line) else none

/-- The channel is gone from the loop: wake the task if it waits for credit. -/
def hangUp (line : Line) : Line := { line with credit := line.credit.close, hungUp := true }

/-- The whole connection is gone. -/
def fall (line : Line) : Line := { line.hangUp with cmds := [], gone := true }

/-- How far an attempt to send got. -/
inductive Progress where
  | sent (left : Bytes)
  | waiting
  | refused
deriving DecidableEq, Repr

/-- The command that carries a chunk. -/
def chunk (ext : Option Nat) (bytes : Bytes) : Cmd :=
  match ext with
  | none => .data bytes
  | some kind => .extData kind bytes

/-- One turn of the loop that splits data into chunks: reserve credit for the next
chunk and hand it over. -/
def sendCredited (line : Line) (remoteMax : Nat) (ext : Option Nat) (left : Bytes) : Progress × Line :=
  let take := min left.length remoteMax
  match line.credit.acquire take with
  | (.granted, credit) =>
    if line.gone then (.refused, { line with credit })
    else (.sent (left.drop take), { line with credit, cmds := line.cmds ++ [chunk ext (left.take take)] })
  | (.waiting, credit) => (.waiting, { line with credit })
  | (.refused, credit) => (.refused, { line with credit })

end Line

/-- The loop's record of a channel. -/
structure Chan where
  peerId : Nat
  isSession : Bool
  /-- End the whole connection when this channel closes. -/
  endOnClose : Bool
  localWindow : Nat
  pendingConsumed : Nat
  sentEof : Bool
  sentClose : Bool
  peerClosed : Bool
deriving DecidableEq, Repr

/-- What the loop makes of one event on a channel: the record unless it is dropped,
the line, what it sends to the peer, and whether the connection is over. -/
structure Turn where
  chan : Option Chan
  line : Line
  sent : List Message
  done : Bool
deriving DecidableEq, Repr

namespace Chan

def make (peerId : Nat) (isSession endOnClose : Bool) : Chan where
  peerId := peerId
  isSession := isSession
  endOnClose := endOnClose
  localWindow := Channels.localWindow
  pendingConsumed := 0
  sentEof := false
  sentClose := false
  peerClosed := false

/-- The channel is dropped once both sides have closed. -/
def closeIfDone (chan : Chan) (line : Line) (sent : List Message) : Turn :=
  if chan.sentClose && chan.peerClosed then ⟨none, line.hangUp, sent, chan.endOnClose⟩
  else ⟨some chan, line, sent, false⟩

/-- Received bytes are taken off the window and passed on. -/
def onData (chan : Chan) (line : Line) (size : Nat) (message : ToTask) : Except Error Turn :=
  if 2 ^ 32 ≤ size then .error (.protocol "data too large")
  else if chan.localWindow < size then .error (.protocol "peer overflowed the channel window")
  else .ok ⟨some { chan with localWindow := chan.localWindow - size }, line.push message, [], false⟩

/-- The credit after a WINDOW_ADJUST: what is available is no more than a window or a
semaphore can hold. -/
def onWindowAdjust (platform : Platform) (credit : Semaphore) (add : Nat) : Semaphore :=
  let ceiling := min windowMax platform.maxPermits
  let grant := min add (ceiling - credit.available)
  if 0 < grant then credit.add grant else credit

def onClose (chan : Chan) (line : Line) : Turn :=
  closeIfDone { chan with peerClosed := true, sentClose := true } (line.push .close)
    (if chan.sentClose then [] else [.close])

/-- A forwarded stream grants no requests. -/
def onChannelRequest (chan : Chan) (line : Line) (kind : String) (wantReply : Bool) (data : Bytes) : Turn :=
  if chan.isSession then ⟨some chan, line.push (.request kind wantReply data), [], false⟩
  else ⟨some chan, line, if wantReply then [.reply false] else [], false⟩

/-- A message from the peer. -/
def deliver (platform : Platform) (chan : Chan) (line : Line) : Message → Except Error Turn
  | .data bytes => chan.onData line bytes.length (.data bytes)
  | .extData kind bytes => chan.onData line bytes.length (.extData kind bytes)
  | .adjust add => .ok ⟨some chan, { line with credit := onWindowAdjust platform line.credit add }, [], false⟩
  | .eof => .ok ⟨some chan, line.push .eof, [], false⟩
  | .close => .ok (chan.onClose line)
  | .request kind wantReply data => .ok (chan.onChannelRequest line kind wantReply data)
  | .reply success => .ok ⟨some chan, line.push (.reply success), [], false⟩

/-- Consumed bytes are granted again in batches. -/
def onConsumed (chan : Chan) (line : Line) (count : Nat) : Turn :=
  let pending := chan.pendingConsumed + count
  if windowRefill ≤ pending then
    ⟨some { chan with pendingConsumed := 0, localWindow := min (chan.localWindow + pending) windowMax }, line,
      [.adjust pending], false⟩
  else ⟨some { chan with pendingConsumed := pending }, line, [], false⟩

/-- A command of the task. -/
def command (chan : Chan) (line : Line) : Cmd → Turn
  | .data bytes => ⟨some chan, line, [.data bytes], false⟩
  | .extData kind bytes => ⟨some chan, line, [.extData kind bytes], false⟩
  | .request kind wantReply data => ⟨some chan, line, [.request kind wantReply data], false⟩
  | .reply success => ⟨some chan, line, [.reply success], false⟩
  | .eof =>
    if chan.sentEof then ⟨some chan, line, [], false⟩
    else ⟨some { chan with sentEof := true }, line, [.eof], false⟩
  | .close => closeIfDone { chan with sentClose := true } line (if chan.sentClose then [] else [.close])
  | .consumed count => chan.onConsumed line count

-- What a turn does is read off case by case.
attribute [grind =] closeIfDone onData onClose onChannelRequest deliver onConsumed command Line.push Line.hangUp

end Chan

section Measures

/-! Bytes at the places they pass through. -/

/-- Data bytes of a message, which count against its receiver's window. -/
def Message.size : Message → Nat
  | .data bytes | .extData _ bytes => bytes.length
  | _ => 0

/-- Bytes that a message adds to its receiver's credit. -/
def Message.granted : Message → Nat
  | .adjust add => add
  | _ => 0

def ToTask.size : ToTask → Nat
  | .data bytes | .extData _ bytes => bytes.length
  | _ => 0

def Cmd.size : Cmd → Nat
  | .data bytes | .extData _ bytes => bytes.length
  | _ => 0

/-- Bytes reported as consumed. -/
def Cmd.reported : Cmd → Nat
  | .consumed count => count
  | _ => 0

/-- Data bytes among the commands not yet carried out. -/
def Line.outgoing (line : Line) : Nat := (line.cmds.map Cmd.size).sum

/-- Consumed bytes reported and not yet noted. -/
def Line.reported (line : Line) : Nat := (line.cmds.map Cmd.reported).sum

/-- Data bytes the task has not looked at. -/
def Line.incoming (line : Line) : Nat := (line.inbox.map ToTask.size).sum

def sizes (messages : List Message) : Nat := (messages.map Message.size).sum

def grants (messages : List Message) : Nat := (messages.map Message.granted).sum

theorem sizes_append (left right : List Message) : sizes (left ++ right) = sizes left + sizes right := by
  simp [sizes]

theorem grants_append (left right : List Message) : grants (left ++ right) = grants left + grants right := by
  simp [grants]

theorem chunk_size (ext : Option Nat) (bytes : Bytes) : (Line.chunk ext bytes).size = bytes.length := by
  cases ext <;> rfl

theorem chunk_reported (ext : Option Nat) (bytes : Bytes) : (Line.chunk ext bytes).reported = 0 := by
  cases ext <;> rfl

end Measures

/-- Data that is accepted is within the window, and is passed on. -/
theorem on_data_ok {chan : Chan} {line : Line} {size message turn}
    (ok : chan.onData line size message = .ok turn) :
    size ≤ chan.localWindow ∧
      turn = ⟨some { chan with localWindow := chan.localWindow - size }, line.push message, [], false⟩ := by
  unfold Chan.onData at ok
  split at ok
  · cases ok
  · split at ok
    · cases ok
    · rename_i fits
      cases ok
      exact ⟨Nat.le_of_not_lt fits, rfl⟩

section Sending

variable {line after : Line} {remoteMax : Nat} {ext : Option Nat} {left : Bytes}

/-- What one turn of sending does: a chunk is paid for and queued, or the request waits,
or the task is told to stop. -/
theorem send_credited_cases (line : Line) (remoteMax : Nat) (ext : Option Nat) (left : Bytes) :
    (line.credit.closed = false ∧ min left.length remoteMax ≤ line.credit.permits ∧ line.gone = false ∧
        line.sendCredited remoteMax ext left = (.sent (left.drop (min left.length remoteMax)),
          { line with
            credit := { line.credit with
              permits := line.credit.permits - min left.length remoteMax, waiting := 0 }
            cmds := line.cmds ++ [Line.chunk ext (left.take (min left.length remoteMax))] })) ∨
      (line.credit.closed = false ∧ line.credit.permits < min left.length remoteMax ∧
        line.sendCredited remoteMax ext left =
          (.waiting, { line with credit := { line.credit with waiting := min left.length remoteMax } })) ∨
      (line.credit.closed = true ∧ line.sendCredited remoteMax ext left =
        (.refused, { line with credit := { line.credit with waiting := 0 } })) ∨
      (line.gone = true ∧ ∃ credit, credit.permits ≤ line.credit.permits ∧ credit.closed = line.credit.closed ∧
        line.sendCredited remoteMax ext left = (.refused, { line with credit })) := by
  unfold Line.sendCredited
  rcases Semaphore.acquire_cases line.credit (min left.length remoteMax) with
    ⟨shut, answer⟩ | ⟨unshut, enough, answer⟩ | ⟨unshut, short, answer⟩
  · exact .inr (.inr (.inl ⟨shut, by simp only [answer]⟩))
  · cases dead : line.gone with
    | true =>
      refine .inr (.inr (.inr ⟨rfl, ⟨line.credit.permits - min left.length remoteMax, 0, line.credit.closed⟩,
        Nat.sub_le _ _, rfl, ?_⟩))
      simp only [answer, if_true]
    | false => exact .inl ⟨unshut, enough, rfl, by simp [answer]⟩
  · exact .inr (.inl ⟨unshut, short, by simp only [answer]⟩)

/-- What can come out of a queue. -/
theorem recv_cases {received} (ran : line.recv = some (received, after)) :
    (∃ message rest, line.inbox = message :: rest ∧ received = some message ∧ after = { line with inbox := rest }) ∨
      (line.inbox = [] ∧ line.hungUp = true ∧ received = none ∧ after = line) := by
  unfold Line.recv at ran
  split at ran
  · rename_i message rest there
    cases ran
    exact .inl ⟨message, rest, there, rfl, rfl⟩
  · rename_i empty
    split at ran
    · rename_i hungUp
      cases ran
      exact .inr ⟨empty, hungUp, rfl, rfl⟩
    · cases ran

end Sending

end Shh.Channels
