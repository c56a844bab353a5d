import Shh.Forward

/-!
# The tasks of a session

The client's task asks for what it wants, waits for each reply, and then moves data
between the channel and the local standard streams. The server's task waits until
it is asked to run something, and then moves data between the channel and the child
it has started.

Both then have one loop with several arms, and the arm for messages of the channel
comes first: another arm is taken only when the queue is empty. An arm that has been
taken runs to its end, so a task that writes or waits for credit looks at nothing
else.
-/

namespace Shh.Channels

open Wire

/-- Nothing is queued and more may come, so an arm after the first may be taken. -/
def Line.quiet (line : Line) : Bool := line.inbox.isEmpty && !line.hungUp

structure ExitStatus where
  code : Option Nat
  signal : Option String
deriving DecidableEq, Repr

structure PtyRequest where
  term : String
  cols : Nat
  rows : Nat
  xpix : Nat
  ypix : Nat
deriving DecidableEq, Repr

/-- What a client wants from a session. -/
structure SessionSpec where
  command : Option String
  /-- Takes precedence over the command. -/
  subsystem : Option String
  pty : Option PtyRequest
  forwardAgent : Bool
deriving DecidableEq, Repr

def agentRequest : Cmd := .request "auth-agent-req@openssh.com" false []

def PtyRequest.cmd (req : PtyRequest) : Cmd :=
  .request "pty-req" true (Writer.utf8 req.term ++ Writer.u32 req.cols ++ Writer.u32 req.rows ++
    Writer.u32 req.xpix ++ Writer.u32 req.ypix ++ Writer.string [])

/-- The request for a subsystem, a command or a shell. -/
def SessionSpec.cmd (spec : SessionSpec) : Cmd :=
  match spec.subsystem, spec.command with
  | some name, _ => .request "subsystem" true (Writer.utf8 name)
  | none, some command => .request "exec" true (Writer.utf8 command)
  | none, none => .request "shell" true []

def windowChange (cols rows xpix ypix : Nat) : Cmd :=
  .request "window-change" false (Writer.u32 cols ++ Writer.u32 rows ++ Writer.u32 xpix ++ Writer.u32 ypix)

/-- What a loop with arms is doing: choosing an arm, writing the rest of a message
of some size, or sending the rest of what it read. -/
inductive Work where
  | select
  | writing (err : Bool) (left : Bytes) (size : Nat)
  | sending (ext : Option Nat) (left : Bytes)
deriving DecidableEq, Repr

/-- Bytes taken from the queue and not yet reported. -/
def Work.holding : Work → Nat
  | .writing _ _ size => size
  | _ => 0

/-- Bytes read and not yet handed to the loop. -/
def Work.unsent : Work → Bytes
  | .sending _ left => left
  | _ => []

/-- The kind of extended data that is being sent, if it is. -/
def Work.ext : Work → Option Nat
  | .sending ext _ => ext
  | _ => none

namespace Client

inductive Phase where
  | created
  | awaitingPty
  | awaiting
  | pumping (work : Work)
  | ended
deriving DecidableEq, Repr

end Client

/-- The client's task, with what it wrote to its streams and reported. -/
structure Client where
  spec : SessionSpec
  phase : Client.Phase
  exitStatus : Option ExitStatus
  stdinDone : Bool
  resizing : Bool
  stdout : Bytes
  errout : Bytes
  reported : Option ExitStatus
deriving DecidableEq, Repr

namespace Client

def make (spec : SessionSpec) (resizing : Bool) : Client :=
  ⟨spec, .created, none, false, resizing, [], [], none⟩

inductive Label where
  | start
  | recv
  | wrote (count : Nat)
  | writeFails
  | readStdin (bytes : Bytes)
  /-- The end of standard input, or an error on reading it. -/
  | stdinEnds
  | send
  | resize (cols rows xpix ypix : Nat)
  | resizeEnds
deriving DecidableEq, Repr

/-- Ask for the command once the terminal, if any, was granted. -/
def ask (task : Client) (line : Line) : Client × Line :=
  ({ task with phase := .awaiting }, line.send task.spec.cmd)

/-- The first requests. -/
def begin (task : Client) (line : Line) : Client × Line :=
  let line := if task.spec.forwardAgent then line.send agentRequest else line
  match task.spec.pty with
  | some req => ({ task with phase := .awaitingPty }, line.send req.cmd)
  | none => task.ask line

/-- The task is over: deliver the status and close. -/
def finish (task : Client) (line : Line) (status : Option ExitStatus) : Client × Line :=
  ({ task with phase := .ended, reported := some (status.getD ⟨none, none⟩) }, line.send .close)

/-- The status carried by a request of the server, if it is one. -/
def exitOf (kind : String) (data : Bytes) : Option ExitStatus :=
  if kind = "exit-status" then
    match Reader.u32.parse data with
    | .ok code => some ⟨some code, none⟩
    | .error _ => none
  else if kind = "exit-signal" then
    match Reader.utf8.parse data with
    | .ok signal => some ⟨none, some signal⟩
    | .error _ => none
  else none

/-- A message while a reply is awaited: everything else is passed over. -/
def onReply (task : Client) (line : Line) (granted : Client × Line) : Option ToTask → Client × Line
  | some (.reply true) => granted
  | some (.reply false) | some .close | none => task.finish line none
  | some _ => (task, line)

/-- A message for the pump. -/
def onMessage (task : Client) (line : Line) : Option ToTask → Client × Line
  | none | some .close => task.finish line task.exitStatus
  | some (.data bytes) => ({ task with phase := .pumping (.writing false bytes bytes.length) }, line)
  | some (.extData kind bytes) =>
    if kind = stderr then ({ task with phase := .pumping (.writing true bytes bytes.length) }, line)
    else (task, line.send (.consumed bytes.length))
  | some (.request kind _ data) =>
    match exitOf kind data with
    | some status => ({ task with exitStatus := some status }, line)
    | none => (task, line)
  | some .eof | some (.reply _) => (task, line)

/-- Bytes reach a local stream. -/
def write (task : Client) (err : Bool) (bytes : Bytes) : Client :=
  if err then { task with errout := task.errout ++ bytes } else { task with stdout := task.stdout ++ bytes }

def step (remoteMax : Nat) (task : Client) (line : Line) : Label → Option (Client × Line)
  | .start =>
    match task.phase with
    | .created => some (task.begin line)
    | _ => none
  | .recv =>
    match line.recv with
    | none => none
    | some (message, line) =>
      match task.phase with
      | .awaitingPty => some (task.onReply line (task.ask line) message)
      | .awaiting => some (task.onReply line ({ task with phase := .pumping .select }, line) message)
      | .pumping .select => some (task.onMessage line message)
      | _ => none
  | .wrote count =>
    match task.phase with
    | .pumping (.writing err left size) =>
      if count ≤ left.length then
        let task := task.write err (left.take count)
        if left.drop count = [] then some ({ task with phase := .pumping .select }, line.send (.consumed size))
        else some ({ task with phase := .pumping (.writing err (left.drop count) size) }, line)
      else none
    | _ => none
  -- A failed write is passed over: the bytes count as consumed.
  | .writeFails =>
    match task.phase with
    | .pumping (.writing _ _ size) => some ({ task with phase := .pumping .select }, line.send (.consumed size))
    | _ => none
  | .readStdin bytes =>
    match task.phase with
    | .pumping .select =>
      if line.quiet ∧ task.stdinDone = false ∧ bytes ≠ [] ∧ bytes.length ≤ maxChunk then
        some ({ task with phase := .pumping (.sending none bytes) }, line)
      else none
    | _ => none
  | .stdinEnds =>
    match task.phase with
    | .pumping .select =>
      if line.quiet ∧ task.stdinDone = false then some ({ task with stdinDone := true }, line.send .eof) else none
    | _ => none
  | .send =>
    match task.phase with
    | .pumping (.sending ext left) =>
      match line.sendCredited remoteMax ext left with
      | (.sent rest, line) =>
        some ({ task with phase := .pumping (if rest = [] then .select else .sending ext rest) }, line)
      | (.waiting, line) => some (task, line)
      | (.refused, line) => some (task.finish line task.exitStatus)
    | _ => none
  | .resize cols rows xpix ypix =>
    match task.phase with
    | .pumping .select =>
      if line.quiet ∧ task.resizing then some (task, line.send (windowChange cols rows xpix ypix)) else none
    | _ => none
  | .resizeEnds =>
    match task.phase with
    | .pumping .select => if line.quiet ∧ task.resizing then some ({ task with resizing := false }, line) else none
    | _ => none

def running (task : Client) : Bool := task.phase ≠ .ended

def holding (task : Client) : Nat :=
  match task.phase with
  | .pumping work => work.holding
  | _ => 0

def unsent (task : Client) : Bytes :=
  match task.phase with
  | .pumping work => work.unsent
  | _ => []

def ext (task : Client) : Option Nat :=
  match task.phase with
  | .pumping work => work.ext
  | _ => none

end Client

/-- How a child ended: with a code, or by a signal. -/
inductive Status where
  | code (value : Nat)
  | signal (number : Option Nat)
deriving DecidableEq, Repr

def signalName : Option Nat → String
  | some 1 => "HUP"
  | some 2 => "INT"
  | some 3 => "QUIT"
  | some 6 => "ABRT"
  | some 9 => "KILL"
  | some 11 => "SEGV"
  | some 13 => "PIPE"
  | some 15 => "TERM"
  | _ => "UNKNOWN"

def exitRequest : Status → Cmd
  | .code value => .request "exit-status" false (Writer.u32 value)
  | .signal number => .request "exit-signal" false
      (Writer.utf8 (signalName number) ++ Writer.boolean false ++ Writer.utf8 "" ++ Writer.utf8 "")

/-- What is started for a session: a login shell, with the line it is given and the
one that was asked for if another was forced, or the server's own sftp. -/
inductive Program where
  | shell (line original : Option String)
  | sftp
deriving DecidableEq, Repr

namespace Server

inductive Phase where
  /-- Waiting to be asked for a program. -/
  | waiting
  /-- Writing the standard input that came before the program was started. -/
  | early (left : Bytes)
  | pumping (work : Work)
  | ended
deriving DecidableEq, Repr

end Server

/-- The server's task, with what it was configured with, the program it started and
what it fed to it. -/
structure Server where
  permitAgent : Bool
  forceCommand : Option String
  phase : Server.Phase
  allocated : Bool
  earlyStdin : Bytes
  stdinEof : Bool
  agentFwd : Bool
  program : Option Program
  stdinOpen : Bool
  isPty : Bool
  ptyOpen : Bool
  stdoutEof : Bool
  stderrEof : Bool
  exited : Option Status
  fed : Bytes
deriving DecidableEq, Repr

namespace Server

def make (permitAgent : Bool) (forceCommand : Option String) : Server :=
  ⟨permitAgent, forceCommand, .waiting, false, [], false, false, none, false, false, false, false, false, none, []⟩

/-- What the system says when it is asked for a terminal, an agent socket, the
server's own binary or a child. -/
structure Choices where
  pty : Bool
  agent : Bool
  exe : Bool
  spawn : Bool
deriving DecidableEq, Repr

inductive Label where
  | recv (choices : Choices)
  | wrote (count : Nat)
  | writeFails
  | readOut (bytes : Bytes)
  | outEnds
  | readErr (bytes : Bytes)
  | errEnds
  | exits (status : Status)
  | send
deriving DecidableEq, Repr

/-- A reply, if one is wanted. -/
def answer (line : Line) (wantReply success : Bool) : Line :=
  if wantReply then line.send (.reply success) else line

/-- The request for a terminal parses. -/
def ptyParses (data : Bytes) : Bool :=
  (Reader.parse (do
    let _term ← Reader.utf8
    let _cols ← Reader.u32
    let _rows ← Reader.u32
    let _xpix ← Reader.u32
    let _ypix ← Reader.u32) data).isOk

/-- The head of the pump: report the status once the child is gone and drained. -/
def pump (task : Server) (line : Line) : Server × Line :=
  match task.exited, task.stdoutEof && task.stderrEof with
  | some status, true =>
    ({ task with phase := .ended }, ((line.send (exitRequest status)).send .eof).send .close)
  | _, _ => ({ task with phase := .pumping .select }, line)

/-- Standard input that ended early is closed before the pump starts. -/
def settle (task : Server) (line : Line) : Server × Line :=
  pump { task with stdinOpen := task.stdinOpen && !(task.stdinEof && !task.isPty), earlyStdin := [] } line

/-- The child has started: with a terminal, or with pipes. -/
def started (task : Server) (line : Line) (program : Program) (piped : Bool) : Server × Line :=
  let task := { task with
    program := some program
    stdinOpen := piped
    isPty := task.allocated
    ptyOpen := task.allocated
    stderrEof := task.allocated }
  if task.earlyStdin ≠ [] ∧ (task.ptyOpen || task.stdinOpen) then
    ({ task with phase := .early task.earlyStdin }, line)
  else task.settle line

/-- A forced command replaces the one that was asked for. -/
def programFor (forceCommand requested : Option String) : Program :=
  match forceCommand with
  | some forced => .shell (some forced) requested
  | none => .shell requested none

def launch (task : Server) (line : Line) (wantReply spawned : Bool) (program : Program) (piped : Bool) :
    Server × Line :=
  if spawned then task.started (answer line wantReply true) program piped
  else ({ task with phase := .ended }, (answer line wantReply false).send .close)

/-- A request before a program runs. -/
def onRequest (task : Server) (line : Line) (choices : Choices) (kind : String) (wantReply : Bool) (data : Bytes) :
    Server × Line :=
  if kind = "pty-req" then
    let ok := ptyParses data && choices.pty
    ({ task with allocated := task.allocated || ok }, answer line wantReply ok)
  else if kind = "window-change" then (task, answer line wantReply true)
  else if kind = "auth-agent-req@openssh.com" then
    let ok := task.permitAgent && (task.agentFwd || choices.agent)
    ({ task with agentFwd := ok }, answer line wantReply ok)
  else if kind = "exec" ∨ kind = "shell" then
    let requested := if kind = "exec" then some ((Reader.utf8.parse data).toOption.getD "") else none
    task.launch line wantReply choices.spawn (programFor task.forceCommand requested) (!task.allocated)
  else if kind = "subsystem" then
    if task.forceCommand.isSome ∨ (Reader.utf8.parse data).toOption.getD "" ≠ "sftp" ∨ choices.exe = false then
      (task, answer line wantReply false)
    else task.launch line wantReply choices.spawn .sftp true
  else (task, answer line wantReply false)

/-- A message before a program runs. -/
def onEarly (task : Server) (line : Line) (choices : Choices) : Option ToTask → Server × Line
  | none | some .close => ({ task with phase := .ended }, line)
  | some (.data bytes) =>
    ({ task with earlyStdin := task.earlyStdin ++ bytes }, line.send (.consumed bytes.length))
  | some .eof => ({ task with stdinEof := true }, line)
  | some (.request kind wantReply data) => task.onRequest line choices kind wantReply data
  | some (.reply _) | some (.extData _ _) => (task, line)

/-- A message while the child runs. -/
def onMessage (task : Server) (line : Line) : Option ToTask → Server × Line
  | none | some .close => ({ task with phase := .ended }, line)
  | some (.data bytes) =>
    if task.ptyOpen || task.stdinOpen then
      ({ task with phase := .pumping (.writing false bytes bytes.length) }, line)
    else task.pump (line.send (.consumed bytes.length))
  | some .eof => pump { task with stdinOpen := task.stdinOpen && task.isPty } line
  | some (.request kind wantReply _) => task.pump (answer line wantReply (kind = "window-change"))
  | some (.extData _ _) | some (.reply _) => task.pump line

/-- The stream that takes the child's input has failed. -/
def stopFeeding (task : Server) : Server :=
  if task.ptyOpen then { task with ptyOpen := false } else { task with stdinOpen := false }

def step (remoteMax : Nat) (task : Server) (line : Line) : Label → Option (Server × Line)
  | .recv choices =>
    match line.recv with
    | none => none
    | some (message, line) =>
      match task.phase with
      | .waiting => some (task.onEarly line choices message)
      | .pumping .select => some (task.onMessage line message)
      | _ => none
  | .wrote count =>
    match task.phase with
    | .early left =>
      if count ≤ left.length then
        let task := { task with fed := task.fed ++ left.take count }
        if left.drop count = [] then some (task.settle line)
        else some ({ task with phase := .early (left.drop count) }, line)
      else none
    | .pumping (.writing err left size) =>
      if count ≤ left.length then
        let task := { task with fed := task.fed ++ left.take count }
        if left.drop count = [] then some (task.pump (line.send (.consumed size)))
        else some ({ task with phase := .pumping (.writing err (left.drop count) size) }, line)
      else none
    | _ => none
  | .writeFails =>
    match task.phase with
    | .early _ => some (task.settle line)
    | .pumping (.writing _ _ size) => some (task.stopFeeding.pump (line.send (.consumed size)))
    | _ => none
  | .readOut bytes =>
    match task.phase with
    | .pumping .select =>
      if line.quiet ∧ task.stdoutEof = false ∧ bytes ≠ [] ∧ bytes.length ≤ maxChunk then
        some ({ task with phase := .pumping (.sending none bytes) }, line)
      else none
    | _ => none
  | .outEnds =>
    match task.phase with
    | .pumping .select =>
      if line.quiet ∧ task.stdoutEof = false then some (pump { task with stdoutEof := true } line) else none
    | _ => none
  | .readErr bytes =>
    match task.phase with
    | .pumping .select =>
      if line.quiet ∧ task.stderrEof = false ∧ bytes ≠ [] ∧ bytes.length ≤ maxChunk then
        some ({ task with phase := .pumping (.sending (some stderr) bytes) }, line)
      else none
    | _ => none
  | .errEnds =>
    match task.phase with
    | .pumping .select =>
      if line.quiet ∧ task.stderrEof = false then some (pump { task with stderrEof := true } line) else none
    | _ => none
  | .exits status =>
    match task.phase with
    | .pumping .select =>
      if line.quiet ∧ task.exited = none then some (pump { task with exited := some status } line) else none
    | _ => none
  | .send =>
    match task.phase with
    | .pumping (.sending ext left) =>
      match line.sendCredited remoteMax ext left with
      | (.sent rest, line) =>
        if rest = [] then some (task.pump line)
        else some ({ task with phase := .pumping (.sending ext rest) }, line)
      | (.waiting, line) => some (task, line)
      | (.refused, line) => some ({ task with phase := .ended }, line)
    | _ => none

def running (task : Server) : Bool := task.phase ≠ .ended

def holding (task : Server) : Nat :=
  match task.phase with
  | .pumping work => work.holding
  | _ => 0

def unsent (task : Server) : Bytes :=
  match task.phase with
  | .pumping work => work.unsent
  | _ => []

def ext (task : Server) : Option Nat :=
  match task.phase with
  | .pumping work => work.ext
  | _ => none

end Server

end Shh.Channels
