import Shh.Outputs

/-!
# A session with a child that echoes

A client and its server are joined by a channel, and the server by two pipes to a child
that copies its input to its output. The server's task writes to the child inside the
arm of its loop that took the data, so while the input pipe is full it reads nothing of
the child's output. The child in turn reads nothing while its output pipe is full. Both
can come to wait for each other, whatever the pipes hold.
-/

namespace Shh.Channels

open List Wire Semaphores Runs

/-- How much the child's input and output pipes hold, and how much it reads at once. -/
structure Plumbing where
  stdin : Nat
  stdout : Nat
  buffer : Nat
  stdinPositive : 0 < stdin
  stdoutPositive : 0 < stdout
  bufferPositive : 0 < buffer

/-- The two ends of a session, the number of bytes the child has read of what it was
fed, what it has yet to write of them, and what is in its output pipe. -/
structure Echo where
  pair : Pair
  eaten : Nat
  hand : Bytes
  stdout : Bytes
  exited : Bool

namespace Echo

inductive Label where
  | pair (event : Side × End.Label)
  | childReads (count : Nat)
  | childWrites (count : Nat)
  | childExits
deriving DecidableEq, Repr

/-- The client asks for a command without a terminal. -/
def start (platform : Side → Platform) (ids : Side → Nat) (command : String) (permitAgent : Bool)
    (forceCommand : Option String) : Echo where
  pair := Pair.make platform (fun
    | .opener => .client (.make ⟨some command, none, none, false⟩ false)
    | .acceptor => .server (.make permitAgent forceCommand)) (fun side => side = .opener) ids
  eaten := 0
  hand := []
  stdout := []
  exited := false

def server (echo : Echo) : Option Server :=
  match (echo.pair .acceptor).task with
  | .server task => some task
  | _ => none

/-- What is in the child's input pipe. -/
def stdin (echo : Echo) : Bytes :=
  match echo.server with
  | some task => task.fed.drop echo.eaten
  | none => []

/-- The child has been started and nobody can write to its input any more. -/
def inputOver (echo : Echo) : Bool :=
  match echo.server with
  | some task => task.program.isSome && !(task.running && task.stdinOpen)
  | none => false

/-- What the pipes and the child let the server's task do. -/
def lets (plumbing : Plumbing) (echo : Echo) : Server.Label → Bool
  | .wrote count => !echo.exited && echo.stdin.length + count ≤ plumbing.stdin
  | .writeFails => echo.exited
  | .readOut bytes => bytes = echo.stdout.take bytes.length
  | .outEnds => echo.exited && echo.stdout.isEmpty
  | .readErr _ => false
  | .errEnds => echo.exited
  | .exits status => echo.exited && status = .code 0
  | .recv _ | .send => true

/-- The connections stay up, and the client's streams neither end nor fail. -/
def allows (plumbing : Plumbing) (echo : Echo) : Side × End.Label → Bool
  | (_, .fall) | (_, .act (.client .writeFails)) | (_, .act (.client .stdinEnds)) => false
  | (_, .act (.server label)) => echo.lets plumbing label
  | _ => true

/-- What a step of the server's task takes out of the output pipe. -/
def drained : Side × End.Label → Nat
  | (.acceptor, .act (.server (.readOut bytes))) => bytes.length
  | _ => 0

def step (platform : Side → Platform) (plumbing : Plumbing) (echo : Echo) : Label → Option Echo
  | .pair event =>
    if echo.allows plumbing event then
      (echo.pair.step platform event).map fun pair => { echo with pair, stdout := echo.stdout.drop (drained event) }
    else none
  | .childReads count =>
    if 0 < count ∧ count ≤ plumbing.buffer ∧ count ≤ echo.stdin.length ∧ echo.hand = [] then
      some { echo with eaten := echo.eaten + count, hand := echo.stdin.take count }
    else none
  | .childWrites count =>
    if 0 < count ∧ count ≤ echo.hand.length ∧ echo.stdout.length + count ≤ plumbing.stdout then
      some { echo with hand := echo.hand.drop count, stdout := echo.stdout ++ echo.hand.take count }
    else none
  | .childExits =>
    if echo.inputOver ∧ echo.stdin = [] ∧ echo.hand = [] then some { echo with exited := true } else none

/-- The child waits for room in its output pipe, and the server for room in the child's
input pipe. -/
def Deadlocked (plumbing : Plumbing) (echo : Echo) : Prop :=
  echo.exited = false ∧ echo.hand ≠ [] ∧ echo.stdout.length = plumbing.stdout ∧
    echo.stdin.length = plumbing.stdin ∧
    ∃ task err left size, echo.server = some task ∧ task.phase = .pumping (.writing err left size) ∧ left ≠ []

end Echo

section Rounds

/-! The two ends while the command is started and while the client feeds the child one
byte at a time. -/

def clientAt (spec : SessionSpec) (id permits : Nat) (phase : Client.Phase) (inbox : List ToTask) (cmds : List Cmd)
    (sent heard : List Message) : End where
  chan := some (.make id true true)
  line := ⟨⟨permits, 0, false⟩, inbox, false, cmds, false⟩
  task := .client { Client.make spec false with phase }
  remoteMax := maxChunk
  sent := sent
  heard := heard

/-- The server's task once it has started the child. -/
def feeding (permitAgent : Bool) (forceCommand : Option String) (program : Program) (phase : Server.Phase)
    (fed : Bytes) : Server :=
  { Server.make permitAgent forceCommand with program := some program, stdinOpen := true, phase, fed }

def serverAt (task : Server) (id window pending : Nat) (inbox : List ToTask) (cmds : List Cmd)
    (sent heard : List Message) : End where
  chan := some { Chan.make id true false with localWindow := window, pendingConsumed := pending }
  line := ⟨⟨localWindow, 0, false⟩, inbox, false, cmds, false⟩
  task := .server task
  remoteMax := maxChunk
  sent := sent
  heard := heard

def both (client server : End) : Pair
  | .opener => client
  | .acceptor => server

variable {platform : Platform} {spec : SessionSpec} {task : Server} {id permits window pending : Nat}
  {phase : Client.Phase} {sent heard : List Message} {inbox : List ToTask} {cmds : List Cmd} {fed : Bytes}
  {byte last : UInt8} {permitAgent : Bool} {forceCommand : Option String} {program : Program}

section Start

variable {command : String}

variable {body : Bytes}

theorem client_starts : (clientAt ⟨some command, none, none, false⟩ id permits .created [] [] [] []).step platform
    (.act (.client .start)) = some (clientAt ⟨some command, none, none, false⟩ id permits .awaiting []
      [.request "exec" true (Writer.utf8 command)] [] []) := rfl

theorem client_asks {kind} :
    (clientAt spec id permits phase inbox [.request kind true body] sent heard).step platform .process =
      some (clientAt spec id permits phase inbox [] (sent ++ [.request kind true body]) heard) := rfl

theorem server_asked {kind} :
    (serverAt task id window pending [] cmds sent heard).step platform (.hear (.request kind true body)) =
      some (serverAt task id window pending [.request kind true body] cmds sent (heard ++
      [.request kind true body])) := by
  simp [End.step, serverAt, End.hear, Chan.deliver, Chan.onChannelRequest, Chan.make, End.take, Line.push]

theorem server_starts : ∃ program,
    (serverAt (.make permitAgent forceCommand) id window pending [.request "exec" true body] [] sent heard).step platform
      (.act (.server (.recv ⟨true, true, true, true⟩))) =
    some (serverAt (feeding permitAgent forceCommand program (.pumping .select) []) id window pending [] [.reply true]
      sent heard) := ⟨_, rfl⟩

theorem server_replies : (serverAt task id window pending inbox [.reply true] sent heard).step platform .process =
    some (serverAt task id window pending inbox [] (sent ++ [.reply true]) heard) := rfl

theorem client_told : (clientAt spec id permits phase [] cmds sent heard).step platform (.hear (.reply true)) =
    some (clientAt spec id permits phase [.reply true] cmds sent (heard ++ [.reply true])) := by
  simp [End.step, clientAt, End.hear, Chan.deliver, End.take, Line.push]

theorem client_goes : (clientAt spec id permits .awaiting [.reply true] cmds sent heard).step platform
    (.act (.client .recv)) = some (clientAt spec id permits (.pumping .select) [] cmds sent heard) := rfl

end Start

theorem client_reads : (clientAt spec id permits (.pumping .select) [] [] sent heard).step platform
    (.act (.client (.readStdin [byte]))) =
      some (clientAt spec id permits (.pumping (.sending none [byte])) [] [] sent heard) := rfl

theorem client_sends : (clientAt spec id (permits + 1) (.pumping (.sending none [byte])) [] [] sent heard).step platform
    (.act (.client .send)) = some (clientAt spec id permits (.pumping .select) [] [.data [byte]] sent heard) := rfl

theorem client_carries : (clientAt spec id permits phase inbox [.data [byte]] sent heard).step platform .process =
    some (clientAt spec id permits phase inbox [] (sent ++ [.data [byte]]) heard) := rfl

theorem server_hears : (serverAt task id (window + 1) pending [] cmds sent heard).step platform (.hear (.data [byte])) =
    some (serverAt task id window pending [.data [byte]] cmds sent (heard ++ [.data [byte]])) := by
  simp [End.step, serverAt, End.hear, Chan.deliver, Chan.onData, End.take, Line.push]

theorem server_writes :
    (serverAt (feeding permitAgent forceCommand program (.pumping (.writing false [last] 1)) fed) id window pending inbox []
      sent heard).step platform (.act (.server (.wrote 1))) =
    some (serverAt (feeding permitAgent forceCommand program (.pumping .select) (fed ++ [last])) id window pending inbox
      [.consumed 1] sent heard) := rfl

theorem server_takes {choices} :
    (serverAt (feeding permitAgent forceCommand program (.pumping .select) fed) id window pending [.data [byte]] cmds
      sent heard).step platform (.act (.server (.recv choices))) =
    some (serverAt (feeding permitAgent forceCommand program (.pumping (.writing false [byte] 1)) fed) id window pending []
      cmds sent heard) := rfl

theorem server_notes (few : pending + 1 < windowRefill) :
    (serverAt task id window pending inbox [.consumed 1] sent heard).step platform .process =
      some (serverAt task id window (pending + 1) inbox [] sent heard) := by
  have short : ¬windowRefill ≤ pending + 1 := Nat.not_le_of_lt few
  simp [End.step, serverAt, End.process, Chan.command, Chan.onConsumed, End.take, short]

theorem server_grants (many : pending + 1 = windowRefill) (room : window + windowRefill ≤ windowMax) :
    (serverAt task id window pending inbox [.consumed 1] sent heard).step platform .process =
      some (serverAt task id (window + windowRefill) 0 inbox [] (sent ++ [.adjust windowRefill]) heard) := by
  simp [End.step, serverAt, End.process, Chan.command, Chan.onConsumed, End.take, many, Nat.min_eq_left room]

theorem client_granted {add} (some_ : 0 < add) (room : permits + add ≤ min windowMax platform.maxPermits) :
    (clientAt spec id permits phase inbox cmds sent heard).step platform (.hear (.adjust add)) =
      some (clientAt spec id (permits + add) phase inbox cmds sent (heard ++ [.adjust add])) := by
  have whole : min add (min windowMax platform.maxPermits - permits) = add := Nat.min_eq_left (by omega)
  simp only [End.step, clientAt, End.hear, Chan.deliver, Chan.onWindowAdjust, Semaphore.available,
    Nat.sub_zero, whole, if_pos some_]
  simp [End.take, Semaphore.add]

end Rounds

namespace Echo

variable {platform : Side → Platform} {plumbing : Plumbing} {client server later : End} {label : End.Label}
  {eaten : Nat} {hand stdout : Bytes} {exited : Bool}

/-- The client's end moves. -/
theorem step_client (allowed : allows plumbing ⟨both client server, eaten, hand, stdout,
    exited⟩ (.opener, label) = true)
    (may : Pair.allows (both client server) .opener label = true)
      (moved : client.step (platform .opener) label = some later)
    (plain : drained (.opener, label) = 0) :
    step platform plumbing ⟨both client server, eaten, hand, stdout, exited⟩ (.pair (.opener, label)) =
      some ⟨both later server, eaten, hand, stdout, exited⟩ := by
  have shape : Function.update (both client server) .opener later = both later server := by
    funext side
    cases side <;> rfl
  have moved : (both client server .opener).step (platform .opener) label = some later := moved
  simp only [step, allowed, if_true, Pair.step, may, moved, Option.map_some, shape, plain, drop_zero]

/-- The server's end moves. -/
theorem step_server (allowed : allows plumbing ⟨both client server, eaten, hand, stdout,
    exited⟩ (.acceptor, label) = true)
    (may : Pair.allows (both client server) .acceptor label = true)
    (moved : server.step (platform .acceptor) label = some later) (plain : drained (.acceptor, label) = 0) :
    step platform plumbing ⟨both client server, eaten, hand, stdout, exited⟩ (.pair (.acceptor, label)) =
      some ⟨both client later, eaten, hand, stdout, exited⟩ := by
  have shape : Function.update (both client server) .acceptor later = both client later := by
    funext side
    cases side <;> rfl
  have moved : (both client server .acceptor).step (platform .acceptor) label = some later := moved
  simp only [step, allowed, if_true, Pair.step, may, moved, Option.map_some, shape, plain, drop_zero]

variable {spec : SessionSpec} {ids : Side → Nat} {permitAgent : Bool} {forceCommand : Option String} {program : Program}
  {pending : Nat} {fed : Bytes} {sent heard : List Message}

/-- The server writes a byte to the child, and nothing else is under way. Some bytes
before it have been reported and not yet granted again. -/
def writing (spec : SessionSpec) (ids : Side → Nat) (permitAgent : Bool) (forceCommand : Option String)
    (program : Program) (pending : Nat) (fed : Bytes) (sent heard : List Message) (eaten : Nat) (hand stdout : Bytes) :
    Echo :=
  ⟨both (clientAt spec (ids .opener) (localWindow - 1 - pending) (.pumping .select) [] [] sent heard)
    (serverAt (feeding permitAgent forceCommand program (.pumping (.writing false [0] 1)) fed) (ids .acceptor)
      (localWindow - 1 - pending) pending [] [] heard sent), eaten, hand, stdout, false⟩

/-- With room in the child's input pipe, the client sends the next byte while the server
writes the last, and the server takes it before it looks at the child's output. -/
theorem writing_round (few : pending < windowRefill) (room : (fed.drop eaten).length + 1 ≤ plumbing.stdin) :
    ∃ labels pending' sent' heard', pending' < windowRefill ∧
      Path (step platform plumbing)
        (writing spec ids permitAgent forceCommand program pending fed sent heard eaten hand stdout) labels
        (writing spec ids permitAgent forceCommand program pending' (fed ++ [0]) sent' heard' eaten hand stdout) := by
  have large : windowRefill + 2 ≤ localWindow := by decide
  obtain ⟨left, whole⟩ : ∃ left, localWindow - 1 - pending = left + 1 := ⟨localWindow - 2 - pending, by omega⟩
  have heard_next {list : List Message} {message} :
      decide (((list ++ [message]).drop list.length).head? = some message) = true := by simp
  have common : Path (step platform plumbing)
      (writing spec ids permitAgent forceCommand program pending fed sent heard eaten hand stdout)
      [.pair (.opener, .act (.client (.readStdin [0]))), .pair (.opener, .act (.client .send)),
        .pair (.opener, .process),
        .pair (.acceptor, .hear (.data [0])), .pair (.acceptor, .act (.server (.wrote 1))),
        .pair (.acceptor, .act (.server (.recv ⟨true, true, true, true⟩)))]
      ⟨both (clientAt spec (ids .opener) left (.pumping .select) [] [] (sent ++ [.data [0]]) heard)
        (serverAt (feeding permitAgent forceCommand program (.pumping (.writing false [0] 1)) (fed ++ [0])) (ids .acceptor)
          left pending [] [.consumed 1] heard (sent ++ [.data [0]])), eaten, hand, stdout, false⟩ := by
    unfold writing
    rw [whole]
    refine .cons (step_client rfl rfl client_reads rfl) ?_
    refine .cons (step_client rfl rfl client_sends rfl) ?_
    refine .cons (step_client rfl rfl client_carries rfl) ?_
    refine .cons (step_server rfl heard_next server_hears rfl) ?_
    refine .cons (step_server (decide_eq_true room) rfl server_writes rfl) ?_
    exact .cons (step_server rfl rfl server_takes rfl) .nil
  by_cases more : pending + 1 < windowRefill
  · have later : localWindow - 1 - (pending + 1) = left := by omega
    have noted := Path.snoc common (step_server rfl rfl (server_notes more) rfl)
    rw [← later] at noted
    exact ⟨_, pending + 1, _, _, more, noted⟩
  · have many : pending + 1 = windowRefill := by omega
    have later : localWindow - 1 - 0 = left + windowRefill := by omega
    have narrow : localWindow ≤ windowMax := by decide
    have ceiling : localWindow ≤ min windowMax (platform .opener).maxPermits := by
      unfold Platform.maxPermits
      split <;> decide
    have granted := Path.snoc (.snoc common (step_server rfl rfl (server_grants many (by omega)) rfl))
      (@step_client platform plumbing _ _ _ (.hear (.adjust windowRefill)) _ _ _ _ rfl heard_next
        (client_granted (by decide) (by omega)) rfl)
    rw [← later] at granted
    exact ⟨_, 0, _, _, by decide, granted⟩

/-- Bytes in the child's input pipe while the server writes to it. -/
theorem writing_stdin :
    (writing spec ids permitAgent forceCommand program pending fed sent heard eaten hand stdout).stdin =
    fed.drop eaten := rfl

/-- An echoing session: its ends, the child's pipes, the command and what the server
makes of it. -/
structure Setup where
  platform : Side → Platform
  plumbing : Plumbing
  ids : Side → Nat
  command : String
  permitAgent : Bool
  forceCommand : Option String
  program : Program

/-- The session can come to where the server writes a byte to the child, with these
numbers of bytes in the child's input pipe, in its hands and in its output pipe. -/
def Fills (setup : Setup) (input held output : Nat) : Prop :=
  ∃ labels pending fed sent heard eaten hand stdout, pending < windowRefill ∧ fed.length = eaten + input ∧
    hand.length = held ∧ stdout.length = output ∧
    Path (step setup.platform setup.plumbing)
      (.start setup.platform setup.ids setup.command setup.permitAgent setup.forceCommand) labels
      (writing ⟨some setup.command, none, none, false⟩ setup.ids setup.permitAgent setup.forceCommand
        setup.program pending fed sent heard eaten hand stdout)

variable {setup : Setup} {input held output : Nat}

theorem Fills.feeds (fills : Fills setup input held output)
    (room : input < setup.plumbing.stdin) :
    Fills setup (input + 1) held output := by
  obtain ⟨labels, pending, fed, sent, heard, eaten, hand, stdout, few, fedLength, handLength,
    stdoutLength, path⟩ := fills
  obtain ⟨more, pending, sent, heard, few, round⟩ :=
    @writing_round setup.platform setup.plumbing eaten hand stdout ⟨some setup.command, none, none, false⟩ setup.ids
      setup.permitAgent setup.forceCommand setup.program pending fed sent heard few (by rw [length_drop]; omega)
  exact ⟨_, pending, _, sent, heard, eaten, hand, stdout, few, by rw [length_append, fedLength]; rfl, handLength,
    stdoutLength, path.trans round⟩

theorem Fills.eats (fills : Fills setup (input + 1) 0 output) : Fills setup input 1 output := by
  obtain ⟨labels, pending, fed, sent, heard, eaten, hand, stdout, few, fedLength, handLength,
    stdoutLength, path⟩ := fills
  obtain rfl := eq_nil_of_length_eq_zero handLength
  have there : 1 ≤ (fed.drop eaten).length := by
    rw [length_drop]
    omega
  refine ⟨labels ++ [.childReads 1], pending, fed, sent, heard, eaten + 1, (fed.drop eaten).take 1,
    stdout, few, by omega, ?_,
    stdoutLength, .snoc path ?_⟩
  · rw [length_take]
    omega
  · exact if_pos ⟨Nat.zero_lt_one, setup.plumbing.bufferPositive, there, rfl⟩

theorem Fills.echoes (fills : Fills setup input 1 output)
    (room : output < setup.plumbing.stdout) :
    Fills setup input 0 (output + 1) := by
  obtain ⟨labels, pending, fed, sent, heard, eaten, hand, stdout, few, fedLength, handLength,
    stdoutLength, path⟩ := fills
  refine ⟨labels ++ [.childWrites 1], pending, fed, sent, heard, eaten, hand.drop 1,
    stdout ++ hand.take 1, few, fedLength, ?_,
    ?_, .snoc path ?_⟩
  · rw [length_drop]
    omega
  · rw [length_append, length_take]
    omega
  · refine if_pos ⟨Nat.zero_lt_one, Nat.le_of_eq handLength.symm, ?_⟩
    show stdout.length + 1 ≤ _
    omega

/-- Byte by byte the child fills its output pipe. -/
theorem Fills.output_full (fills : Fills setup 0 0 0)
    (bounded : output ≤ setup.plumbing.stdout) :
    Fills setup 0 0 output := by
  induction output with
  | zero => exact fills
  | succ output ih =>
    have before := ih (by omega)
    exact ((before.feeds setup.plumbing.stdinPositive).eats).echoes (by omega)

/-- Then the server fills the child's input pipe. -/
theorem Fills.input_full (fills : Fills setup 0 held output)
    (bounded : input ≤ setup.plumbing.stdin) :
    Fills setup input held output := by
  induction input with
  | zero => exact fills
  | succ input ih => exact (ih (by omega)).feeds (by omega)

/-- The command is started and the first byte reaches the server. -/
def begun (command : String) : List Label :=
  [.pair (.opener, .act (.client .start)), .pair (.opener, .process),
    .pair (.acceptor, .hear (.request "exec" true (Writer.utf8 command))),
    .pair (.acceptor, .act (.server (.recv ⟨true, true, true, true⟩))), .pair (.acceptor, .process),
    .pair (.opener, .hear (.reply true)), .pair (.opener, .act (.client .recv)),
    .pair (.opener, .act (.client (.readStdin [0]))), .pair (.opener, .act (.client .send)),
    .pair (.opener, .process), .pair (.acceptor, .hear (.data [0])),
    .pair (.acceptor, .act (.server (.recv ⟨true, true, true, true⟩)))]

/-- The session starts: the command is asked for, started and granted, and the first byte
has reached the server. -/
theorem fills_start (command : String) : ∃ program,
    Fills ⟨platform, plumbing, ids, command, permitAgent, forceCommand, program⟩ 0 0 0 := by
  have room (side : Side) : min localWindow (platform side).maxPermits = localWindow := by
    unfold Platform.maxPermits
    split <;> decide
  have shape : start platform ids command permitAgent forceCommand =
      ⟨both (clientAt ⟨some command, none, none, false⟩ (ids .opener) localWindow .created [] [] [] [])
        (serverAt (.make permitAgent forceCommand) (ids .acceptor) localWindow 0 [] [] [] []), 0, [], [], false⟩ := by
    unfold start
    congr 1
    funext side
    cases side with
    | opener | acceptor => simp only [Pair.make, End.make, Line.make, room]; rfl
  have heard_next {list : List Message} {message} :
      decide (((list ++ [message]).drop list.length).head? = some message) = true := by simp
  obtain ⟨program, starts⟩ := @server_starts (platform .acceptor) (ids .acceptor) localWindow 0 []
    [.request "exec" true (Writer.utf8 command)] permitAgent forceCommand (Writer.utf8 command)
  have path : Path (step platform plumbing) (.start platform ids command permitAgent forceCommand) (begun command)
      (writing ⟨some command, none, none, false⟩ ids permitAgent forceCommand program 0 []
        [.request "exec" true (Writer.utf8 command), .data [0]] [.reply true] 0 [] []) := by
    rw [shape]
    refine .cons (step_client rfl rfl client_starts rfl) ?_
    refine .cons (step_client rfl rfl client_asks rfl) ?_
    refine .cons (step_server rfl (@heard_next [] _) server_asked rfl) ?_
    refine .cons (step_server rfl rfl starts rfl) ?_
    refine .cons (step_server rfl rfl server_replies rfl) ?_
    refine .cons (step_client rfl rfl client_told rfl) ?_
    refine .cons (step_client rfl rfl client_goes rfl) ?_
    refine .cons (step_client rfl rfl client_reads rfl) ?_
    refine .cons (step_client rfl rfl client_sends rfl) ?_
    refine .cons (step_client rfl rfl client_carries rfl) ?_
    refine .cons (step_server rfl rfl server_hears rfl) ?_
    exact .cons (step_server rfl rfl server_takes rfl) .nil
  exact ⟨program, _, 0, [], _, _, 0, [], [], by decide, rfl, rfl, rfl, path⟩

/-- Nothing ends the wait: the server looks at nothing else while it writes, and the child
reads nothing while it has something to write. -/
theorem server_blocked {remoteMax} {task next : Server} {line after cause err left size}
    (phase : task.phase = .pumping (.writing err left size)) (some_ : left ≠ [])
    (ran : task.step remoteMax line cause = some (next, after)) (full : ∀ count, cause = .wrote count → count = 0)
    (intact : cause ≠ .writeFails) : next = task ∧ ∀ bytes, cause ≠ .readOut bytes := by
  cases cause with
  | wrote count =>
    obtain rfl := full count rfl
    simp only [Server.step, phase, Nat.zero_le, if_true, drop_zero, if_neg some_, take_zero, append_nil] at ran
    obtain ⟨rfl, _⟩ := Prod.mk.inj (Option.some.inj ran)
    refine ⟨?_, by simp⟩
    rw [← phase]
  | writeFails => exact absurd rfl intact
  | recv choices =>
    simp only [Server.step, phase] at ran
    split at ran <;> cases ran
  | readOut | outEnds | readErr | errEnds | exits | send =>
    simp only [Server.step, phase] at ran
    cases ran

theorem deadlocked_step {echo next : Echo} {event} (deadlocked : echo.Deadlocked plumbing)
    (ran : echo.step platform plumbing event = some next) : next.Deadlocked plumbing := by
  obtain ⟨alive, busy, full, fullInput, task, err, left, size, server, phase, some_⟩ := deadlocked
  have kind : (echo.pair .acceptor).task = .server task := by
    unfold Echo.server at server
    split at server
    · rename_i kind
      rw [kind, Option.some.inj server]
    · cases server
  cases event with
  | pair event =>
    obtain ⟨mover, label⟩ := event
    simp only [step] at ran
    split at ran
    · rename_i allowed
      obtain ⟨pair, moved, rfl⟩ := Option.map_eq_some_iff.mp ran
      have same : (pair .acceptor).task = (echo.pair .acceptor).task ∧ drained (mover, label) = 0 := by
        obtain ⟨stay, stepped, rfl, _⟩ := Pair.step_cases moved
        cases mover with
        | opener => exact ⟨rfl, rfl⟩
        | acceptor =>
          rw [Function.update_self]
          rcases step_task stepped with ⟨cause, rfl, took⟩ | ⟨loop, same⟩
          · rw [kind] at took ⊢
            obtain ⟨_, _, _, other, _⟩ | ⟨_, _, _, other, _⟩ | ⟨mine, label, later, same, went, now, rfl⟩ :=
              Task.step_cases took
            · cases other
            · cases other
            · obtain rfl := Task.server.inj same
              obtain ⟨rfl, unread⟩ := server_blocked phase some_ went (by
                rintro count rfl
                simp only [allows, lets, alive, Bool.not_false, Bool.true_and, decide_eq_true_eq] at allowed
                omega) (by
                rintro rfl
                exact absurd (alive.symm.trans allowed) nofun)
              refine ⟨now, ?_⟩
              cases label with
              | readOut bytes => exact absurd rfl (unread bytes)
              | _ => rfl
          · refine ⟨same, ?_⟩
            cases label with
            | act cause => exact absurd rfl (loop cause)
            | _ => rfl
      have servers : Echo.server { echo with pair, stdout := echo.stdout.drop (drained (mover,
        label)) } = some task := by
        simp only [Echo.server, same.1, kind]
      refine ⟨alive, busy, ?_, ?_, task, err, left, size, servers, phase, some_⟩
      · show (echo.stdout.drop (drained (mover, label))).length = _
        rw [same.2]
        exact full
      · simp only [stdin, servers]
        simp only [stdin, server] at fullInput
        exact fullInput
    · cases ran
  | childReads count =>
    simp only [step] at ran
    split at ran
    · rename_i reads
      exact absurd reads.2.2.2 busy
    · cases ran
  | childWrites count =>
    simp only [step] at ran
    split at ran
    · rename_i writes
      omega
    · cases ran
  | childExits =>
    simp only [step] at ran
    split at ran
    · rename_i ends
      exact absurd ends.2.2 busy
    · cases ran

/-- Whatever the child's pipes hold, a session with an echoing command can come to where
the child waits to write its output while the server waits to write the child's input,
and then it stays there. -/
theorem echo_deadlocks (platform : Side → Platform) (plumbing : Plumbing) (ids : Side → Nat) (command : String)
    (permitAgent : Bool) (forceCommand : Option String) :
    ∃ labels echo, Path (step platform plumbing) (.start platform ids command permitAgent forceCommand) labels echo ∧
      echo.Deadlocked plumbing ∧
      ∀ more later, Path (step platform plumbing) echo more later → later.Deadlocked plumbing := by
  obtain ⟨program, begins⟩ := @fills_start platform plumbing ids permitAgent forceCommand command
  have fills := (((begins.output_full (Nat.le_refl _)).feeds plumbing.stdinPositive).eats).input_full
    (Nat.le_refl plumbing.stdin)
  obtain ⟨labels, pending, fed, sent, heard, eaten, hand, stdout, _, fedLength, handLength, stdoutLength, path⟩ := fills
  have deadlocked : Deadlocked plumbing (writing ⟨some command, none, none, false⟩ ids permitAgent forceCommand program
      pending fed sent heard eaten hand stdout) := by
    refine ⟨rfl, ?_, stdoutLength, ?_, _, _, _, _, rfl, rfl, cons_ne_nil _ _⟩
    · rintro rfl
      cases handLength
    · rw [writing_stdin, length_drop]
      omega
  refine ⟨labels, _, path, deadlocked, fun more later onward => ?_⟩
  exact path_invariant (fun _ => Deadlocked plumbing) deadlocked
    (fun _ _ _ _ _ ran before => deadlocked_step before ran)
    onward

/-- Pipes of one byte. -/
def narrow : Plumbing := ⟨1, 1, 1, Nat.zero_lt_one, Nat.zero_lt_one, Nat.zero_lt_one⟩

/-- The next byte reaches the server, which writes the last and takes it. -/
def nextByte : List Label :=
  [.pair (.opener, .act (.client (.readStdin [0]))), .pair (.opener, .act (.client .send)), .pair (.opener, .process),
    .pair (.acceptor, .hear (.data [0])), .pair (.acceptor, .act (.server (.wrote 1))),
    .pair (.acceptor, .act (.server (.recv ⟨true, true, true, true⟩))), .pair (.acceptor, .process)]

theorem narrow_echo_deadlocked : ∃ echo,
    Path (step mixedPlatforms narrow) (.start mixedPlatforms (fun _ => 0) "cat" false none)
      (begun "cat" ++ nextByte ++ [.childReads 1, .childWrites 1] ++ nextByte ++ [.childReads 1] ++ nextByte) echo ∧
    echo.Deadlocked narrow := by
  have path := @path_of_foldlM _ _ (step mixedPlatforms narrow) (.start mixedPlatforms (fun _ => 0) "cat" false none) _
    (begun "cat" ++ nextByte ++ [.childReads 1, .childWrites 1] ++ nextByte ++ [.childReads 1] ++ nextByte) rfl
  exact ⟨_, path, rfl, cons_ne_nil _ _, rfl, rfl, _, _, _, _, rfl, rfl, cons_ne_nil _ _⟩

end Echo

end Shh.Channels
