import Shh.Pipes

/-!
# The steps of a session's server

What each step of the server's task takes from its queue, does to the child's streams
and asks of the loop. The task has two phases: it waits for a request that starts a
program, and then moves data between the channel and the streams it has for it, which are
those of a terminal if one was allocated and the child's pipes otherwise.
-/

namespace Shh.Channels

open Wire Semaphores

/-- Commands that answer the peer or report bytes. -/
inductive Cmd.Minor : Cmd → Prop where
  | reply (success : Bool) : Cmd.Minor (.reply success)
  | consumed (count : Nat) : Cmd.Minor (.consumed count)

/-- A line to which only minor commands were added. -/
structure Minorly (line after : Line) : Prop where
  adds : Adds Cmd.Minor line after
  inbox : after.inbox = line.inbox
  gone : after.gone = line.gone

theorem Minorly.refl (line : Line) : Minorly line line := ⟨.none rfl, rfl, rfl⟩

theorem Minorly.send {cmd : Cmd} (minor : cmd.Minor) (line : Line) : Minorly line (line.send cmd) :=
  ⟨.send minor line, (send_same line cmd).2.1, (send_same line cmd).2.2.2⟩

theorem Minorly.answer (line : Line) (wantReply success : Bool) :
    Minorly line (Server.answer line wantReply success) := by
  unfold Server.answer
  split
  · exact .send (.reply success) line
  · exact .refl line

namespace Server

variable {remoteMax : Nat} {task next : Server} {line after : Line} {label : Label}

variable {choices : Choices}

variable {kind : String} {wantReply : Bool} {data : Bytes} {rest : List ToTask} {message : Option ToTask}
variable {between : Line}

/-- The pump ends once the child has exited and was drained, and goes on otherwise. -/
theorem pump_cases (task : Server) (line : Line) :
    (∃ status, task.exited = some status ∧ task.stdoutEof = true ∧ task.stderrEof = true ∧
        task.pump line = ({ task with phase := .ended }, ((line.send (exitRequest status)).send .eof).send .close)) ∨
      (¬(task.exited.isSome = true ∧ task.stdoutEof = true ∧ task.stderrEof = true) ∧
        task.pump line = ({ task with phase := .pumping .select }, line)) := by
  unfold pump
  split
  · rename_i status exited drained
    have both := (Bool.and_eq_true _ _).mp drained
    exact .inl ⟨status, exited, both.1, both.2, rfl⟩
  · rename_i unfinished
    refine .inr ⟨?_, rfl⟩
    rintro ⟨exited, out, err⟩
    obtain ⟨status, known⟩ := Option.isSome_iff_exists.mp exited
    exact unfinished status known (by rw [out, err]; rfl)

/-- What the end of the pump asks of a loop that still listens. -/
theorem finish_cmds (status : Status) (alive : line.gone = false) :
    (((line.send (exitRequest status)).send .eof).send .close).cmds = line.cmds ++
    [exitRequest status, .eof, .close] := by
  have first : (line.send (exitRequest status)).gone = false := ((send_same _ _).2.2.2).trans alive
  have second : ((line.send (exitRequest status)).send .eof).gone = false := ((send_same _ _).2.2.2).trans first
  rw [send_alive second, send_alive first, send_alive alive]
  simp only [List.append_assoc, List.cons_append, List.nil_append]

/-- The child of a request: a shell on the terminal if there is one, or the server's own
sftp, which never is. -/
inductive Asked (task : Server) (kind : String) (data : Bytes) : Program → Bool → Prop where
  | shell {command original} : Asked task kind data (.shell command original) (!task.allocated)
  | sftp (asked : kind = "subsystem") (free : task.forceCommand = none)
      (named : (Reader.utf8.parse data).toOption.getD "" = "sftp") : Asked task kind data .sftp true

/-- The ways a step of the server's task can go. -/
inductive Goes (remoteMax : Nat) (task : Server) (line : Line) : Label → Server → Line → Prop where
  -- Before a program runs.
  | gathers {choices bytes rest after} (waiting : task.phase = .waiting)
      (there : line.inbox = .data bytes :: rest) (minorly : Minorly { line with inbox := rest } after) :
      Goes remoteMax task line (.recv choices) { task with earlyStdin := task.earlyStdin ++ bytes } after
  | endsEarly {choices : Choices} {rest : List ToTask} (waiting : task.phase = .waiting)
      (there : line.inbox = .eof :: rest) :
      Goes remoteMax task line (.recv choices) { task with stdinEof := true } { line with inbox := rest }
  | passes {choices : Choices} {message : ToTask} {rest : List ToTask} {allocated agentFwd : Bool} {after : Line}
      (waiting : task.phase = .waiting) (there : line.inbox = message :: rest)
      (plain : message.message.payload = []) (open_ : message ≠ .close)
      (minorly : Minorly { line with inbox := rest } after) :
      Goes remoteMax task line (.recv choices) { task with allocated, agentFwd } after
  | starts {choices kind wantReply data rest program piped between after next} (waiting : task.phase = .waiting)
      (there : line.inbox = .request kind wantReply data :: rest) (minorly : Minorly { line with inbox := rest } between)
      (asked : Asked task kind data program piped) (result : task.started between program piped = (next, after)) :
      Goes remoteMax task line (.recv choices) next after
  | refuses {choices : Choices} {kind : String} {wantReply : Bool} {data : Bytes} {rest : List ToTask} {between : Line}
      (waiting : task.phase = .waiting) (there : line.inbox = .request kind wantReply data :: rest)
      (minorly : Minorly { line with inbox := rest } between) :
      Goes remoteMax task line (.recv choices) { task with phase := .ended } (between.send .close)
  -- The channel is closed, or gone.
  | closed {choices : Choices} {rest : List ToTask} (idle : task.phase = .waiting ∨ task.phase = .pumping .select)
      (there : line.inbox = .close :: rest) :
      Goes remoteMax task line (.recv choices) { task with phase := .ended } { line with inbox := rest }
  | hungUp {choices : Choices} (idle : task.phase = .waiting ∨ task.phase = .pumping .select) (empty : line.inbox = [])
      (gone : line.hungUp = true) : Goes remoteMax task line (.recv choices) { task with phase := .ended } line
  -- Messages while the child runs.
  | takes {choices : Choices} {bytes : Bytes} {rest : List ToTask} (selecting : task.phase = .pumping .select)
      (there : line.inbox = .data bytes :: rest) :
      Goes remoteMax task line (.recv choices) { task with phase := .pumping (.writing false bytes bytes.length) }
        { line with inbox := rest }
  | drops {choices bytes rest between after next}
      (selecting : task.phase = .pumping .select) (there : line.inbox = .data bytes :: rest)
      (shut : (task.ptyOpen || task.stdinOpen) = false) (minorly : Minorly { line with inbox := rest } between)
      (result : task.pump between = (next, after)) : Goes remoteMax task line (.recv choices) next after
  | endsInput {choices : Choices} {rest : List ToTask} {after : Line} {next : Server}
      (selecting : task.phase = .pumping .select) (there : line.inbox = .eof :: rest)
      (result : pump { task with stdinOpen := task.stdinOpen && task.isPty } { line with inbox := rest } = (next, after)) :
      Goes remoteMax task line (.recv choices) next after
  | notes {choices : Choices} {message : ToTask} {rest : List ToTask} {between after : Line} {next : Server}
      (selecting : task.phase = .pumping .select) (there : line.inbox = message :: rest)
      (plain : message.message.payload = []) (open_ : message ≠ .close) (minorly : Minorly { line with inbox := rest } between)
      (result : task.pump between = (next, after)) : Goes remoteMax task line (.recv choices) next after
  -- Writes.
  | wroteEarly {left : Bytes} {count after next} (early : task.phase = .early left)
      (all : left.drop count = [])
      (result : settle { task with fed := task.fed ++ left.take count } line = (next, after)) :
      Goes remoteMax task line (.wrote count) next after
  | writesEarly {left : Bytes} {count} (early : task.phase = .early left) :
      Goes remoteMax task line (.wrote count)
        { task with fed := task.fed ++ left.take count, phase := .early (left.drop count) } line
  | wrote {err} {left : Bytes} {size count after next}
      (writing : task.phase = .pumping (.writing err left size)) (all : left.drop count = [])
      (result : pump { task with fed := task.fed ++ left.take count } (line.send (.consumed size)) = (next, after)) :
      Goes remoteMax task line (.wrote count) next after
  | writes {err} {left : Bytes} {size count} (writing : task.phase = .pumping (.writing err left size)) :
      Goes remoteMax task line (.wrote count)
        { task with fed := task.fed ++ left.take count, phase := .pumping (.writing err (left.drop count) size) } line
  | writeFails {before next : Server} {between after} (going : task.running = true) (minorly : Minorly line between)
      (result : before.pump between = (next, after)) : Goes remoteMax task line .writeFails next after
  -- What the child does.
  | readsOut {bytes} (selecting : task.phase = .pumping .select) (more : task.stdoutEof = false) :
      Goes remoteMax task line (.readOut bytes) { task with phase := .pumping (.sending none bytes) } line
  | readsErr {bytes} (selecting : task.phase = .pumping .select) :
      Goes remoteMax task line (.readErr bytes) { task with phase := .pumping (.sending (some stderr) bytes) } line
  | outEnds {after : Line} {next : Server} (selecting : task.phase = .pumping .select)
      (result : pump { task with stdoutEof := true } line = (next, after)) : Goes remoteMax task line .outEnds next after
  | errEnds {after : Line} {next : Server} (selecting : task.phase = .pumping .select)
      (result : pump { task with stderrEof := true } line = (next, after)) : Goes remoteMax task line .errEnds next after
  | exits {status after next} (selecting : task.phase = .pumping .select)
      (result : pump { task with exited := some status } line = (next, after)) :
      Goes remoteMax task line (.exits status) next after
  -- Chunks.
  | sent {ext} {left : Bytes} {credit} (sending : task.phase = .pumping (.sending ext left))
      (alive : line.gone = false) :
      Goes remoteMax task line .send
        { task with phase := .pumping (.sending ext (left.drop (min left.length remoteMax))) }
        { line with credit, cmds := line.cmds ++ [Line.chunk ext (left.take (min left.length remoteMax))] }
  | sentAll {ext} {left : Bytes} {credit next after}
      (sending : task.phase = .pumping (.sending ext left)) (alive : line.gone = false)
      (all : left.drop (min left.length remoteMax) = [])
      (result : task.pump { line with credit, cmds := line.cmds ++ [Line.chunk ext (left.take (min left.length remoteMax))] } =
        (next, after)) : Goes remoteMax task line .send next after
  | stays {ext left credit}
      (sending : task.phase = .pumping (.sending ext left)) :
      Goes remoteMax task line .send task { line with credit }
  | refused {ext left credit} (sending : task.phase = .pumping (.sending ext left))
      (shut : line.credit.closed = true ∨ line.gone = true) :
      Goes remoteMax task line .send { task with phase := .ended } { line with credit }

attribute [local grind intro] Goes

theorem launch_goes {spawned : Bool} {program : Program} {piped : Bool} (waiting : task.phase = .waiting)
    (there : line.inbox = .request kind wantReply data :: rest) (asked : Asked task kind data program piped)
    (result : task.launch { line with inbox := rest } wantReply spawned program piped = (next, after)) :
    Goes remoteMax task line (.recv choices) next after := by
  unfold launch at result
  split at result
  · exact .starts waiting there (.answer _ _ _) asked result
  · cases result
    exact .refuses waiting there (.answer _ _ _)

theorem request_goes (waiting : task.phase = .waiting) (there : line.inbox = .request kind wantReply data :: rest)
    (result : task.onRequest { line with inbox := rest } choices kind wantReply data = (next, after)) :
    Goes remoteMax task line (.recv choices) next after := by
  have passed {allocated agentFwd success : Bool}
      (result : ({ task with allocated, agentFwd }, answer { line with inbox := rest } wantReply success) = (next, after)) :
      Goes remoteMax task line (.recv choices) next after := by
    cases result
    exact .passes waiting there rfl (by simp) (.answer _ _ _)
  unfold onRequest at result
  split at result
  · exact passed result
  split at result
  · exact passed result
  split at result
  · exact passed result
  split at result
  · refine launch_goes waiting there ?_ result
    unfold programFor
    split <;> exact .shell
  split at result
  · rename_i asked
    split at result
    · exact passed result
    · rename_i able
      have free : task.forceCommand = none := by
        cases forced : task.forceCommand with
        | none => rfl
        | some command => exact absurd (.inl (by rw [forced]; rfl)) able
      have named : (Reader.utf8.parse data).toOption.getD "" = "sftp" := by
        by_contra other
        exact able (.inr (.inl other))
      exact launch_goes waiting there (.sftp asked free named) result
  · exact passed result

/-- A message before a program runs. -/
theorem early_goes (waiting : task.phase = .waiting)
    (took : line.recv = some (message, between)) (result : task.onEarly between choices message = (next, after)) :
    Goes remoteMax task line (.recv choices) next after := by
  obtain ⟨message, rest, there, rfl, rfl⟩ | ⟨empty, gone, rfl, rfl⟩ := recv_cases took
  · cases message with
    | data bytes =>
      cases result
      exact .gathers waiting there (.send (.consumed _) _)
    | eof =>
      cases result
      exact .endsEarly waiting there
    | close =>
      cases result
      exact .closed (.inl waiting) there
    | request kind wantReply data => exact request_goes waiting there result
    | reply | extData =>
      cases result
      exact @Goes.passes _ _ _ _ _ _ task.allocated task.agentFwd _ waiting there rfl (by simp) (.refl _)
  · cases result
    exact .hungUp (.inl waiting) empty gone

/-- A message while the child runs. -/
theorem message_goes (selecting : task.phase = .pumping .select) (took : line.recv = some (message, between))
    (result : task.onMessage between message = (next, after)) : Goes remoteMax task line (.recv choices) next after := by
  obtain ⟨message, rest, there, rfl, rfl⟩ | ⟨empty, gone, rfl, rfl⟩ := recv_cases took
  · cases message with
    | data bytes =>
      simp only [onMessage] at result
      split at result
      · cases result
        exact .takes selecting there
      · rename_i shut
        exact .drops selecting there ((Bool.not_eq_true _).mp shut) (.send (.consumed _) _) result
    | eof => exact .endsInput selecting there result
    | close =>
      cases result
      exact .closed (.inr selecting) there
    | request kind wantReply data =>
      exact .notes selecting there rfl (by simp) (.answer _ _ _) result
    | reply | extData => exact .notes selecting there rfl (by simp) (.refl _) result
  · cases result
    exact .hungUp (.inr selecting) empty gone

/-- One turn of sending. -/
theorem send_goes {ext : Option Nat} {left : Bytes} (sending : task.phase = .pumping (.sending ext left))
    (ran : task.step remoteMax line .send = some (next, after)) : Goes remoteMax task line .send next after := by
  simp only [step, sending] at ran
  rcases send_credited_cases line remoteMax ext left with
    ⟨_, _, alive, result⟩ | ⟨_, _, result⟩ | ⟨shut, result⟩ | ⟨dead, credit, _, _, result⟩
  · rw [result] at ran
    dsimp only at ran
    split at ran
    · rename_i all
      exact .sentAll sending alive all (Option.some.inj ran)
    · cases ran
      exact .sent sending alive
  · rw [result] at ran
    cases ran
    exact .stays sending
  · rw [result] at ran
    cases ran
    exact .refused sending (.inl shut)
  · rw [result] at ran
    cases ran
    exact .refused sending (.inr dead)

theorem step_goes (ran : task.step remoteMax line label = some (next, after)) :
    Goes remoteMax task line label next after := by
  cases label with
  | recv choices => grind [step, early_goes, message_goes]
  | writeFails =>
    have going := step_running ran
    simp only [step] at ran
    split at ran
    · exact .writeFails going (.refl _) (Option.some.inj ran)
    · exact .writeFails going (.send (.consumed _) _) (Option.some.inj ran)
    · cases ran
  | send =>
    cases sending : task.phase with
    | pumping work => cases work <;> grind [step, send_goes]
    | _ => grind [step]
  | _ => grind [step]

end Server

end Shh.Channels
