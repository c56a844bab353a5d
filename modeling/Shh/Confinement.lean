import Shh.Capacity

/-!
# What a forced command leaves to a session

A certificate may force a command on its user. Every session of the connection then runs
that command in the account's shell, whatever is asked for, and nothing else. Here the
commands that sessions start are spelled out, with their arguments and what is done to
their environment, and collected along the runs of a connection.

A process inherits the daemon's environment, which may name the operator's own agent. So
the variable is taken out first, and set again only for the listener of the very session.
-/

namespace Shh.Channels

open List Wire

/-- The account a session runs as. -/
structure Account where
  name : String
  home : String
  shell : String
deriving DecidableEq, Repr

/-- What the daemon finds around it: the account sessions run as, if one is known, its own
binary, its environment, and for every task the socket of its agent listener and the kind
of its terminal, if it gets them. -/
structure Host where
  account : Option Account
  exe : String
  inherited : String → Option String
  socket : Nat → String
  term : Nat → String

/-- A command to be started: its program, its arguments, and the changes to the environment
it inherits, in order. A variable is set, or taken out. -/
structure Command where
  program : String
  args : List String
  changes : List (String × Option String)
deriving DecidableEq, Repr

/-- The environment a command runs in. -/
def Command.environment (command : Command) (inherited : String → Option String) : String → Option String :=
  command.changes.foldl (fun env change => Function.update env change.1 change.2) inherited

def authSock : String := "SSH_AUTH_SOCK"

namespace Host

/-- The login shell: the account's when it is known. -/
def shell (host : Host) : String :=
  match host.account with
  | some account => account.shell
  | none => (host.inherited "SHELL").getD "/bin/sh"

/-- Only a forwarded agent is seen, and never the daemon's own. -/
def agentChanges (host : Host) (index : Nat) (agentFwd : Bool) : List (String × Option String) :=
  (authSock, none) :: if agentFwd then [(authSock, some (host.socket index))] else []

/-- What is set for every child: its terminal, if it has one, and its login. -/
def loginChanges (host : Host) (index : Nat) (pty : Bool) : List (String × Option String) :=
  (if pty then [("TERM", some (host.term index))] else []) ++
    match host.account with
    | some account =>
      [("HOME", some account.home), ("USER", some account.name), ("LOGNAME", some account.name),
        ("SHELL", some account.shell)]
    | none => []

end Host

namespace Server

/-- The command of an exec or a shell request. A forced command replaces what was asked
for, which is left in a variable. -/
def shellCommand (host : Host) (index : Nat) (task : Server) (requested : Option String) : Command where
  program := host.shell
  args :=
    match task.forceCommand with
    | some forced => ["-c", forced]
    | none => requested.elim [] fun line => ["-c", line]
  changes :=
    (match task.forceCommand, requested with
      | some _, some original => [("SSH_ORIGINAL_COMMAND", some original)]
      | _, _ => []) ++
    host.agentChanges index task.agentFwd ++ host.loginChanges index task.allocated

/-- The command of the sftp subsystem, which has no terminal. -/
def sftpCommand (host : Host) (index : Nat) (task : Server) : Command where
  program := host.exe
  args := ["--internal-sftp"]
  changes := host.agentChanges index task.agentFwd ++ host.loginChanges index false

/-- The command that a request starts, if it starts one. -/
def requestStarts (host : Host) (index : Nat) (task : Server) (choices : Choices) (kind : String) (data : Bytes) :
    Option Command :=
  if choices.spawn then
    if kind = "exec" ∨ kind = "shell" then
      some (task.shellCommand host index
        (if kind = "exec" then some ((Reader.utf8.parse data).toOption.getD "") else none))
    else if kind = "subsystem" ∧ task.forceCommand = none ∧ (Reader.utf8.parse data).toOption.getD "" = "sftp" ∧
        choices.exe = true then
      some (task.sftpCommand host index)
    else none
  else none

/-- The command that a step starts. Only the first phase starts any. -/
def starts (host : Host) (index : Nat) (task : Server) (line : Line) : Label → Option Command
  | .recv choices =>
    match task.phase, line.recv with
    | .waiting, some (some (.request kind _ data), _) => task.requestStarts host index choices kind data
    | _, _ => none
  | _ => none

/-- The program of the model that a command stands for. -/
def Runs (host : Host) (index : Nat) (task : Server) (command : Command) : Program → Prop
  | .shell line original =>
    command.program = host.shell ∧ command.args = line.elim [] (fun line => ["-c", line]) ∧
      (∀ text, original = some text → ("SSH_ORIGINAL_COMMAND", some text) ∈ command.changes)
  | .sftp => command = task.sftpCommand host index

variable {host : Host} {index remoteMax : Nat} {task next : Server} {line after : Line} {label : Label}

/-- What a session was given, what it has started, and its agent listener are as before. -/
structure Kept (task next : Server) : Prop where
  forceCommand : next.forceCommand = task.forceCommand
  permitAgent : next.permitAgent = task.permitAgent
  program : next.program = task.program
  agentFwd : next.agentFwd = task.agentFwd
  started : next.phase ≠ .waiting

theorem pump_kept (task : Server) (line : Line) : Kept task (task.pump line).1 := by
  unfold pump
  split <;> exact ⟨rfl, rfl, rfl, rfl, nofun⟩

theorem settle_kept (task : Server) (line : Line) : Kept task (task.settle line).1 := by
  have pumped := pump_kept
    { task with stdinOpen := task.stdinOpen && !(task.stdinEof && !task.isPty), earlyStdin := [] } line
  exact ⟨pumped.forceCommand, pumped.permitAgent, pumped.program, pumped.agentFwd, pumped.started⟩

theorem on_message_kept (task : Server) (line : Line) (message : Option ToTask) :
    Kept task (task.onMessage line message).1 := by
  rcases message with _ | message
  · exact ⟨rfl, rfl, rfl, rfl, by rintro ⟨⟩⟩
  cases message with
  | data bytes =>
    simp only [onMessage]
    split
    · exact ⟨rfl, rfl, rfl, rfl, by rintro ⟨⟩⟩
    · exact pump_kept _ _
  | eof =>
    have pumped := pump_kept { task with stdinOpen := task.stdinOpen && task.isPty } line
    exact ⟨pumped.forceCommand, pumped.permitAgent, pumped.program, pumped.agentFwd, pumped.started⟩
  | close => exact ⟨rfl, rfl, rfl, rfl, by rintro ⟨⟩⟩
  | extData | request | reply => exact pump_kept _ _

/-- Once a program was started, or none will be, nothing is started any more. -/
theorem step_kept (busy : task.phase ≠ .waiting) (ran : task.step remoteMax line label = some (next, after)) :
    Kept task next := by
  cases label with
  | recv choices => grind [step, on_message_kept]
  | wrote count => grind [step, pump_kept, settle_kept, Kept]
  | writeFails => grind [step, pump_kept, settle_kept, Kept, stopFeeding]
  | readOut | readErr => grind [step, Kept]
  | outEnds | errEnds | exits | send => grind [step, pump_kept, Kept]

/-- What a step does to a session, with the command it starts, if it starts one. -/
structure Advances (host : Host) (index : Nat) (task next : Server) (start : Option Command) : Prop where
  forceCommand : next.forceCommand = task.forceCommand
  permitAgent : next.permitAgent = task.permitAgent
  agentFwd : next.agentFwd = true → task.agentFwd = true ∨ task.permitAgent = true
  idle : start = none → next.program = task.program
  begins : ∀ command, start = some command → task.phase = .waiting ∧ next.phase ≠ .waiting ∧
    ∃ program, next.program = some program ∧ Runs host index task command program

/-- A child that was started: what it runs is noted, and no request is taken any more. -/
theorem launch_cases {spawned wantReply piped program}
    (result : task.launch line wantReply spawned program piped = (next, after)) :
    next.forceCommand = task.forceCommand ∧ next.permitAgent = task.permitAgent ∧ next.agentFwd = task.agentFwd ∧
      next.phase ≠ .waiting ∧ next.program = if spawned then some program else task.program := by
  unfold launch at result
  split at result
  · rename_i spawned
    simp only [started] at result
    rw [if_pos spawned]
    split at result
    · cases result
      exact ⟨rfl, rfl, rfl, nofun, rfl⟩
    · have kept := settle_kept { task with
        program := some program, stdinOpen := piped, isPty := task.allocated, ptyOpen := task.allocated,
        stderrEof := task.allocated } (answer line wantReply true)
      rw [result] at kept
      exact ⟨kept.forceCommand, kept.permitAgent, kept.agentFwd, kept.started, kept.program⟩
  · rename_i failed
    cases result
    exact ⟨rfl, rfl, rfl, nofun, by rw [if_neg failed]⟩

theorem shell_command_runs (host : Host) (index : Nat) (task : Server) (requested : Option String) :
    Runs host index task (task.shellCommand host index requested) (programFor task.forceCommand requested) := by
  unfold programFor shellCommand
  cases task.forceCommand with
  | some forced =>
    refine ⟨rfl, rfl, ?_⟩
    rintro text rfl
    exact mem_append_left _ (mem_append_left _ (mem_singleton.mpr rfl))
  | none => exact ⟨rfl, rfl, nofun⟩

theorem on_request_advances {choices kind wantReply data}
    (waiting : task.phase = .waiting) (result : task.onRequest line choices kind wantReply data = (next, after)) :
    Advances host index task next (task.requestStarts host index choices kind data) := by
  -- A request that launches something starts exactly what it launches.
  have launches {program command piped}
      (launched : task.launch line wantReply choices.spawn program piped = (next, after))
      (runs : Runs host index task command program)
      (start : task.requestStarts host index choices kind data = if choices.spawn then some command else none) :
      Advances host index task next (task.requestStarts host index choices kind data) := by
    obtain ⟨forced, permitted, agent, moved, program_⟩ := launch_cases launched
    refine ⟨forced, permitted, fun forwards => .inl (agent ▸ forwards), ?_, ?_⟩
    · intro idle
      rw [start] at idle
      split at idle
      · cases idle
      · rename_i failed
        rw [program_, if_neg failed]
    · intro other begun
      rw [start] at begun
      split at begun
      · rename_i spawned
        cases begun
        exact ⟨waiting, moved, program, by rw [program_, if_pos spawned], runs⟩
      · cases begun
  -- Any other leaves the program alone, and has no agent without a permit.
  have stays (none_ : task.requestStarts host index choices kind data = none)
      (forced : next.forceCommand = task.forceCommand) (permitted : next.permitAgent = task.permitAgent)
      (agent : next.agentFwd = true → task.agentFwd = true ∨ task.permitAgent = true)
      (program : next.program = task.program) :
      Advances host index task next (task.requestStarts host index choices kind data) :=
    ⟨forced, permitted, agent, fun _ => program, fun command begun => absurd (none_.symm.trans begun) nofun⟩
  have quiet (first : ¬(kind = "exec" ∨ kind = "shell")) (second : kind ≠ "subsystem") :
      task.requestStarts host index choices kind data = none := by
    simp only [requestStarts, if_neg first, second, false_and, if_false, ite_self]
  unfold onRequest at result
  by_cases pty : kind = "pty-req"
  · rw [if_pos pty] at result
    cases result
    exact stays (quiet (by rw [pty]; decide) (by rw [pty]; decide)) rfl rfl .inl rfl
  rw [if_neg pty] at result
  by_cases resize : kind = "window-change"
  · rw [if_pos resize] at result
    cases result
    exact stays (quiet (by rw [resize]; decide) (by rw [resize]; decide)) rfl rfl .inl rfl
  rw [if_neg resize] at result
  by_cases agent : kind = "auth-agent-req@openssh.com"
  · rw [if_pos agent] at result
    cases result
    refine stays (quiet (by rw [agent]; decide) (by rw [agent]; decide)) rfl rfl (fun forwards => .inr ?_) rfl
    exact ((Bool.and_eq_true _ _).mp forwards).1
  rw [if_neg agent] at result
  by_cases command : kind = "exec" ∨ kind = "shell"
  · rw [if_pos command] at result
    exact launches result (shell_command_runs host index task _) (by simp only [requestStarts, if_pos command])
  rw [if_neg command] at result
  by_cases subsystem : kind = "subsystem"
  · rw [if_pos subsystem] at result
    split at result
    · rename_i refused
      cases result
      refine stays ?_ rfl rfl .inl rfl
      have unmet : ¬(kind = "subsystem" ∧ task.forceCommand = none ∧
          (Reader.utf8.parse data).toOption.getD "" = "sftp" ∧ choices.exe = true) := by
        rintro ⟨_, unforced, named, found⟩
        rcases refused with forced | other | missing
        · rw [unforced] at forced
          cases forced
        · exact other named
        · cases missing.symm.trans found
      simp only [requestStarts, if_neg command, if_neg unmet, ite_self]
    · rename_i granted
      have met : kind = "subsystem" ∧ task.forceCommand = none ∧
          (Reader.utf8.parse data).toOption.getD "" = "sftp" ∧ choices.exe = true := by
        simp only [not_or, Option.not_isSome_iff_eq_none, not_not, Bool.not_eq_false] at granted
        exact ⟨subsystem, granted⟩
      refine @launches .sftp (task.sftpCommand host index) true result rfl ?_
      simp only [requestStarts, if_neg command, if_pos met]
  · rw [if_neg subsystem] at result
    cases result
    exact stays (quiet command subsystem) rfl rfl .inl rfl

/-- Every step of a session advances it by what it starts. -/
theorem step_advances (ran : task.step remoteMax line label = some (next, after)) :
    Advances host index task next (task.starts host index line label) := by
  by_cases waiting : task.phase = .waiting
  · cases label with
    | recv choices =>
      simp only [step, waiting] at ran
      split at ran
      · cases ran
      · rename_i message between received
        simp only [starts, waiting, received]
        have result := Option.some.inj ran
        have stays (forced : next.forceCommand = task.forceCommand) (permitted : next.permitAgent = task.permitAgent)
            (agent : next.agentFwd = task.agentFwd) (program : next.program = task.program) :
            Advances host index task next none :=
          ⟨forced, permitted, fun forwards => .inl (agent ▸ forwards), fun _ => program, by simp⟩
        rcases message with _ | message
        · cases result
          exact stays rfl rfl rfl rfl
        · cases message with
          | request kind wantReply data => exact on_request_advances waiting result
          | data | eof | close | extData | reply =>
            cases result
            exact stays rfl rfl rfl rfl
    | _ =>
      simp only [step, waiting] at ran
      cases ran
  · have kept := step_kept waiting ran
    have nothing : task.starts host index line label = none := by
      cases label with
      | recv choices =>
        simp only [starts]
        split
        · rename_i phase _
          exact absurd phase waiting
        · rfl
      | _ => rfl
    rw [nothing]
    exact ⟨kept.forceCommand, kept.permitAgent, fun forwards => .inl (kept.agentFwd ▸ forwards),
      fun _ => kept.program, by simp⟩

/-- Under a forced command only the shell is started. -/
theorem starts_forced {forced command} (given : task.forceCommand = some forced)
    (begun : task.starts host index line label = some command) :
    ∃ requested, command = task.shellCommand host index requested := by
  cases label with
  | recv choices =>
    simp only [starts] at begun
    split at begun
    · simp only [requestStarts] at begun
      split at begun
      · split at begun
        · exact ⟨_, (Option.some.inj begun).symm⟩
        · rw [given] at begun
          simp at begun
      · cases begun
    · cases begun
  | _ => cases begun

/-- What the head of the pump asks for grants nothing. -/
theorem pump_says (task : Server) (line : Line) :
    ∃ more, (task.pump line).2.cmds = line.cmds ++ more ∧ .reply true ∉ more := by
  unfold pump
  split
  · rename_i status _ _
    cases alive : line.gone with
    | true =>
      refine ⟨[], ?_, not_mem_nil⟩
      simp only [Line.send, alive, if_true, append_nil]
    | false =>
      refine ⟨[exitRequest status, .eof, .close], ?_, ?_⟩
      · simp [Line.send, alive]
      · cases status <;> simp [exitRequest]
  · exact ⟨[], (append_nil _).symm, not_mem_nil⟩

/-- A request for a subsystem starts nothing under a forced command, and is not granted. -/
theorem subsystem_refused {forced choices wantReply data rest}
    (given : task.forceCommand = some forced) (there : line.inbox = .request "subsystem" wantReply data :: rest)
    (ran : task.step remoteMax line (.recv choices) = some (next, after)) :
    task.starts host index line (.recv choices) = none ∧
      ∃ more, after.cmds = (answer line wantReply false).cmds ++ more ∧ .reply true ∉ more := by
  have received : line.recv = some (some (.request "subsystem" wantReply data), { line with inbox := rest }) := by
    simp only [Line.recv, there]
  have answered : (answer { line with inbox := rest } wantReply false).cmds = (answer line wantReply false).cmds := by
    unfold answer Line.send
    split
    · split <;> rfl
    · rfl
  refine ⟨?_, ?_⟩
  · simp only [starts, received]
    split
    · rename_i same
      cases same
      simp [requestStarts, given]
    · rfl
  · simp only [step, received] at ran
    split at ran
    · have refused : task.onEarly { line with inbox := rest } choices (some (.request "subsystem" wantReply data)) =
          (task, answer { line with inbox := rest } wantReply false) := by
        simp [onEarly, onRequest, given]
      rw [refused] at ran
      cases ran
      exact ⟨[], by rw [answered, append_nil], not_mem_nil⟩
    · have result := Option.some.inj ran
      simp only [onMessage] at result
      obtain ⟨more, said, ungranted⟩ := pump_says task (answer { line with inbox := rest } wantReply false)
      refine ⟨more, ?_, ungranted⟩
      rw [← answered, ← said]
      exact congrArg (fun pair => pair.2.cmds) result.symm
    · cases ran

end Server

section Environment

/-- Changes of other variables leave this one. -/
theorem environment_untouched {changes : List (String × Option String)} {name}
    (others : ∀ change ∈ changes, change.1 ≠ name) (env : String → Option String) :
    changes.foldl (fun env change => Function.update env change.1 change.2) env name = env name := by
  induction changes generalizing env with
  | nil => rfl
  | cons change rest ih =>
    have first : name ≠ change.1 := (others change mem_cons_self).symm
    rw [foldl_cons, ih fun other member => others other (mem_cons_of_mem _ member)]
    exact Function.update_of_ne first _ _

theorem login_changes_others (host : Host) (index : Nat) (pty : Bool) :
    ∀ change ∈ host.loginChanges index pty, change.1 ≠ authSock := by
  intro change member
  unfold Host.loginChanges at member
  rcases mem_append.mp member with terminal | login
  · split at terminal
    · rw [mem_singleton.mp terminal]
      exact (by decide : "TERM" ≠ authSock)
    · exact absurd terminal not_mem_nil
  · split at login
    · simp only [mem_cons, not_mem_nil, or_false] at login
      rcases login with rfl | rfl | rfl | rfl
      · exact (by decide : "HOME" ≠ authSock)
      · exact (by decide : "USER" ≠ authSock)
      · exact (by decide : "LOGNAME" ≠ authSock)
      · exact (by decide : "SHELL" ≠ authSock)
    · exact absurd login not_mem_nil

/-- The child of a session sees its own listener, or no agent at all. -/
theorem shell_command_agent (host : Host) (index : Nat) (task : Server) (requested : Option String)
    (inherited : String → Option String) :
    (task.shellCommand host index requested).environment inherited authSock =
      if task.agentFwd then some (host.socket index) else none := by
  simp only [Command.environment, Server.shellCommand, foldl_append]
  rw [environment_untouched (login_changes_others host index task.allocated)]
  cases task.agentFwd with
  | true => simp only [Host.agentChanges, if_true, foldl_cons, foldl_nil, Function.update_self]
  | false =>
    simp only [Host.agentChanges, Bool.false_eq_true, if_false, foldl_cons, foldl_nil, Function.update_self]

end Environment

end Shh.Channels

namespace Shh.Connections

open List Wire Channels Runs Computations Connection

variable {config : Config} {conn next later : Connection} {payload : Bytes} {event : Event} {host : Channels.Host}

section Tasks

/-- A task as the loop starts it. -/
inductive StartedFor (config : Config) : Task → Prop where
  | forward : StartedFor config (.forward .start)
  | client (spec : SessionSpec) (resizing : Bool) : StartedFor config (.client (.make spec resizing))
  | server : StartedFor config (.server (.make config.permitAgent config.forceCommand))

/-- The tasks are those that were there, and new ones after them. -/
structure TasksFrom (config : Config) (conn next : Connection) : Prop where
  grows : conn.workers.length ≤ next.workers.length
  each : ∀ (index : Nat) (worker : Worker), next.workers[index]? = some worker →
    (∃ old : Worker, conn.workers[index]? = some old ∧ worker.task = old.task) ∨
      (conn.workers[index]? = none ∧ StartedFor config worker.task)

/-- The tasks are the same, at the same places. -/
structure SameTasks (conn next : Connection) : Prop where
  size : next.workers.length = conn.workers.length
  each : ∀ (index : Nat) (worker : Worker), next.workers[index]? = some worker →
    ∃ old : Worker, conn.workers[index]? = some old ∧ worker.task = old.task

theorem same_tasks_of_eq (same : next.workers = conn.workers) : SameTasks conn next :=
  ⟨congrArg List.length same, fun _ worker there => ⟨worker, same ▸ there, rfl⟩⟩

theorem TasksFrom.refl (config : Config) (conn : Connection) : TasksFrom config conn conn :=
  ⟨Nat.le_refl _, fun _ worker there => .inl ⟨worker, there, rfl⟩⟩

theorem TasksFrom.keep (tasks : TasksFrom config conn next) (same : SameTasks next later) :
    TasksFrom config conn later := by
  refine ⟨Nat.le_trans tasks.grows (Nat.le_of_eq same.size.symm), ?_⟩
  intro index worker there
  obtain ⟨between, found, alike⟩ := same.each index worker there
  rcases tasks.each index between found with ⟨old, before, kept⟩ | ⟨fresh, started⟩
  · exact .inl ⟨old, before, alike.trans kept⟩
  · exact .inr ⟨fresh, alike ▸ started⟩

theorem fallen_same_tasks (conn : Connection) : SameTasks conn conn.fallen := by
  refine ⟨length_mapIdx, ?_⟩
  intro index worker there
  simp only [fallen, List.getElem?_mapIdx] at there
  obtain ⟨old, found, rfl⟩ := Option.map_eq_some_iff.mp there
  refine ⟨old, found, ?_⟩
  split <;> rfl

/-- A change of a line leaves the tasks. -/
theorem modify_same_tasks {place} {change : Worker → Worker} (changed : next.workers = conn.workers.modify place change)
    (alike : ∀ worker, (change worker).task = worker.task) : SameTasks conn next := by
  refine ⟨by rw [changed, length_modify], ?_⟩
  intro index worker there
  rw [changed, List.getElem?_modify] at there
  obtain ⟨old, found, rfl⟩ := Option.map_eq_some_iff.mp there
  refine ⟨old, found, ?_⟩
  split
  · exact alike old
  · rfl

theorem apply_same_tasks (conn : Connection) (id : Nat) (entry : Entry) (turn : Turn) :
    SameTasks conn (conn.apply id entry turn) := modify_same_tasks rfl fun _ => rfl

/-- One more task after those that were there. -/
theorem TasksFrom.append {fresh : Worker} (same : SameTasks conn next) (started : StartedFor config fresh.task)
    (grown : later.workers = next.workers ++ [fresh]) : TasksFrom config conn later := by
  refine ⟨by rw [grown, length_append, same.size]; exact Nat.le_add_right _ _, ?_⟩
  intro index worker there
  rw [grown] at there
  rcases Nat.lt_or_ge index next.workers.length with before | after
  · rw [List.getElem?_append_left before] at there
    exact .inl (same.each index worker there)
  · rw [List.getElem?_append_right after] at there
    obtain rfl := mem_singleton.mp (mem_of_getElem? there)
    exact .inr ⟨List.getElem?_eq_none (same.size ▸ after), started⟩

theorem spawn_tasks {before : Connection} {id peer window max task endOnClose}
    (same : before.workers = conn.workers) (started : StartedFor config task) :
    TasksFrom config conn (before.spawn config id peer window max task endOnClose) := by
  cases found : before.channels.lookup id with
  | none =>
    have grown : (before.spawn config id peer window max task endOnClose).workers =
        conn.workers ++ [⟨id, task, .make config.platform window, Nat.max 1 (min max maxChunk)⟩] := by
      simp only [spawn, found, same]
    exact .append (same_tasks_of_eq rfl) started grown
  | some lost =>
    -- The task that lost its channel keeps its place.
    let workers := conn.workers.modify lost.worker fun worker =>
      { worker with line := { worker.line with hungUp := true } }
    have hushed : SameTasks conn { conn with workers } := modify_same_tasks rfl fun _ => rfl
    have grown : (before.spawn config id peer window max task endOnClose).workers =
        workers ++ [⟨id, task, .make config.platform window, Nat.max 1 (min max maxChunk)⟩] := by
      simp only [spawn, found, same]
      rfl
    exact .append hushed started grown

theorem handled_tasks (handled : Handled config conn payload next) : TasksFrom config conn next := by
  have kept {next : Connection} (same : next.workers = conn.workers) : TasksFrom config conn next :=
    (TasksFrom.refl config conn).keep (same_tasks_of_eq same)
  cases handled with
  | aside same => exact kept same.workers
  | serves asked => exact spawn_tasks rfl .server
  | dials | declined | replied | grants => exact kept rfl
  | confirmed confirms asked kind read =>
    rcases kind with rfl | ⟨spec, resizing, rfl⟩
    · exact spawn_tasks rfl .forward
    · exact spawn_tasks rfl (.client spec resizing)
  | heard read there ok => exact (TasksFrom.refl config conn).keep (apply_same_tasks _ _ _ _)
  | bound same permitted => exact kept same.workers
  | unbound found same => exact kept same.workers

theorem order_tasks (conn : Connection) (order : Order) : TasksFrom config conn (conn.onOrder config order) := by
  have kept {next : Connection} (same : next.workers = conn.workers) : TasksFrom config conn next :=
    (TasksFrom.refl config conn).keep (same_tasks_of_eq same)
  cases order with
  | openTunnel | openSession =>
    simp only [onOrder]
    split <;> exact kept rfl
  | remoteForward bind port targetHost targetPort => exact kept rfl
  | connected peerId peerWindow peerMax result =>
    cases result with
    | ok => exact spawn_tasks rfl .forward
    | error reason => exact kept rfl
  | channel id cmd =>
    simp only [onOrder]
    split
    · exact kept rfl
    · exact (TasksFrom.refl config conn).keep (apply_same_tasks _ _ _ _)

/-- Tasks move on only by their own steps. -/
theorem step_tasks (ran : conn.step config event = some next) (still : ∀ index label, event ≠ .act index label) :
    TasksFrom config conn next := by
  have kept {next : Connection} (same : next.workers = conn.workers) : TasksFrom config conn next :=
    (TasksFrom.refl config conn).keep (same_tasks_of_eq same)
  refine step_keeps _ (fun next tasks => tasks.keep (fallen_same_tasks next)) (fun after moves => ?_) ran
  cases moves with
  | packet running ok =>
    have tasks := handled_tasks (packet_handled ok)
    exact { tasks with }
  | @order order rest queued =>
    have tasks := @order_tasks config { conn with orders := rest } order
    exact { tasks with }
  | tick running ok => rcases tick_ok ok with same | same <;> exact kept same.workers
  | broken | silent | fall | submit | dialEnds => exact kept rfl
  | act => exact absurd rfl (still _ _)

end Tasks

section Hosted

/-- The commands that an event starts, each with the task that starts it. -/
def Connection.starts (host : Channels.Host) (conn : Connection) : Event → List (Nat × Command)
  | .act index (.server label) =>
    match conn.workers[index]? with
    | some worker =>
      match worker.task with
      | .server task => (task.starts host index worker.line label).toList.map fun command => (index, command)
      | _ => []
    | none => []
  | _ => []

/-- A connection on a host, with the commands its tasks have started, oldest first. -/
def hosted (host : Channels.Host) (config : Config) (place : Connection × List (Nat × Command)) (event : Event) :
    Option (Connection × List (Nat × Command)) :=
  (place.1.step config event).map fun next => (next, place.2 ++ place.1.starts host event)

/-- The commands of one task. -/
def ofTask (log : List (Nat × Command)) (index : Nat) : List Command :=
  (log.filter fun entry => entry.1 = index).map Prod.snd

/-- What a forced command lets a session start: the command in the account's shell, with the
session's own agent listener or no agent. -/
structure Forced (host : Channels.Host) (permitAgent : Bool) (forced : String) (index : Nat)
    (command : Command) : Prop where
  program : command.program = host.shell
  args : command.args = ["-c", forced]
  agent : command.environment host.inherited authSock = none ∨
    command.environment host.inherited authSock = some (host.socket index) ∧ permitAgent = true

/-- What a session has, and what it has started. -/
structure Session (config : Config) (commands : List Command) (task : Server) : Prop where
  forceCommand : task.forceCommand = config.forceCommand
  permitAgent : task.permitAgent = config.permitAgent
  agentFwd : task.agentFwd = true → config.permitAgent = true
  waiting : task.phase = .waiting → commands = []
  known : task.program ≠ none → commands ≠ []

/-- The sessions of a connection, and what they have started. -/
structure Confined (config : Config) (host : Channels.Host) (forced : String) (conn : Connection)
    (log : List (Nat × Command)) : Prop where
  unborn : ∀ index, conn.workers.length ≤ index → ofTask log index = []
  sessions : ∀ (index : Nat) (worker : Worker) (task : Server), conn.workers[index]? = some worker →
    worker.task = .server task → Session config (ofTask log index) task
  single : ∀ index, (ofTask log index).length ≤ 1
  shape : ∀ index command, command ∈ ofTask log index → Forced host config.permitAgent forced index command

theorem of_task_append (first second : List (Nat × Command)) (index : Nat) :
    ofTask (first ++ second) index = ofTask first index ++ ofTask second index := by
  simp [ofTask]

theorem of_task_own (commands : List Command) (index other : Nat) :
    ofTask (commands.map fun command => (index, command)) other = if index = other then commands else [] := by
  by_cases same : index = other
  all_goals simp [ofTask, filter_map, Function.comp_def, same]

/-- A session that has just been opened. -/
theorem Session.fresh {task} (started : StartedFor config (.server task)) : Session config [] task := by
  cases started with
  | server => exact ⟨rfl, rfl, fun forwards => absurd forwards Bool.false_ne_true, fun _ => rfl,
    fun program => absurd rfl program⟩

/-- A session's own step: what it starts is added to its commands. -/
theorem Session.steps {task after : Server} {line later label remoteMax index}
    {commands : List Command} (session : Session config commands task)
    (ran : task.step remoteMax line label = some (after, later)) :
    Session config (commands ++ (task.starts host index line label).toList) after := by
  have advances := @Server.step_advances host index _ _ _ _ _ _ ran
  refine ⟨advances.forceCommand.trans session.forceCommand, advances.permitAgent.trans session.permitAgent, ?_, ?_, ?_⟩
  · intro forwards
    rcases advances.agentFwd forwards with before | permitted
    · exact session.agentFwd before
    · exact session.permitAgent ▸ permitted
  · intro waits
    have waited : task.phase = .waiting := by
      by_contra busy
      exact (Server.step_kept busy ran).started waits
    have idle : task.starts host index line label = none := by
      cases begun : task.starts host index line label with
      | none => rfl
      | some command => exact absurd waits (advances.begins command begun).2.1
    rw [idle, session.waiting waited]
    rfl
  · intro program
    cases begun : task.starts host index line label with
    | none =>
      have before := session.known (advances.idle begun ▸ program)
      simpa using before
    | some command => simp

/-- A forced command is all that a session starts, and it starts it once. -/
theorem Session.forced {forced} {task : Server} {line label index command commands}
    (given : config.forceCommand = some forced)
    (session : Session config commands task) (begun : task.starts host index line label = some command) :
    Forced host config.permitAgent forced index command := by
  have own : task.forceCommand = some forced := session.forceCommand.trans given
  obtain ⟨requested, rfl⟩ := Server.starts_forced own begun
  refine ⟨rfl, by simp only [Server.shellCommand, own], ?_⟩
  rw [shell_command_agent]
  split
  · rename_i forwards
    exact .inr ⟨rfl, session.agentFwd forwards⟩
  · exact .inl rfl

theorem confined_still {forced log} (ran : conn.step config event = some next)
    (still : ∀ index label, event ≠ .act index label) (confined : Confined config host forced conn log) :
    Confined config host forced next log := by
  have tasks := step_tasks ran still
  refine ⟨fun index beyond => confined.unborn index (Nat.le_trans tasks.grows beyond), ?_,
    confined.single, confined.shape⟩
  intro index worker task there kind
  rcases tasks.each index worker there with ⟨old, before, same⟩ | ⟨absent, started⟩
  · exact confined.sessions index old task before (same.symm.trans kind)
  · rw [confined.unborn index (List.getElem?_eq_none_iff.mp absent)]
    exact .fresh (kind ▸ started)

theorem confined_act {forced} {log : List (Nat × Command)} {index label}
    (given : config.forceCommand = some forced) (ran : conn.act index label = some next)
    (confined : Confined config host forced conn log) :
    Confined config host forced next (log ++ conn.starts host (.act index label)) := by
  obtain ⟨worker, task, line, there, moved, rfl⟩ := act_some ran
  obtain ⟨inside, _⟩ := List.getElem?_eq_some_iff.mp there
  -- The other tasks stay as they are, and so do their commands.
  have others {position other} (apart : index ≠ position)
      (at_ : (conn.workers.set index { worker with task, line := { line with cmds := [] } })[position]? = some other) :
      conn.workers[position]? = some other := by
    rwa [List.getElem?_set_ne apart] at at_
  have self {other : Worker}
      (at_ : (conn.workers.set index { worker with task, line := { line with cmds := [] } })[index]? = some other) :
      other.task = task := by
    rw [List.getElem?_set_self inside] at at_
    cases at_
    rfl
  -- A task of another kind starts nothing.
  have quiet (none_ : conn.starts host (.act index label) = []) (kind : ∀ server, task ≠ .server server) :
      Confined config host forced { conn with
        orders := conn.orders ++ line.cmds.map (.channel worker.id)
        workers := conn.workers.set index { worker with task, line := { line with cmds := [] } } }
      (log ++ conn.starts host (.act index label)) := by
    rw [none_, append_nil]
    refine ⟨fun position beyond => confined.unborn position (by rwa [length_set] at beyond), ?_, confined.single,
      confined.shape⟩
    intro position other server at_ served
    by_cases apart : index = position
    · subst apart
      exact absurd ((self at_).symm.trans served) (kind server)
    · exact confined.sessions position other server (others apart at_) served
  obtain ⟨_, _, _, _, _, rfl, rfl⟩ | ⟨_, _, _, _, _, rfl, rfl⟩ | ⟨mine, cause, result, kind, stepped, rfl, rfl⟩ :=
    Task.step_cases moved
  · exact quiet rfl fun _ same => by cases same
  · exact quiet rfl fun _ same => by cases same
  · have session := confined.sessions index worker mine there kind
    have started : conn.starts host (.act index (.server cause)) =
        (mine.starts host index worker.line cause).toList.map fun command => (index, command) := by
      simp only [Connection.starts, there, kind]
    have own (position : Nat) : ofTask (log ++ conn.starts host (.act index (.server cause))) position =
        ofTask log position ++ if index = position then (mine.starts host index worker.line cause).toList else [] := by
      rw [started, of_task_append, of_task_own]
    refine ⟨?_, ?_, ?_, ?_⟩
    · intro position beyond
      rw [length_set] at beyond
      rw [own, confined.unborn position beyond, if_neg (by omega)]
      rfl
    · intro position other server at_ served
      rw [own]
      by_cases apart : index = position
      · subst apart
        rw [if_pos rfl]
        obtain rfl := Task.server.inj ((self at_).symm.trans served)
        exact session.steps stepped
      · rw [if_neg apart, append_nil]
        exact confined.sessions position other server (others apart at_) served
    · intro position
      rw [own]
      by_cases apart : index = position
      · subst apart
        rw [if_pos rfl]
        cases begun : mine.starts host index worker.line cause with
        | none => simpa using confined.single index
        | some command =>
          have waited := ((@Server.step_advances host index _ _ _ _ _ _ stepped).begins command begun).1
          rw [session.waiting waited]
          exact Nat.le_refl 1
      · rw [if_neg apart, append_nil]
        exact confined.single position
    · intro position command member
      rw [own] at member
      rcases mem_append.mp member with before | new
      · exact confined.shape position command before
      · split at new
        · rename_i same
          subst same
          exact session.forced given (Option.mem_toList.mp new)
        · exact absurd new not_mem_nil

theorem confined_step {forced log after} (given : config.forceCommand = some forced)
    (ran : hosted host config (conn, log) event = some (next, after))
    (confined : Confined config host forced conn log) :
    Confined config host forced next after := by
  obtain ⟨moved, stepped, same⟩ := Option.map_eq_some_iff.mp ran
  cases same
  cases event with
  | act index label => exact confined_act given stepped confined
  | packet | order | tick | fall | submit | dialEnds =>
    have still := confined_still stepped nofun confined
    rw [← append_nil log] at still
    exact still

/-- Under a forced command every session starts at most one process, which is the command
in the account's shell. It sees the session's own agent listener or no agent, and there is a
listener only if agents may be forwarded. No subsystem is granted. -/
theorem forced_command_confines {forced : String} {events : List Event} {log : List (Nat × Command)}
    (given : config.forceCommand = some forced) (path : Path (hosted host config) (.start, []) events (conn, log)) :
    (∀ index, (ofTask log index).length ≤ 1) ∧
      (∀ index command, command ∈ ofTask log index → command.program = host.shell ∧ command.args = ["-c", forced] ∧
        (command.environment host.inherited authSock = none ∨
          command.environment host.inherited authSock = some (host.socket index) ∧ config.permitAgent = true)) ∧
      ∀ (index : Nat) (worker : Worker) (task : Server), conn.workers[index]? = some worker →
        worker.task = .server task →
        (task.program ≠ none → ofTask log index ≠ []) ∧ (task.agentFwd = true → config.permitAgent = true) ∧
        ∀ choices wantReply data rest, worker.line.inbox = .request "subsystem" wantReply data :: rest →
          ∀ next, conn.step config (.act index (.server (.recv choices))) = some next →
            conn.starts host (.act index (.server (.recv choices))) = [] ∧
            ∃ more, next.orders = conn.orders ++
              ((Server.answer worker.line wantReply false).cmds ++ more).map (.channel worker.id) ∧
              .reply true ∉ more := by
  have confined : Confined config host forced conn log := by
    refine path_invariant (fun _ place => Confined config host forced place.1 place.2) ?_ ?_ path
    · refine ⟨fun _ _ => rfl, ?_, fun _ => Nat.zero_le _, nofun⟩
      intro index worker task there
      exact absurd (mem_of_getElem? there) not_mem_nil
    · intro past place event next _ ran before
      exact confined_step given ran before
  refine ⟨confined.single, ?_, ?_⟩
  · intro index command member
    have shape := confined.shape index command member
    exact ⟨shape.program, shape.args, shape.agent⟩
  · intro index worker task there kind
    have session := confined.sessions index worker task there kind
    refine ⟨session.known, session.agentFwd, ?_⟩
    intro choices wantReply data rest asked next ran
    obtain ⟨same, task_, line, found, moved, rfl⟩ := act_some ran
    cases there.symm.trans found
    rw [kind] at moved
    obtain ⟨⟨result, after⟩, stepped, pair⟩ := Option.map_eq_some_iff.mp moved
    cases pair
    obtain ⟨nothing, more, said, ungranted⟩ := @Server.subsystem_refused host index _ _ _ _ _ _ _ _ _ _
      (session.forceCommand.trans given) asked stepped
    refine ⟨?_, more, ?_, ungranted⟩
    · simp only [Connection.starts, there, kind, nothing]
      rfl
    · simp only [said]

/-- A daemon with an agent of its own, for a user that may forward agents. -/
def backupHost : Channels.Host where
  account := some ⟨"backup", "/home/backup", "/bin/sh"⟩
  exe := "/usr/bin/shhd"
  inherited name := if name = authSock then some "/run/operator" else none
  socket _ := "/tmp/agent"
  term _ := "xterm"

def backupServer : Config := { openServer with forceCommand := some "backup", permitAgent := true }

/-- The agent is forwarded, a command is run, and then a subsystem is asked for. -/
def backupAsked : List Event :=
  [.packet false (openPacket "session" 0) ⟨none, none⟩,
   .packet false (encode 0 (.request "auth-agent-req@openssh.com" false [])) ⟨none, none⟩,
   .packet false (encode 0 (.request "exec" true (Writer.utf8 "id"))) ⟨none, none⟩,
   .packet false (encode 0 (.request "subsystem" true (Writer.utf8 "sftp"))) ⟨none, none⟩,
   .act 0 (.server (.recv ⟨true, true, true, true⟩)),
   .act 0 (.server (.recv ⟨true, true, true, true⟩))]

/-- Where that leads. -/
def backupReached : Connection × List (Nat × Command) :=
  (backupAsked.foldlM (hosted backupHost backupServer) (.start, [])).get (by decide +kernel)

theorem backup_is_confined : ∃ (next : Connection) (worker : Worker),
    (ofTask backupReached.2 0).map (fun command => (command.args, command.environment backupHost.inherited authSock)) =
      [(["-c", "backup"], some "/tmp/agent")] ∧
    (ofTask backupReached.2 0).length ≤ 1 ∧
    backupReached.1.step backupServer (.act 0 (.server (.recv ⟨true, true, true, true⟩))) = some next ∧
    ∃ more, next.orders = backupReached.1.orders ++
      ((Server.answer worker.line true false).cmds ++ more).map (.channel worker.id) ∧ .reply true ∉ more := by
  have path : Path (hosted backupHost backupServer) (.start, []) backupAsked backupReached := path_of_some _ _
  have confines := forced_command_confines rfl path
  have asked : backupReached.1.workers[0]?.map (fun worker => (worker.task matches .server _, worker.line.inbox)) =
      some (true, [.request "subsystem" true (Writer.utf8 "sftp")]) := by decide +kernel
  have ran := Option.some_get (show (backupReached.1.step backupServer
    (.act 0 (.server (.recv ⟨true, true, true, true⟩)))).isSome = true by decide +kernel)
  obtain ⟨worker, there, facts⟩ := Option.map_eq_some_iff.mp asked
  obtain ⟨serves, inbox⟩ := Prod.mk.inj facts
  cases kind : worker.task with
  | server task =>
    have refused := (confines.2.2 0 worker task there kind).2.2 _ _ _ _ inbox _ ran.symm
    exact ⟨_, worker, by decide +kernel, confines.1 0, ran.symm, refused.2⟩
  | forward | client =>
    rw [kind] at serves
    cases serves

end Hosted

end Shh.Connections
