import Shh.Serving
import Shh.Teardown

/-!
# What may follow EOF and CLOSE on a channel

Messages of a channel come from two places: the commands of its task, which the loop
carries out in order, and the loop's own answers to the peer. The tasks keep an order
among their commands: no data after EOF, and nothing after CLOSE, which is the last thing
a task does. The loop keeps the order of the commands, and remembers what it has sent.

Its own answers are another matter. Between our CLOSE and the peer's the channel is still
in the table, and a forwarded stream answers a request of the peer on the spot.
-/

namespace Shh.Channels

open List Wire Semaphores Runs

/-- Messages and commands that carry data. -/
def Message.bears : Message → Bool
  | .data _ | .extData _ _ => true
  | _ => false

def Cmd.bears : Cmd → Bool
  | .data _ | .extData _ _ => true
  | _ => false

/-- Commands that neither carry data nor end anything. -/
def Cmd.plain : Cmd → Bool
  | .request _ _ _ | .reply _ | .consumed _ => true
  | .data _ | .extData _ _ | .eof | .close => false

/-- Nothing follows CLOSE, and neither data nor another EOF follows EOF. -/
def Orderly (sent : List Message) : Prop :=
  Licensed (fun before message => .close ∉ before ∧ (.eof ∈ before → message.bears = false ∧ message ≠ .eof)) sent

/-- Commands in the order in which a task may ask for them. -/
def Sequence (cmds : List Cmd) : Prop :=
  Licensed (fun before cmd => .close ∉ before ∧ (.eof ∈ before → cmd.bears = false)) cmds

section Sequences

variable {cmd : Cmd} {rest : List Cmd}

theorem sequence_nil : Sequence [] := licensed_nil _

theorem sequence_one (cmd : Cmd) : Sequence [cmd] :=
  @licensed_snoc _ _ [] cmd sequence_nil ⟨not_mem_nil, fun member => absurd member not_mem_nil⟩

theorem plain_bears (plain : cmd.plain = true) : cmd.bears = false := by
  cases cmd with
  | data | extData => cases plain
  | request | reply | eof | close | consumed => rfl

theorem sequence_plain {cmds} (plain : ∀ cmd ∈ cmds, cmd.plain = true) : Sequence cmds := by
  rintro before cmd after rfl
  refine ⟨fun member => ?_, fun _ => plain_bears (plain cmd (mem_append_right _ mem_cons_self))⟩
  cases plain _ (mem_append_left _ member)

/-- One more command at the end. -/
theorem Sequence.snoc {cmds : List Cmd} (sequence : Sequence cmds) (closed : .close ∉ cmds)
    (ended : .eof ∈ cmds → cmd.bears = false) : Sequence (cmds ++ [cmd]) :=
  licensed_snoc sequence ⟨closed, ended⟩

/-- Commands without data behind commands without CLOSE. -/
theorem Sequence.append {first second : List Cmd} (sequence : Sequence first) (closed : .close ∉ first)
    (ended : .eof ∈ first → ∀ cmd ∈ second, cmd.bears = false)
    (later : Sequence second) : Sequence (first ++ second) := by
  intro before cmd after split
  rcases append_eq_append_iff.mp split with ⟨middle, rfl, rest⟩ | ⟨middle, rfl, rest⟩
  · obtain ⟨unclosed, quiet⟩ := later middle cmd after rest
    have member : cmd ∈ second := rest ▸ mem_append_right _ mem_cons_self
    refine ⟨fun inside => (mem_append.mp inside).elim closed unclosed, fun inside => ?_⟩
    exact (mem_append.mp inside).elim (fun old => ended old cmd member) quiet
  · cases middle with
    | nil =>
      rw [append_nil] at closed ended
      have member : cmd ∈ second := by
        rw [← nil_append second, ← rest]
        exact mem_cons_self
      exact ⟨closed, fun inside => ended inside cmd member⟩
    | cons head tail =>
      obtain ⟨rfl, _⟩ := List.cons.inj rest
      exact sequence before cmd tail rfl

theorem eof_close_sequence : Sequence [.eof, .close] :=
  (sequence_one .eof).snoc (fun member => by cases mem_singleton.mp member) fun _ => rfl

/-- What is left behind the first command. -/
theorem Sequence.tail (sequence : Sequence (cmd :: rest)) : Sequence rest := by
  intro before other after split
  obtain ⟨closed, ended⟩ := sequence (cmd :: before) other after (by rw [split, cons_append])
  exact ⟨fun inside => closed (mem_cons_of_mem _ inside), fun inside => ended (mem_cons_of_mem _ inside)⟩

/-- Nothing stands behind CLOSE. -/
theorem Sequence.close_last (sequence : Sequence (.close :: rest)) : rest = [] := by
  cases rest with
  | nil => rfl
  | cons next others => exact absurd mem_cons_self (sequence [.close] next others rfl).1

theorem Sequence.eof_ends (sequence : Sequence (.eof :: rest)) : ∀ cmd ∈ rest, cmd.bears = false := by
  intro cmd member
  obtain ⟨before, after, rfl⟩ := append_of_mem member
  exact (sequence (.eof :: before) cmd after rfl).2 mem_cons_self

end Sequences

section Tasks

/-- Data may still come from the task. -/
def Forward.feeding (task : Forward) : Bool := task.reader ≠ .ended

def Client.feeding (task : Client) : Bool :=
  match task.phase with
  | .pumping (.sending _ _) => true
  | .ended => false
  | _ => !task.stdinDone

def Task.feeding : Task → Bool
  | .forward task => task.feeding
  | .client task => task.feeding
  | .server task => task.running

/-- What a step adds to the commands of a task. -/
structure Utters (feeding later running : Bool) (more : List Cmd) : Prop where
  sequence : Sequence more
  data : ∀ cmd ∈ more, cmd.bears = true → feeding = true
  eof : .eof ∈ more → later = false
  close : .close ∈ more → running = false
  stays : later = true → feeding = true

variable {remoteMax : Nat} {line after : Line} {feeding later running : Bool} {more : List Cmd}

theorem Utters.plain (plain : ∀ cmd ∈ more, cmd.plain = true) (stays : later = true → feeding = true) :
    Utters feeding later running more where
  sequence := sequence_plain plain
  data := fun cmd member carries => by cases (plain_bears (plain cmd member)).symm.trans carries
  eof := fun member => by cases plain _ member
  close := fun member => by cases plain _ member
  stays := stays

theorem Utters.nothing (stays : later = true → feeding = true) : Utters feeding later running [] :=
  .plain (by simp) stays

theorem Utters.one {cmd : Cmd} (plain : cmd.plain = true) (stays : later = true → feeding = true) :
    Utters feeding later running [cmd] :=
  .plain (fun _ member => mem_singleton.mp member ▸ plain) stays

/-- Plain commands may come first. -/
theorem Utters.since {first : List Cmd} (utters : Utters feeding later running more)
    (plain : ∀ cmd ∈ first, cmd.plain = true) : Utters feeding later running (first ++ more) where
  sequence := (sequence_plain plain).append (fun member => by cases plain _ member)
    (fun member => by cases plain _ member)
    utters.sequence
  data := by
    intro cmd member carries
    rcases mem_append.mp member with early | late
    · cases (plain_bears (plain cmd early)).symm.trans carries
    · exact utters.data cmd late carries
  eof := fun member => (mem_append.mp member).elim (fun early => by cases plain _ early) utters.eof
  close := fun member => (mem_append.mp member).elim (fun early => by cases plain _ early) utters.close
  stays := utters.stays

/-- The task ends, whatever it says last. -/
theorem Utters.ends (sequence : Sequence more) (plain : ∀ cmd ∈ more, cmd.bears = false) (stopped : running = false)
    (spent : later = false) : Utters feeding later running more where
  sequence := sequence
  data := fun cmd member carries => by cases (plain cmd member).symm.trans carries
  eof := fun _ => spent
  close := fun _ => stopped
  stays := fun still => by cases spent.symm.trans still

/-- EOF is asked for, and no data comes after it. -/
theorem Utters.finally (spent : later = false) : Utters feeding later running [.eof] where
  sequence := sequence_one .eof
  data := fun cmd member carries => by
    cases mem_singleton.mp member
    cases carries
  eof := fun _ => spent
  close := fun member => by cases mem_singleton.mp member
  stays := fun still => by cases spent.symm.trans still

/-- A chunk is handed over while data may come. -/
theorem Utters.chunk {ext bytes} (open_ : feeding = true) :
    Utters feeding later running [Line.chunk ext bytes] where
  sequence := sequence_one _
  data := fun _ _ _ => open_
  eof := fun member => by
    cases ext <;> cases mem_singleton.mp member
  close := fun member => by
    cases ext <;> cases mem_singleton.mp member
  stays := fun _ => open_

/-- The last chunk may be followed by other commands. -/
theorem Utters.behind {ext bytes} (utters : Utters true later running more) :
    Utters true later running (Line.chunk ext bytes :: more) := by
  have other (cmd : Cmd) (idle : cmd.bears = false) : Line.chunk ext bytes ≠ cmd := by
    rintro rfl
    cases ext <;> cases idle
  have inside {cmd : Cmd} (idle : cmd.bears = false) (member : cmd ∈ Line.chunk ext bytes :: more) : cmd ∈ more :=
    (mem_cons.mp member).resolve_left fun same => other cmd idle same.symm
  refine ⟨?_, fun _ _ _ => rfl, fun member => utters.eof (inside rfl member),
    fun member => utters.close (inside rfl member), fun _ => rfl⟩
  refine (sequence_one (Line.chunk ext bytes)).append ?_ ?_ utters.sequence
  · exact fun member => other .close rfl (mem_singleton.mp member).symm
  · exact fun member => absurd (mem_singleton.mp member).symm (other .eof rfl)

namespace Forward

variable {task next : Forward} {label : Label}

/-- CLOSE is asked for when both loops have ended. -/
theorem join_utters (alive : line.gone = false) (stays : task.feeding = true → feeding = true) :
    ∃ more, (task.join line).2.cmds = line.cmds ++ more ∧ Utters feeding task.feeding task.running more := by
  unfold join
  split
  · exact ⟨[], (append_nil _).symm, .nothing stays⟩
  · rename_i ended
    have stopped : task.running = false := (Bool.not_eq_true _).mp ended
    refine ⟨[.close], send_alive alive, .ends (sequence_one _) ?_ stopped (Bool.or_eq_false_iff.mp stopped).1⟩
    exact fun _ member => mem_singleton.mp member ▸ rfl

theorem step_utters (alive : line.gone = false) (ran : task.step remoteMax line label = some (next, after)) :
    ∃ more, after.cmds = line.cmds ++ more ∧ Utters task.feeding next.feeding next.running more := by
  have same {task next : Forward} (reader : next.reader = task.reader) : next.feeding = true → task.feeding = true := by
    unfold feeding
    rw [reader]
    exact id
  have going {task : Forward} (other : task.reader ≠ .ended) : task.feeding = true := decide_eq_true other
  cases step_goes ran with
  | read reading => exact ⟨[], (append_nil _).symm, .nothing fun _ => going (by rw [reading]; simp)⟩
  | readEnds reading joined =>
    have quiet : (line.send .eof).gone = false := ((send_same line .eof).2.2.2).trans alive
    have spent : feeding { task with reader := .ended } = false := decide_eq_false fun clash => clash rfl
    rw [joined, join]
    split
    · exact ⟨[.eof], send_alive alive, .finally spent⟩
    · rename_i stopped
      refine ⟨[.eof, .close], ?_, .ends eof_close_sequence ?_ ((Bool.not_eq_true _).mp stopped) spent⟩
      · show ((line.send .eof).send .close).cmds = _
        rw [send_alive quiet, send_alive alive, append_assoc]
        rfl
      · intro cmd member
        rcases mem_pair.mp member with rfl | rfl <;> rfl
  | @sent left sending =>
    have open_ := @going task (by rw [sending]; simp)
    exact ⟨_, rfl, @Utters.chunk _ _ _ none _ open_⟩
  | waits => exact ⟨[], (append_nil _).symm, .nothing id⟩
  | refused _ _ joined =>
    rw [joined]
    exact join_utters alive fun still => by cases still
  | lost _ dead => cases alive.symm.trans dead
  | @takes message rest _ _ _ there result =>
    cases message with
    | close =>
      obtain rfl : next = { task with writer := .ended } := by
        rw [← join_task { task with writer := .ended } { line with inbox := rest }]
        exact (congrArg Prod.fst result).symm
      obtain rfl : (join { task with writer := .ended } { line with inbox := rest }).2 = after :=
        congrArg Prod.snd result
      exact @join_utters { line with inbox := rest } _ { task with writer := .ended } alive (same rfl)
    | request kind wantReply data =>
      cases result
      split
      · exact ⟨[.reply false], @send_alive _ { line with inbox := rest } alive, .one rfl id⟩
      · exact ⟨[], (append_nil _).symm, .nothing id⟩
    | data | eof | extData | reply =>
      cases result
      exact ⟨[], (append_nil _).symm, .nothing (same rfl)⟩
  | hungUp _ _ _ joined =>
    rw [joined]
    exact join_utters alive (same rfl)
  | @wrote left size =>
    exact ⟨[.consumed size], send_alive alive, .one rfl (same rfl)⟩
  | writes | shutdown => exact ⟨[], (append_nil _).symm, .nothing (same rfl)⟩
  | writeFails _ joined =>
    rw [joined]
    exact join_utters alive (same rfl)

end Forward

namespace Client

variable {task next : Client} {label : Label}

/-- What a step adds to the commands of a client. -/
def Speaks (task : Client) (line : Line) (result : Client × Line) : Prop :=
  ∃ more, result.2.cmds = line.cmds ++ more ∧ Utters task.feeding result.1.feeding result.1.running more

theorem spec_plain (spec : SessionSpec) : spec.cmd.plain = true := by
  unfold SessionSpec.cmd
  split <;> rfl

/-- The task moves on with some commands that are plain. -/
theorem Speaks.plainly (adds : Adds (fun cmd => cmd.plain = true) line after)
    (stays : next.feeding = true → task.feeding = true) :
    Speaks task line (next, after) := by
  obtain ⟨more, grown, plain⟩ := adds
  exact ⟨more, grown, .plain plain stays⟩

theorem adds_plain {cmd : Cmd} (plain : cmd.plain = true) (line : Line) :
    Adds (fun cmd => cmd.plain = true) line (line.send cmd) :=
  .send plain line

theorem finish_speaks (alive : line.gone = false) (status : Option ExitStatus) :
    Speaks task line (task.finish line status) := by
  refine ⟨[.close], send_alive alive, .ends (sequence_one _) ?_ rfl rfl⟩
  exact fun _ member => mem_singleton.mp member ▸ rfl

theorem begin_speaks (created : task.phase = .created) : Speaks task line (task.begin line) := by
  have agent : Adds (fun cmd => cmd.plain = true) line
    (if task.spec.forwardAgent then line.send agentRequest else line) := by
    split
    · exact adds_plain rfl line
    · exact .none rfl
  have stays {phase} (same : feeding { task with phase } = !task.stdinDone) :
      feeding { task with phase } = true → task.feeding = true := by
    rw [same]
    unfold feeding
    rw [created]
    exact id
  unfold begin
  dsimp only
  split
  · exact .plainly (agent.trans (adds_plain rfl _)) (stays rfl)
  · exact .plainly (agent.trans (adds_plain (spec_plain _) _)) (stays rfl)

/-- A message while a reply is awaited. -/
theorem reply_speaks {granted message} (alive : line.gone = false)
    (grants : Speaks task line granted) : Speaks task line (task.onReply line granted message) := by
  unfold onReply
  split
  · exact grants
  · exact finish_speaks alive _
  · exact finish_speaks alive _
  · exact finish_speaks alive _
  · exact .plainly (.none rfl) id

/-- A message for the pump. -/
theorem message_speaks {message} (alive : line.gone = false) (selecting : task.phase = .pumping .select) :
    Speaks task line (task.onMessage line message) := by
  have stays {next : Client} (same : next.feeding = !task.stdinDone) : next.feeding = true → task.feeding = true := by
    rw [same]
    unfold feeding
    rw [selecting]
    exact id
  unfold onMessage
  split
  · exact finish_speaks alive _
  · exact finish_speaks alive _
  · exact .plainly (.none rfl) (stays rfl)
  · split
    · exact .plainly (.none rfl) (stays rfl)
    · exact .plainly (adds_plain rfl line) id
  · split
    · refine .plainly (.none rfl) (stays ?_)
      unfold feeding
      rw [selecting]
    · exact .plainly (.none rfl) id
  all_goals exact .plainly (.none rfl) id

theorem step_speaks (alive : line.gone = false) {result : Client × Line}
    (ran : task.step remoteMax line label = some result) :
    Speaks task line result := by
  have plainly {next : Client} {after} (stays : next.feeding = true → task.feeding = true)
      (adds : Adds (fun cmd => cmd.plain = true) line after) : Speaks task line (next, after) := .plainly adds stays
  have same : Adds (fun cmd => cmd.plain = true) line line := .none rfl
  have reported := @adds_plain
  cases label with
  | start => grind [step, begin_speaks]
  | recv =>
    simp only [step] at ran
    split at ran
    · cases ran
    · rename_i message between took
      -- What is taken from the queue leaves the commands.
      have same : between.cmds = line.cmds ∧ between.gone = false := by
        obtain ⟨_, _, _, _, rfl⟩ | ⟨_, _, _, rfl⟩ := recv_cases took
        all_goals exact ⟨rfl, alive⟩
      have speaks {result} (speaks : Speaks task between result) : Speaks task line result := by
        obtain ⟨more, grown, utters⟩ := speaks
        exact ⟨more, by rw [grown, same.1], utters⟩
      have granted {phase after} (stays : feeding { task with phase } = true → task.feeding = true)
          (adds : Adds (fun cmd => cmd.plain = true) between after) :=
        @reply_speaks between task ({ task with phase }, after) message same.2 (.plainly adds stays)
      have none_ : Adds (fun cmd => cmd.plain = true) between between := .none rfl
      grind [message_speaks, feeding, ask, spec_plain]
  | stdinEnds =>
    have spoken (spent : feeding { task with stdinDone := true } = false) :
        Speaks task line ({ task with stdinDone := true }, line.send .eof) := ⟨[.eof], send_alive alive, .finally spent⟩
    grind [step, feeding]
  | send =>
    simp only [step] at ran
    split at ran
    · rename_i ext left sending
      have open_ : task.feeding = true := by
        unfold feeding
        rw [sending]
      rcases send_credited_cases line remoteMax ext left with
        ⟨_, _, _, result⟩ | ⟨_, _, result⟩ | ⟨_, result⟩ | ⟨dead, _⟩
      · rw [result] at ran
        cases ran
        exact ⟨_, rfl, .chunk open_⟩
      · rw [result] at ran
        cases ran
        exact .plainly (.none rfl) id
      · rw [result] at ran
        cases ran
        have alive : { line with credit := { line.credit with waiting := 0 } }.gone = false := alive
        obtain ⟨said, spoken, speech⟩ := finish_speaks alive task.exitStatus
        exact ⟨said, spoken, speech⟩
      · cases alive.symm.trans dead
    · cases ran
  | _ => grind [step, feeding, write, Cmd.plain, windowChange]

end Client

namespace Server

variable {task next : Server} {label : Label}

/-- What a step of a server adds to its commands. -/
def Speaks (line : Line) (result : Server × Line) : Prop :=
  ∃ more, result.2.cmds = line.cmds ++ more ∧ Utters true result.1.running result.1.running more

/-- Answers and reports may come first. -/
theorem Speaks.since {between result} (speaks : Speaks between result)
    (adds : Adds Cmd.Minor line between) : Speaks line result := by
  obtain ⟨more, grown, utters⟩ := speaks
  obtain ⟨first, before, minor⟩ := adds
  refine ⟨first ++ more, by rw [grown, before, append_assoc], utters.since ?_⟩
  intro cmd member
  cases minor cmd member with
  | reply | consumed => rfl

theorem Speaks.quietly (same : after.cmds = line.cmds) : Speaks line (next, after) :=
  ⟨[], by rw [append_nil]; exact same, .nothing fun _ => rfl⟩

/-- The last commands of a server that was able to run its program. -/
theorem pump_speaks (alive : line.gone = false) : Speaks line (task.pump line) := by
  rcases pump_cases task line with ⟨status, _, _, _, result⟩ | ⟨_, result⟩
  · rw [result]
    have plain : (exitRequest status).plain = true := by cases status <;> rfl
    refine ⟨[exitRequest status] ++ [.eof, .close], finish_cmds status alive,
      .since ?_ fun _ member => mem_singleton.mp member ▸ plain⟩
    refine .ends eof_close_sequence ?_ rfl rfl
    intro cmd member
    rcases mem_pair.mp member with rfl | rfl <;> rfl
  · rw [result]
    exact .quietly rfl

theorem started_speaks (alive : line.gone = false) {program : Program} {piped : Bool} :
    Speaks line (task.started line program piped) := by
  unfold started
  dsimp only
  split
  · exact .quietly rfl
  · exact pump_speaks alive

theorem refused_speaks (alive : line.gone = false) : Speaks line ({ task with phase := .ended }, line.send .close) := by
  refine ⟨[.close], send_alive alive, .ends (sequence_one _) ?_ rfl rfl⟩
  exact fun _ member => mem_singleton.mp member ▸ rfl

theorem step_speaks (alive : line.gone = false) (ran : task.step remoteMax line label = some (next, after)) :
    Speaks line (next, after) := by
  have pumped {before : Server} {between : Line} (adds : Adds Cmd.Minor line between) (gone : between.gone = line.gone)
      (result : before.pump between = (next, after)) : Speaks line (next, after) := by
    rw [← result]
    exact (pump_speaks (gone.trans alive)).since adds
  cases step_goes ran with
  | gathers _ _ minorly => exact (Speaks.quietly rfl).since minorly.adds
  | endsEarly | closed | hungUp | takes | writesEarly | writes | readsOut | readsErr | stays | refused =>
    exact .quietly rfl
  | passes _ _ _ _ minorly => exact (Speaks.quietly rfl).since minorly.adds
  | starts _ _ minorly _ result =>
    rw [← result]
    exact (started_speaks (minorly.gone.trans alive)).since minorly.adds
  | refuses _ _ minorly => exact (refused_speaks (minorly.gone.trans alive)).since minorly.adds
  | drops _ _ _ minorly result => exact pumped minorly.adds minorly.gone result
  | @endsInput _ rest _ _ _ _ result => exact @pumped _ { line with inbox := rest } (.none rfl) rfl result
  | notes _ _ _ _ minorly result => exact pumped minorly.adds minorly.gone result
  | wroteEarly _ _ result => exact pumped (.none rfl) rfl result
  | wrote _ _ result => exact pumped (.send (.consumed _) line) (send_same _ _).2.2.2 result
  | writeFails _ minorly result => exact pumped minorly.adds minorly.gone result
  | outEnds _ result | errEnds _ result | exits _ result => exact pumped (.none rfl) rfl result
  | sent => exact ⟨_, rfl, .chunk rfl⟩
  | @sentAll ext left credit _ _ _ _ _ result =>
    rw [← result]
    obtain ⟨more, grown, utters⟩ := @pump_speaks
      { line with credit, cmds := line.cmds ++ [Line.chunk ext (left.take (min left.length remoteMax))] } task alive
    exact ⟨_ :: more, by rw [grown, append_assoc]; rfl, utters.behind⟩

end Server

/-- What a step of a task adds to its commands. -/
theorem Task.step_utters {task next : Task} {label} (alive : line.gone = false)
    (ran : task.step remoteMax line label = some (next, after)) :
    ∃ more, after.cmds = line.cmds ++ more ∧ Utters task.feeding next.feeding next.running more := by
  have going := Task.step_running ran
  obtain ⟨mine, cause, result, rfl, moved, rfl, _⟩ | ⟨mine, cause, result, rfl, moved, rfl, _⟩ |
    ⟨mine, cause, result, rfl, moved, rfl, _⟩ := Task.step_cases ran
  · exact Forward.step_utters alive moved
  · exact Client.step_speaks alive moved
  · obtain ⟨more, grown, utters⟩ := Server.step_speaks alive moved
    have open_ : (Task.server mine).feeding = true := going
    rw [open_]
    exact ⟨more, grown, utters⟩

end Tasks

section Loop

variable {platform : Platform} {task next : Task} {queue more : List Cmd} {chan kept : Chan} {sent : List Message}
  {line : Line} {turn : Turn}

variable {message : Message}

/-- How far a channel is with ending, at its task, in its queue and at the loop. -/
structure Tidy (task : Task) (queue : List Cmd) (chan : Chan) (sent : List Message) : Prop where
  orderly : Orderly sent
  sequence : Sequence queue
  eofQueued : .eof ∈ queue → task.feeding = false
  closeQueued : .close ∈ queue → task.running = false
  eofSent : .eof ∈ sent → chan.sentEof = true
  closeSent : .close ∈ sent → chan.sentClose = true
  ended : chan.sentEof = true → task.feeding = false ∧ ∀ cmd ∈ queue, cmd.bears = false
  closed : chan.sentClose = true → task.running = false ∧ queue = []

theorem Tidy.start (task : Task) (peerId : Nat) (isSession endOnClose : Bool) :
    Tidy task [] (.make peerId isSession endOnClose) [] where
  orderly := licensed_nil _
  sequence := sequence_nil
  eofQueued := fun member => absurd member not_mem_nil
  closeQueued := fun member => absurd member not_mem_nil
  eofSent := fun member => absurd member not_mem_nil
  closeSent := fun member => absurd member not_mem_nil
  ended := fun marked => by cases marked
  closed := fun marked => by cases marked

section

variable (tidy : Tidy task queue chan sent)

include tidy

/-- The task takes a step, which takes a task that runs. -/
theorem Tidy.acts (going : task.running = true)
    (utters : Utters task.feeding next.feeding next.running more) : Tidy next (queue ++ more) chan sent := by
  have unclosed : .close ∉ queue := fun member => by cases going.symm.trans (tidy.closeQueued member)
  -- Whoever has asked for EOF says no more data.
  have quiet (spent : task.feeding = false) : ∀ cmd ∈ more, cmd.bears = false := by
    intro cmd member
    cases carries : cmd.bears with
    | false => rfl
    | true => cases spent.symm.trans (utters.data cmd member carries)
  have stays (spent : task.feeding = false) : next.feeding = false := by
    cases still : next.feeding with
    | false => rfl
    | true => cases spent.symm.trans (utters.stays still)
  refine ⟨tidy.orderly,
    tidy.sequence.append unclosed (fun member => quiet (tidy.eofQueued member)) utters.sequence, ?_, ?_,
    tidy.eofSent, tidy.closeSent, ?_, ?_⟩
  · intro member
    rcases mem_append.mp member with before | new
    · exact stays (tidy.eofQueued before)
    · exact utters.eof new
  · intro member
    rcases mem_append.mp member with before | new
    · exact absurd before unclosed
    · exact utters.close new
  · intro marked
    obtain ⟨spent, silent⟩ := tidy.ended marked
    refine ⟨stays spent, fun cmd member => ?_⟩
    exact (mem_append.mp member).elim (silent cmd) (quiet spent cmd)
  · intro marked
    cases going.symm.trans (tidy.closed marked).1

/-- What the loop sends on a channel that it has not closed. -/
theorem Tidy.sends (open_ : chan.sentClose = false)
    (fits : chan.sentEof = true → message.bears = false ∧ message ≠ .eof) : Orderly (sent ++ [message]) := by
  refine licensed_snoc tidy.orderly ⟨fun member => ?_, fun member => fits (tidy.eofSent member)⟩
  cases open_.symm.trans (tidy.closeSent member)

/-- Only the marks of the record matter. -/
theorem Tidy.marked (eof : kept.sentEof = chan.sentEof)
    (close : kept.sentClose = chan.sentClose) : Tidy task queue kept sent := by
  refine ⟨tidy.orderly, tidy.sequence, tidy.eofQueued, tidy.closeQueued, ?_, ?_, ?_, ?_⟩
  · rw [eof]
    exact tidy.eofSent
  · rw [close]
    exact tidy.closeSent
  · rw [eof]
    exact tidy.ended
  · rw [close]
    exact tidy.closed

/-- A message that ends nothing. -/
theorem Tidy.tells (orderly : Orderly (sent ++ [message]))
    (other : message ≠ .eof ∧ message ≠ .close) : Tidy task queue chan (sent ++ [message]) := by
  have before {mark} (apart : message ≠ mark) (member : mark ∈ sent ++ [message]) : mark ∈ sent :=
    (mem_append.mp member).resolve_right fun last => apart (mem_singleton.mp last).symm
  exact { tidy with
    orderly
    eofSent := fun member => tidy.eofSent (before other.1 member)
    closeSent := fun member => tidy.closeSent (before other.2 member) }

end

/-- The first command is off the queue. -/
theorem Tidy.pops {cmd : Cmd} (tidy : Tidy task (cmd :: queue) chan sent) : Tidy task queue chan sent where
  orderly := tidy.orderly
  sequence := tidy.sequence.tail
  eofQueued := fun member => tidy.eofQueued (mem_cons_of_mem _ member)
  closeQueued := fun member => tidy.closeQueued (mem_cons_of_mem _ member)
  eofSent := tidy.eofSent
  closeSent := tidy.closeSent
  ended := fun marked => ⟨(tidy.ended marked).1, fun cmd member => (tidy.ended marked).2 cmd (mem_cons_of_mem _ member)⟩
  closed := fun marked => by cases (tidy.closed marked).2

/-- What the loop makes of an event keeps the order. -/
def KeepsOrder (task : Task) (queue : List Cmd) (sent : List Message) (turn : Turn) : Prop :=
  Orderly (sent ++ turn.sent) ∧ ∀ kept, turn.chan = some kept → Tidy task queue kept (sent ++ turn.sent)

theorem KeepsOrder.silent (tidy : Tidy task queue chan sent) (eof : kept.sentEof = chan.sentEof)
    (close : kept.sentClose = chan.sentClose) : KeepsOrder task queue sent ⟨some kept, line, [], false⟩ := by
  unfold KeepsOrder
  rw [append_nil]
  refine ⟨tidy.orderly, fun other same => ?_⟩
  cases same
  exact tidy.marked eof close

theorem KeepsOrder.tells (tidy : Tidy task queue chan sent) (orderly : Orderly (sent ++ [message]))
    (other : message ≠ .eof ∧ message ≠ .close) (eof : kept.sentEof = chan.sentEof)
    (close : kept.sentClose = chan.sentClose) : KeepsOrder task queue sent ⟨some kept, line, [message], false⟩ := by
  refine ⟨orderly, fun record same => ?_⟩
  cases same
  exact (tidy.tells orderly other).marked eof close

/-- The loop carries out a command. -/
theorem Tidy.commands {cmd : Cmd} (tidy : Tidy task (cmd :: queue) chan sent) :
    KeepsOrder task queue sent (chan.command line cmd) := by
  have open_ : chan.sentClose = false := by
    cases marked : chan.sentClose with
    | false => rfl
    | true => cases (tidy.closed marked).2
  have unended (carries : cmd.bears = true) : chan.sentEof = false := by
    cases marked : chan.sentEof with
    | false => rfl
    | true => cases carries.symm.trans ((tidy.ended marked).2 cmd mem_cons_self)
  cases cmd with
  | data bytes | extData kind bytes =>
    have fresh := unended rfl
    exact .tells tidy.pops (tidy.sends open_ fun marked => by cases fresh.symm.trans marked)
      ⟨(by simp), by simp⟩ rfl rfl
  | request kind wantReply data | reply success =>
    exact .tells tidy.pops (tidy.sends open_ fun _ => ⟨rfl, by simp⟩)
      ⟨(by simp), by simp⟩ rfl rfl
  | consumed count =>
    simp only [Chan.command, Chan.onConsumed]
    split
    · exact .tells tidy.pops (tidy.sends open_ fun _ => ⟨rfl, by simp⟩)
        ⟨(by simp), by simp⟩ rfl rfl
    · exact .silent tidy.pops rfl rfl
  | eof =>
    simp only [Chan.command]
    split
    · exact .silent tidy.pops rfl rfl
    · rename_i unmarked
      have orderly : Orderly (sent ++ [.eof]) := tidy.sends open_ fun marked => absurd marked unmarked
      refine ⟨orderly, fun record same => ?_⟩
      cases same
      exact { tidy.pops with
        orderly
        eofSent := fun _ => rfl
        closeSent := fun member => tidy.closeSent ((mem_append.mp member).resolve_right fun last => by
          cases mem_singleton.mp last)
        ended := fun _ => ⟨tidy.eofQueued mem_cons_self, tidy.sequence.eof_ends⟩ }
  | close =>
    have orderly : Orderly (sent ++ [.close]) := tidy.sends open_ fun _ => ⟨rfl, by simp⟩
    simp only [Chan.command, Chan.closeIfDone, open_, Bool.false_eq_true, if_false]
    split
    · exact ⟨orderly, fun record same => by cases same⟩
    · refine ⟨orderly, fun record same => ?_⟩
      cases same
      exact { tidy.pops with
        orderly
        eofSent := fun member => tidy.eofSent ((mem_append.mp member).resolve_right fun last => by
          cases mem_singleton.mp last)
        closeSent := fun _ => rfl
        closed := fun _ => ⟨tidy.closeQueued mem_cons_self, tidy.sequence.close_last⟩ }

/-- A request of the peer that is answered on the spot, on a channel that we have closed. -/
def Chan.pressed (chan : Chan) : Message → Bool
  | .request _ wantReply _ => wantReply && !chan.isSession && chan.sentClose
  | _ => false

/-- A message from the peer. -/
theorem Tidy.hears (tidy : Tidy task queue chan sent) (fair : chan.pressed message = false)
    (ok : chan.deliver platform line message = .ok turn) : KeepsOrder task queue sent turn := by
  cases message with
  | data bytes | extData kind bytes =>
    obtain ⟨_, rfl⟩ := on_data_ok ok
    exact .silent tidy rfl rfl
  | adjust | eof | reply =>
    cases ok
    exact .silent tidy rfl rfl
  | close =>
    cases ok
    rw [on_close_drops]
    refine ⟨?_, fun kept same => by cases same⟩
    dsimp only
    split
    · rw [append_nil]
      exact tidy.orderly
    · rename_i unmarked
      exact tidy.sends ((Bool.not_eq_true _).mp unmarked) fun _ => ⟨rfl, by simp⟩
  | request kind wantReply data =>
    cases ok
    simp only [Chan.onChannelRequest]
    split
    · exact .silent tidy rfl rfl
    · rename_i stream
      split
      · rename_i wanted
        have open_ : chan.sentClose = false := by
          simpa only [Chan.pressed, wanted, (Bool.not_eq_true _).mp stream, Bool.not_false, Bool.true_and] using fair
        exact .tells tidy (tidy.sends open_ fun _ => ⟨rfl, by simp⟩)
          ⟨(by simp), by simp⟩ rfl rfl
      · exact .silent tidy rfl rfl

end Loop

/-- An end whose channel is there keeps the order. -/
def Tidied (stay : End) : Prop := ∀ chan, stay.chan = some chan → Tidy stay.task stay.line.cmds chan stay.sent

theorem tidied_step {platform} {stay next : End} {label} (linked : Linked stay) (tidied : Tidied stay)
    (fair : ∀ message chan, label = .hear message → stay.chan = some chan → chan.pressed message = false)
    (ran : stay.step platform label = some next) : Tidied next := by
  have taken {stay : End} {turn : Turn} (keeps : KeepsOrder stay.task turn.line.cmds stay.sent turn) :
      Tidied (stay.take turn) := by
    intro chan there
    unfold End.take at there ⊢
    dsimp only at there ⊢
    split at there
    · cases there
    · rename_i going
      rw [if_neg going]
      exact keeps.2 chan there
  cases End.step_happens ran with
  | unheard dropped => exact fun chan there => by cases dropped.symm.trans there
  | heard there ok =>
    refine taken ?_
    rw [(deliver_grants ok).cmds]
    exact (tidied _ there).hears (fair _ _ rfl there) ok
  | broken | fell => exact fun chan there => by cases there
  | skipped _ dropped => exact fun chan there => by cases dropped.symm.trans there
  | @processed cmd rest chan queued there =>
    refine taken ?_
    obtain ⟨kept, sent, result, _⟩ := @command_open chan (linked.still chan there) { stay.line with cmds := rest } cmd
    have tidy := tidied chan there
    rw [queued] at tidy
    have keeps := @Tidy.commands _ _ _ _ { stay.line with cmds := rest } _ tidy
    rw [result] at keeps ⊢
    exact keeps
  | acted moved =>
    intro chan there
    have alive := linked.alive (by rw [show stay.chan = some chan from there]; exact nofun)
    obtain ⟨more, grown, utters⟩ := Task.step_utters alive moved
    have tidy := (tidied chan there).acts (Task.step_running moved) utters
    rw [← grown] at tidy
    exact tidy

end Shh.Channels
