import Shh.Ends

/-!
# What a task's step does to its line

Every step of a task does one of a few things: it queues commands that carry no
data, takes a message, reports bytes, or pays for a chunk and queues it. Here each
step is shown to be one of these deeds, whichever task it is of, so that what
follows about windows and credit is proved for the deeds alone.
-/

namespace Shh.Channels

open List Wire Semaphores

section Quiet

variable {cmd : Cmd}

/-- Commands that neither carry nor report bytes. -/
def Cmd.silent : Cmd → Bool
  | .request _ _ _ | .reply _ | .eof | .close => true
  | .data _ | .extData _ _ | .consumed _ => false

/-- A line after some silent commands. -/
inductive Quietly (line : Line) : Line → Prop where
  | refl : Quietly line line
  | send {between : Line} {cmd : Cmd} (before : Quietly line between) (silent : cmd.silent = true) :
      Quietly line (between.send cmd)

variable {line between after : Line}

theorem Quietly.once (silent : cmd.silent = true) : Quietly line (line.send cmd) := .send .refl silent

theorem Quietly.trans (first : Quietly line between) (second : Quietly between after) : Quietly line after := by
  induction second with
  | refl => exact first
  | send before silent ih => exact .send ih silent

theorem send_same (line : Line) (cmd : Cmd) :
    (line.send cmd).credit = line.credit ∧ (line.send cmd).inbox = line.inbox ∧
      (line.send cmd).hungUp = line.hungUp ∧ (line.send cmd).gone = line.gone := by
  unfold Line.send
  split <;> exact ⟨rfl, rfl, rfl, rfl⟩

theorem send_incoming (line : Line) (cmd : Cmd) : (line.send cmd).incoming = line.incoming := by
  rw [Line.incoming, (send_same line cmd).2.1, Line.incoming]

theorem send_alive (alive : line.gone = false) : (line.send cmd).cmds = line.cmds ++ [cmd] := by
  unfold Line.send
  rw [alive]
  rfl

theorem send_outgoing (plain : cmd.size = 0) : (line.send cmd).outgoing = line.outgoing := by
  cases alive : line.gone with
  | true => simp only [Line.send, alive, if_true]
  | false =>
    unfold Line.outgoing
    rw [send_alive alive]
    simp [plain]

theorem send_reported (alive : line.gone = false) :
    (line.send cmd).reported = line.reported + cmd.reported := by
  unfold Line.reported
  rw [send_alive alive]
  simp

theorem silent_sizes (silent : cmd.silent = true) : cmd.size = 0 ∧ cmd.reported = 0 := by
  cases cmd with
  | data | extData | consumed => cases silent
  | _ => exact ⟨rfl, rfl⟩

/-- Silent commands leave everything but the commands. -/
structure Alike (line after : Line) : Prop where
  credit : after.credit = line.credit
  inbox : after.inbox = line.inbox
  hungUp : after.hungUp = line.hungUp
  gone : after.gone = line.gone
  outgoing : after.outgoing = line.outgoing
  reported : after.reported = line.reported

theorem Alike.incoming (alike : Alike line after) : after.incoming = line.incoming := by
  rw [Line.incoming, alike.inbox, Line.incoming]

theorem Quietly.alike (quietly : Quietly line after) : Alike line after := by
  induction quietly with
  | refl => exact ⟨rfl, rfl, rfl, rfl, rfl, rfl⟩
  | @send between cmd before silent ih =>
    obtain ⟨credit, inbox, hungUp, gone, outgoing, reported⟩ := ih
    obtain ⟨sameCredit, sameInbox, sameHungUp, sameGone⟩ := send_same between cmd
    obtain ⟨size, report⟩ := silent_sizes silent
    refine ⟨sameCredit.trans credit, sameInbox.trans inbox, sameHungUp.trans hungUp, sameGone.trans gone,
      (send_outgoing size).trans outgoing, ?_⟩
    cases alive : between.gone with
    | true => simpa only [Line.send, alive, if_true] using reported
    | false => rw [send_reported alive, report, reported, Nat.add_zero]

/-- Silent commands come after those that were queued. -/
theorem Quietly.grows (quietly : Quietly line after) : ∃ more, after.cmds = line.cmds ++ more := by
  induction quietly with
  | refl => exact ⟨[], (append_nil _).symm⟩
  | @send between cmd before silent ih =>
    obtain ⟨more, grown⟩ := ih
    cases alive : between.gone with
    | true => exact ⟨more, by simpa only [Line.send, alive, if_true] using grown⟩
    | false => exact ⟨more ++ [cmd], by rw [send_alive alive, grown, append_assoc]⟩

/-- New commands are among those queued before, or silent. -/
theorem Quietly.cmds (quietly : Quietly line after) (member : cmd ∈ after.cmds) :
    cmd ∈ line.cmds ∨ cmd.silent = true := by
  induction quietly with
  | refl => exact .inl member
  | @send between other before silent ih =>
    unfold Line.send at member
    split at member
    · exact ih member
    · rcases mem_append.mp member with old | new
      · exact ih old
      · rw [mem_singleton.mp new]
        exact .inr silent

end Quiet

/-- Steps that take a message from the queue. -/
def Task.Label.receives : Task.Label → Bool
  | .forward .recv | .client .recv | .server (.recv _) => true
  | _ => false

/-- What a step does to the bytes a task holds and to its line. -/
inductive Does (task : Task) (label : Task.Label) (remoteMax : Nat) (held : Nat) (line : Line) : Nat → Line → Prop where
  | said {kept after} (same : kept = held) (quietly : Quietly line after) :
      Does task label remoteMax held line kept after
  /-- The next chunk is asked for and has to wait, or the request is given up. -/
  | waited {waiting kept after} (same : kept = held)
      (asked : line.credit.closed = false → waiting = min task.unsent.length remoteMax)
      (quietly : Quietly { line with credit := { line.credit with waiting } } after) :
      Does task label remoteMax held line kept after
  /-- A message is taken; its bytes are in hand until they are reported. -/
  | took {message : ToTask} {rest kept after} (there : line.inbox = message :: rest)
      (idle : held = 0) (now : kept = message.size) (quietly : Quietly { line with inbox := rest } after) :
      Does task label remoteMax held line kept after
  /-- A message is taken and its bytes are passed over. -/
  | discarded {message rest kept after}
      (there : line.inbox = message :: rest) (idle : held = 0) (now : kept = 0)
      (receives : label.receives = true) (stopped : task.passesOver message = true)
        (quietly : Quietly { line with inbox := rest } after) :
      Does task label remoteMax held line kept after
  /-- A message is taken and its bytes are reported at once. -/
  | noted {message : ToTask} {rest kept after} (there : line.inbox = message :: rest)
      (idle : held = 0) (now : kept = 0)
      (quietly : Quietly (({ line with inbox := rest } : Line).send (.consumed message.size)) after) :
      Does task label remoteMax held line kept after
  | reported {kept after} (now : kept = 0) (quietly : Quietly (line.send (.consumed held)) after) :
      Does task label remoteMax held line kept after
  /-- A chunk is paid for and queued. -/
  | paid {ext} {left : Bytes} {kept after} (marked : task.ext = ext)
      (unsent : task.unsent = left) (some : left ≠ [])
      (same : kept = held) (enough : min left.length remoteMax ≤ line.credit.permits) (alive : line.gone = false)
      (quietly : Quietly { line with
        credit := { line.credit with
          permits := line.credit.permits - min left.length remoteMax, waiting := 0 }
        cmds := line.cmds ++ [Line.chunk ext (left.take (min left.length remoteMax))] } after) :
      Does task label remoteMax held line kept after
  /-- The connection is gone and the task gives up. -/
  | lost {credit : Semaphore} {kept after} (dead : line.gone = true)
      (spent : credit.permits ≤ line.credit.permits) (closed : credit.closed = line.credit.closed)
      (quietly : Quietly { line with credit } after) :
      Does task label remoteMax held line kept after
  /-- A write failed and the task stops writing. -/
  | gaveUp {kept after} (now : kept = 0) (failed : label = .forward .writeFails)
      (quietly : Quietly line after) : Does task label remoteMax held line kept after

section Tasks

variable {remoteMax : Nat} {line after : Line}

attribute [local grind intro] Does
attribute [local grind .] Quietly.refl Quietly.once

/-- One turn of sending is a deed, whatever the task makes of the outcome. -/
theorem sending_does {task : Task} {label held kept ext left progress between}
    (marked : task.ext = ext) (unsent : task.unsent = left)
    (some : left ≠ []) (ran : line.sendCredited remoteMax ext left = (progress, between)) (same : kept = held)
    (quietly : Quietly between after) : Does task label remoteMax held line kept after := by
  rcases send_credited_cases line remoteMax ext left with
    ⟨_, enough, alive, result⟩ | ⟨_, _, result⟩ | ⟨shut, result⟩ | ⟨dead, credit, spent, closed, result⟩
  all_goals
    rw [result] at ran
    obtain ⟨_, rfl⟩ := Prod.mk.inj ran
  · exact .paid marked unsent some same enough alive quietly
  · exact .waited same (fun _ => by rw [unsent]) quietly
  · exact .waited same (fun unshut => by cases unshut.symm.trans shut) quietly
  · exact .lost dead spent closed quietly

namespace Forward

variable {task : Forward}

variable {message : ToTask} {label : Label} {result : Forward × Line}

theorem join_quietly (task : Forward) (line : Line) : Quietly line (task.join line).2 := by
  unfold join
  split
  · exact .refl
  · exact .once rfl

/-- What is being sent is not empty. -/
def Sound (task : Forward) : Prop := ∀ left, task.reader = .sending left → left ≠ []

theorem message_does {rest} (there : line.inbox = message :: rest) (waiting : task.writer = .waiting) :
    Does (.forward task) (.forward .recv) remoteMax task.holding line
      (task.onMessage { line with inbox := rest } message).1.holding
      (task.onMessage { line with inbox := rest } message).2 := by
  have idle : task.holding = 0 := by simp only [holding, waiting]
  cases message with
  | data | eof => exact .took there idle rfl .refl
  | extData kind bytes => exact .discarded there idle idle rfl rfl .refl
  | close =>
    simp only [onMessage, join_task]
    exact .took there idle rfl (join_quietly _ _)
  | request kind wantReply data =>
    refine .took there idle idle ?_
    simp only [onMessage]
    split
    · exact .once rfl
    · exact .refl
  | reply success => exact .took there idle idle .refl

theorem step_does (sound : task.Sound) (ran : task.step remoteMax line label = some result) :
    Does (.forward task) (.forward label) remoteMax task.holding line result.1.holding result.2 := by
  obtain ⟨next, after⟩ := result
  have held {left size} (writing : task.writer = .writing left size) : task.holding = size := by
    simp only [holding, writing]
  have unsent {left} (sending : task.reader = .sending left) : (Task.forward task).unsent = left := by
    simp only [Task.unsent, Forward.unsent, sending]
  have marked : (Task.forward task).ext = none := rfl
  cases step_goes ran with
  | read => exact .said rfl .refl
  | waits sending => exact .waited rfl (fun _ => by rw [unsent sending]) .refl
  | readEnds reading joined =>
    rw [joined]
    exact .said rfl ((Quietly.once rfl).trans (join_quietly _ _))
  | sent sending enough alive => exact .paid marked (unsent sending) (sound _ sending) rfl enough alive .refl
  | refused sending shut joined =>
    rw [joined]
    exact .waited rfl (fun unshut => by cases unshut.symm.trans shut) (join_quietly _ _)
  | lost sending dead spent closed joined =>
    rw [joined]
    exact .lost dead spent closed (join_quietly _ _)
  | takes waiting there result =>
    have does := @message_does remoteMax _ task _ _ there waiting
    rw [result] at does
    exact does
  | hungUp waiting empty gone joined =>
    have idle : task.holding = 0 := by simp only [holding, waiting]
    rw [joined]
    exact .said idle.symm (join_quietly _ _)
  | wrote writing all =>
    rw [held writing]
    exact .reported rfl .refl
  | writes writing => exact .said (held writing).symm .refl
  | writeFails writing joined =>
    rw [joined]
    exact .gaveUp rfl rfl (join_quietly _ _)
  | shutdown shutting =>
    have idle : task.holding = 0 := by simp only [holding, shutting]
    exact .said idle.symm .refl

theorem message_reader {next : Forward} (result : task.onMessage line message = (next, after)) :
    next.reader = task.reader := by
  have next : next = (task.onMessage line message).1 := by rw [result]
  rw [next]
  cases message with
  | close => simp only [onMessage, join_task]
  | _ => rfl

theorem step_sound (sound : task.Sound) (ran : task.step remoteMax line label = some result) : result.1.Sound := by
  obtain ⟨next, after⟩ := result
  intro left sending
  cases step_goes ran with
  | read reading some =>
    obtain rfl := ReadLoop.sending.inj sending
    exact some
  | @sent whole before enough alive =>
    dsimp only at sending
    split at sending
    · cases sending
    · rename_i more
      obtain rfl := ReadLoop.sending.inj sending
      exact more
  | readEnds | refused | lost => cases sending
  | takes waiting there result => exact sound left ((message_reader result).symm.trans sending)
  | waits | hungUp | wrote | writes | writeFails | shutdown => exact sound left sending

end Forward

namespace Client

variable {task : Client}

variable {granted result : Client × Line} {rest : List ToTask} {message : ToTask} {label : Label}

/-- What is being sent is not empty. -/
def Sound (task : Client) : Prop := ∀ ext left, task.phase = .pumping (.sending ext left) → left ≠ []

theorem spec_cmd_silent (spec : SessionSpec) : spec.cmd.silent = true := by
  unfold SessionSpec.cmd
  split <;> rfl

theorem ask_quietly (task : Client) (line : Line) : Quietly line (task.ask line).2 := .once (spec_cmd_silent _)

theorem begin_quietly (task : Client) (line : Line) :
    (task.begin line).1.holding = 0 ∧ Quietly line (task.begin line).2 := by
  have agent : Quietly line (if task.spec.forwardAgent then line.send agentRequest else line) := by
    split
    · exact .once rfl
    · exact .refl
  cases terminal : task.spec.pty with
  | some req =>
    simp only [begin, terminal]
    exact ⟨rfl, agent.send rfl⟩
  | none =>
    simp only [begin, terminal]
    exact ⟨rfl, agent.trans (ask_quietly task _)⟩

/-- A message while a reply is awaited: data is passed over. -/
theorem reply_does (there : line.inbox = message :: rest) (idle : task.holding = 0)
    (awaits : task.phase = .awaitingPty ∨ task.phase = .awaiting) (granted_idle : granted.1.holding = 0)
    (granted_quietly : Quietly { line with inbox := rest } granted.2) :
    Does (.client task) (.client .recv) remoteMax task.holding line
      (task.onReply { line with inbox := rest } granted (some message)).1.holding
      (task.onReply { line with inbox := rest } granted (some message)).2 := by
  have stopped : (decide (task.phase = .awaitingPty) || decide (task.phase = .awaiting)) = true := by
    rcases awaits with same | same <;> simp [same]
  cases message with
  | reply success =>
    cases success with
    | true => exact .took there idle granted_idle granted_quietly
    | false => exact .took there idle rfl (.once rfl)
  | close => exact .took there idle rfl (.once rfl)
  | data | extData => exact .discarded there idle idle rfl stopped .refl
  | eof | request => exact .took there idle idle .refl

/-- A message for the pump is written, reported or noted. -/
theorem message_does (there : line.inbox = message :: rest) (selecting : task.phase = .pumping .select) :
    Does (.client task) (.client .recv) remoteMax task.holding line (task.onMessage
    { line with inbox := rest } (some message)).1.holding
      (task.onMessage { line with inbox := rest } (some message)).2 := by
  have idle : task.holding = 0 := by simp only [holding, selecting, Work.holding]
  cases message with
  | data bytes => exact .took there idle rfl .refl
  | extData kind bytes =>
    simp only [onMessage]
    split
    · exact .took there idle rfl .refl
    · exact .noted there idle idle .refl
  | close => exact .took there idle rfl (.once rfl)
  | request kind wantReply data =>
    simp only [onMessage]
    split <;> exact .took there idle idle .refl
  | eof | reply => exact .took there idle idle .refl

theorem step_does (sound : task.Sound) (ran : task.step remoteMax line label = some result) :
    Does (.client task) (.client label) remoteMax task.holding line result.1.holding result.2 := by
  cases label with
  | start =>
    have begun := begin_quietly task line
    grind [step, holding]
  | recv =>
    have took := @recv_cases line
    have asked := ask_quietly task
    grind [step, reply_does, message_does, holding, Work.holding, ask, onReply, onMessage, finish, Cmd.silent]
  | send =>
    have turn := @sending_does remoteMax line
    grind [step, Task.ext, Client.ext, Work.ext, Task.unsent, unsent, Work.unsent, holding,
      Work.holding, finish, Cmd.silent, Sound]
  | _ => grind [step, holding, Work.holding, Cmd.silent, windowChange, write]

theorem reply_sound (sound : task.Sound) (next : granted.1.Sound) (line : Line)
    (message : Option ToTask) : (task.onReply line granted message).1.Sound := by
  unfold onReply
  split
  · exact next
  · exact nofun
  · exact nofun
  · exact nofun
  · exact sound

theorem message_sound (sound : task.Sound) (line : Line) (message : Option ToTask) :
    (task.onMessage line message).1.Sound := by
  unfold onMessage
  split
  all_goals grind [Sound, finish]

theorem step_sound (sound : task.Sound) (ran : task.step remoteMax line label = some result) : result.1.Sound := by
  cases label with
  | recv =>
    simp only [step] at ran
    grind [Sound, reply_sound, message_sound, ask]
  | _ => grind [Sound, begin, ask, finish, write, step]

end Client

namespace Server

variable {task : Server}

variable {result : Server × Line} {choices : Choices}

variable {message : ToTask} {rest : List ToTask} {label : Label}

/-- What is being sent is not empty. -/
def Sound (task : Server) : Prop := ∀ ext left, task.phase = .pumping (.sending ext left) → left ≠ []

/-- A routine that ends with nothing in hand and has queued silent commands only. -/
def Plain (line : Line) (result : Server × Line) : Prop := result.1.holding = 0 ∧ Quietly line result.2

theorem Plain.since {between} (plain : Plain between result)
    (quietly : Quietly line between) : Plain line result :=
  ⟨plain.1, quietly.trans plain.2⟩

theorem answer_quietly (line : Line) (wantReply success : Bool) : Quietly line (answer line wantReply success) := by
  unfold answer
  split
  · exact .once rfl
  · exact .refl

section

variable (task : Server) (line : Line)

theorem pump_plain : Plain line (task.pump line) := by
  unfold pump
  split
  · rename_i status _ _
    have report : (exitRequest status).silent = true := by cases status <;> rfl
    exact ⟨rfl, ((Quietly.once report).send rfl).send rfl⟩
  · exact ⟨rfl, .refl⟩

theorem settle_plain : Plain line (task.settle line) := pump_plain _ _

theorem started_plain (program : Program) (piped : Bool) :
    Plain line (task.started line program piped) := by
  unfold started
  dsimp only
  split
  · exact ⟨rfl, .refl⟩
  · exact settle_plain _ _

theorem launch_plain (wantReply spawned : Bool) (program : Program) (piped : Bool) :
    Plain line (task.launch line wantReply spawned program piped) := by
  unfold launch
  split
  · exact (started_plain _ _ _ _).since (answer_quietly _ _ _)
  · exact ⟨rfl, (answer_quietly _ _ _).send rfl⟩

end

theorem request_plain {kind wantReply data}
    (waiting : task.phase = .waiting) (line : Line) :
    Plain line (task.onRequest line choices kind wantReply data) := by
  have idle : task.holding = 0 := by simp only [holding, waiting]
  have launched := @launch_plain
  have answered := answer_quietly line wantReply
  unfold onRequest
  grind [Plain, holding]

/-- A message before a program runs. -/
theorem early_does (there : line.inbox = message :: rest) (waiting : task.phase = .waiting) :
    Does (.server task) (.server (.recv choices)) remoteMax task.holding line
      (task.onEarly { line with inbox := rest } choices (some message)).1.holding
      (task.onEarly { line with inbox := rest } choices (some message)).2 := by
  have idle : task.holding = 0 := by simp only [holding, waiting]
  cases message with
  | data bytes => exact .noted there idle idle .refl
  | extData => exact .discarded there idle idle rfl rfl .refl
  | eof | reply => exact .took there idle idle .refl
  | close => exact .took there idle rfl .refl
  | request kind wantReply data =>
    obtain ⟨now, quietly⟩ := @request_plain _ choices kind wantReply data waiting { line with inbox := rest }
    exact .took there idle now quietly

/-- A message while the child runs. -/
theorem message_does (there : line.inbox = message :: rest) (selecting : task.phase = .pumping .select) :
    Does (.server task) (.server (.recv choices)) remoteMax task.holding line
      (task.onMessage { line with inbox := rest } (some message)).1.holding
      (task.onMessage { line with inbox := rest } (some message)).2 := by
  have idle : task.holding = 0 := by simp only [holding, selecting, Work.holding]
  cases message with
  | data bytes =>
    simp only [onMessage]
    split
    · exact .took there idle rfl .refl
    · obtain ⟨now, quietly⟩ := pump_plain task (({ line with inbox := rest } : Line).send (.consumed bytes.length))
      exact .noted there idle now quietly
  | extData kind bytes =>
    obtain ⟨now, quietly⟩ := pump_plain task { line with inbox := rest }
    exact .discarded there idle now rfl rfl quietly
  | eof =>
    obtain ⟨now, quietly⟩ :=
      pump_plain { task with stdinOpen := task.stdinOpen && task.isPty } { line with inbox := rest }
    exact .took there idle now quietly
  | close => exact .took there idle rfl .refl
  | request kind wantReply data =>
    obtain ⟨now, quietly⟩ := (pump_plain task _).since
      (answer_quietly { line with inbox := rest } wantReply (kind = "window-change"))
    exact .took there idle now quietly
  | reply success =>
    obtain ⟨now, quietly⟩ := pump_plain task { line with inbox := rest }
    exact .took there idle now quietly

theorem step_does (sound : task.Sound) (ran : task.step remoteMax line label = some result) :
    Does (.server task) (.server label) remoteMax task.holding line result.1.holding result.2 := by
  have pumped := pump_plain
  have settled := settle_plain
  cases label with
  | recv choices =>
    have took := @recv_cases line
    grind [step, early_does, message_does, holding, Work.holding, onEarly, onMessage]
  | send =>
    have turn := @sending_does remoteMax line
    grind [step, Task.ext, Server.ext, Work.ext, Task.unsent, unsent, Work.unsent, holding, Work.holding, Sound, Plain]
  | _ => grind [step, holding, Work.holding, Plain]

theorem pump_sound (task : Server) (line : Line) : (task.pump line).1.Sound := by
  unfold pump
  split <;> exact nofun

theorem launch_sound (task : Server) (line : Line) (wantReply spawned : Bool) (program : Program) (piped : Bool) :
    (task.launch line wantReply spawned program piped).1.Sound := by
  unfold launch started
  split
  · dsimp only
    split
    · exact nofun
    · exact pump_sound _ _
  · exact nofun

theorem request_sound (sound : task.Sound) (line : Line) (choices : Choices) (kind : String) (wantReply : Bool)
    (data : Bytes) : (task.onRequest line choices kind wantReply data).1.Sound := by
  unfold onRequest
  grind [Sound, launch_sound]

theorem early_sound (sound : task.Sound) (line : Line) (choices : Choices) (message : Option ToTask) :
    (task.onEarly line choices message).1.Sound := by
  unfold onEarly
  split
  all_goals grind [Sound, request_sound]

theorem message_sound (task : Server) (line : Line) (message : Option ToTask) :
    (task.onMessage line message).1.Sound := by
  unfold onMessage
  split
  all_goals grind [Sound, pump_sound]

theorem step_sound (sound : task.Sound) (ran : task.step remoteMax line label = some result) : result.1.Sound := by
  cases label with
  | recv =>
    simp only [step] at ran
    grind [early_sound, message_sound]
  | _ => grind [Sound, settle, pump_sound, step]

end Server

namespace Task

variable {task next : Task} {label : Label}

/-- What is being sent is not empty. -/
def Sound : Task → Prop
  | .forward task => task.Sound
  | .client task => task.Sound
  | .server task => task.Sound

theorem Fresh.sound (fresh : task.Fresh) : task.Sound := by
  cases fresh with
  | forward | client | server => exact nofun

/-- A step of a task is a step of the task of its kind. -/
theorem step_cases (ran : task.step remoteMax line label = some (next, after)) :
    (∃ mine cause result, task = .forward mine ∧ mine.step remoteMax line cause = some (result, after) ∧
        next = .forward result ∧ label = .forward cause) ∨
      (∃ mine cause result, task = .client mine ∧ mine.step remoteMax line cause = some (result, after) ∧
        next = .client result ∧ label = .client cause) ∨
      (∃ mine cause result, task = .server mine ∧ mine.step remoteMax line cause = some (result, after) ∧
        next = .server result ∧ label = .server cause) := by
  unfold step at ran
  split at ran
  · rename_i mine cause
    obtain ⟨⟨result, between⟩, moved, same⟩ := Option.map_eq_some_iff.mp ran
    cases same
    exact .inl ⟨mine, cause, result, rfl, moved, rfl, rfl⟩
  · rename_i mine cause
    obtain ⟨⟨result, between⟩, moved, same⟩ := Option.map_eq_some_iff.mp ran
    cases same
    exact .inr (.inl ⟨mine, cause, result, rfl, moved, rfl, rfl⟩)
  · rename_i mine cause
    obtain ⟨⟨result, between⟩, moved, same⟩ := Option.map_eq_some_iff.mp ran
    cases same
    exact .inr (.inr ⟨mine, cause, result, rfl, moved, rfl, rfl⟩)
  · cases ran

theorem step_isSession (ran : task.step remoteMax line label = some (next, after)) :
    next.isSession = task.isSession := by
  obtain ⟨mine, cause, result, rfl, moved, rfl, _⟩ | ⟨mine, cause, result, rfl, moved, rfl, _⟩ |
    ⟨mine, cause, result, rfl, moved, rfl, _⟩ := step_cases ran
  all_goals rfl

theorem step_does (sound : task.Sound) (ran : task.step remoteMax line label = some (next, after)) :
    Does task label remoteMax task.holding line next.holding after := by
  obtain ⟨mine, cause, result, rfl, moved, rfl, rfl⟩ | ⟨mine, cause, result, rfl, moved, rfl, rfl⟩ |
    ⟨mine, cause, result, rfl, moved, rfl, rfl⟩ := step_cases ran
  · exact Forward.step_does sound moved
  · exact Client.step_does sound moved
  · exact Server.step_does sound moved

theorem step_sound (sound : task.Sound) (ran : task.step remoteMax line label = some (next, after)) :
    next.Sound := by
  obtain ⟨mine, cause, result, rfl, moved, rfl, _⟩ | ⟨mine, cause, result, rfl, moved, rfl, _⟩ |
    ⟨mine, cause, result, rfl, moved, rfl, _⟩ := step_cases ran
  · exact Forward.step_sound sound moved
  · exact Client.step_sound sound moved
  · exact Server.step_sound sound moved

end Task

end Tasks

section Consequences

variable {task : Task} {label : Task.Label} {remoteMax held kept : Nat} {line after : Line}

variable {cmd : Cmd}

/-- A command a task may queue: data only in chunks of a permitted size. -/
def Cmd.Fits (remoteMax : Nat) : Cmd → Prop
  | .data bytes | .extData _ bytes => bytes ≠ [] ∧ bytes.length ≤ remoteMax
  | _ => True

theorem silent_fits (silent : cmd.silent = true) : cmd.Fits remoteMax := by
  cases cmd with
  | data | extData => cases silent
  | _ => trivial

theorem chunk_fits {left : Bytes} (ext : Option Nat) (some : left ≠ []) (positive : 0 < remoteMax) :
    (Line.chunk ext (left.take (min left.length remoteMax))).Fits remoteMax := by
  have long : 0 < left.length := length_pos_iff.mpr some
  have fits : left.take (min left.length remoteMax) ≠ [] ∧
      (left.take (min left.length remoteMax)).length ≤ remoteMax := by
    rw [← length_pos_iff, length_take]
    omega
  cases ext with
  | none | some => exact fits

/-- New commands of a step fit. -/
theorem Quietly.fits (quietly : Quietly line after) (all : ∀ cmd ∈ line.cmds, cmd.Fits remoteMax) :
    ∀ cmd ∈ after.cmds, cmd.Fits remoteMax := by
  intro cmd member
  rcases quietly.cmds member with old | silent
  · exact all cmd old
  · exact silent_fits silent

theorem send_fits (fits : cmd.Fits remoteMax) (all : ∀ other ∈ line.cmds, other.Fits remoteMax) :
    ∀ other ∈ (line.send cmd).cmds, other.Fits remoteMax := by
  intro other member
  unfold Line.send at member
  split at member
  · exact all other member
  · rcases mem_append.mp member with old | new
    · exact all other old
    · rw [mem_singleton.mp new]
      exact fits

theorem Does.fits (does : Does task label remoteMax held line kept after) (positive : 0 < remoteMax)
    (all : ∀ cmd ∈ line.cmds, cmd.Fits remoteMax) : ∀ cmd ∈ after.cmds, cmd.Fits remoteMax := by
  cases does with
  | said _ quietly | waited _ _ quietly | gaveUp _ _ quietly => exact quietly.fits all
  | took _ _ _ quietly | discarded _ _ _ _ _ quietly => exact quietly.fits all
  | noted _ _ _ quietly => exact quietly.fits (@send_fits _ _ (.consumed _) trivial all)
  | reported _ quietly => exact quietly.fits (@send_fits _ _ (.consumed _) trivial all)
  | lost _ _ _ quietly => exact quietly.fits all
  | @paid ext left _ _ _ _ some _ _ _ quietly =>
    apply quietly.fits
    intro cmd member
    rcases mem_append.mp member with old | new
    · exact all cmd old
    · rw [mem_singleton.mp new]
      exact chunk_fits ext some positive

theorem send_grows (line : Line) (cmd : Cmd) : ∃ more, (line.send cmd).cmds = line.cmds ++ more := by
  cases alive : line.gone with
  | true => exact ⟨[], by simp only [Line.send, alive, if_true, append_nil]⟩
  | false => exact ⟨[cmd], send_alive alive⟩

/-- A step adds its commands after those that were queued. -/
theorem Does.grows (does : Does task label remoteMax held line kept after) :
    ∃ more, after.cmds = line.cmds ++ more := by
  cases does with
  | said _ quietly | gaveUp _ _ quietly => exact quietly.grows
  | waited _ _ quietly | took _ _ _ quietly | discarded _ _ _ _ _ quietly =>
    have grown := quietly.grows
    exact grown
  | @noted message rest _ _ _ _ _ quietly =>
    obtain ⟨first, sent⟩ := send_grows { line with inbox := rest } (.consumed message.size)
    obtain ⟨more, grown⟩ := quietly.grows
    exact ⟨first ++ more, by rw [grown, sent, append_assoc]⟩
  | reported _ quietly =>
    obtain ⟨first, sent⟩ := send_grows line (.consumed held)
    obtain ⟨more, grown⟩ := quietly.grows
    exact ⟨first ++ more, by rw [grown, sent, append_assoc]⟩
  | lost _ _ _ quietly =>
    have grown := quietly.grows
    exact grown
  | paid _ _ _ _ _ _ quietly =>
    obtain ⟨more, grown⟩ := quietly.grows
    exact ⟨_, by rw [grown, append_assoc]⟩

/-- A step takes the next message or none. -/
theorem Does.inbox (does : Does task label remoteMax held line kept after) :
    after.inbox = line.inbox ∨ ∃ message, line.inbox = message :: after.inbox := by
  cases does with
  | said _ quietly | waited _ _ quietly | gaveUp _ _ quietly => exact .inl quietly.alike.inbox
  | took there _ _ quietly | discarded there _ _ _ _ quietly =>
    rw [quietly.alike.inbox]
    exact .inr ⟨_, there⟩
  | noted there _ _ quietly =>
    rw [quietly.alike.inbox, (send_same _ _).2.1]
    exact .inr ⟨_, there⟩
  | reported _ quietly => exact .inl (quietly.alike.inbox.trans (send_same _ _).2.1)
  | lost _ _ _ quietly => exact .inl quietly.alike.inbox
  | paid _ _ _ _ _ _ quietly => exact .inl quietly.alike.inbox

/-- A step spends credit and never gains any, and pays for what it queues exactly
its size while somebody takes commands. Whether the loop is there does not change. -/
structure Pays (line after : Line) : Prop where
  spent : after.credit.permits ≤ line.credit.permits
  paid : after.credit.permits + after.outgoing ≤ line.credit.permits + line.outgoing
  exactly : line.gone = false → after.credit.permits + after.outgoing = line.credit.permits + line.outgoing
  closed : after.credit.closed = line.credit.closed
  hungUp : after.hungUp = line.hungUp
  gone : after.gone = line.gone

theorem Pays.refl (line : Line) : Pays line line := ⟨Nat.le_refl _, Nat.le_refl _, fun _ => rfl, rfl, rfl, rfl⟩

theorem Quietly.pays {between} (quietly : Quietly between after) (pays : Pays line between) :
    Pays line after := by
  have alike := quietly.alike
  refine ⟨?_, ?_, ?_, ?_, alike.hungUp.trans pays.hungUp, alike.gone.trans pays.gone⟩
  · rw [alike.credit]
    exact pays.spent
  · rw [alike.credit, alike.outgoing]
    exact pays.paid
  · rw [alike.credit, alike.outgoing]
    exact pays.exactly
  · rw [alike.credit]
    exact pays.closed

theorem Pays.report (line : Line) (inbox : List ToTask) (count : Nat) :
    Pays line (({ line with inbox } : Line).send (.consumed count)) := by
  obtain ⟨credit, _, hungUp, gone⟩ := send_same ({ line with inbox } : Line) (.consumed count)
  have outgoing : (({ line with inbox } : Line).send (.consumed count)).outgoing = line.outgoing := send_outgoing rfl
  refine ⟨?_, ?_, fun _ => ?_, ?_, hungUp, gone⟩
  · exact Nat.le_of_eq (by rw [credit])
  · exact Nat.le_of_eq (by rw [credit, outgoing])
  · rw [credit, outgoing]
  · rw [credit]

theorem Does.pays (does : Does task label remoteMax held line kept after) : Pays line after := by
  cases does with
  | said _ quietly | gaveUp _ _ quietly => exact quietly.pays (.refl line)
  | waited _ _ quietly | took _ _ _ quietly | discarded _ _ _ _ _ quietly =>
    exact quietly.pays ⟨Nat.le_refl _, Nat.le_refl _, fun _ => rfl, rfl, rfl, rfl⟩
  | noted _ _ _ quietly => exact quietly.pays (.report line _ _)
  | reported _ quietly => exact quietly.pays (.report line line.inbox _)
  | lost dead spent closed quietly =>
    exact quietly.pays ⟨spent, Nat.add_le_add_right spent _,
      fun alive => absurd (alive.symm.trans dead) Bool.false_ne_true, closed, rfl, rfl⟩
  | @paid ext left _ _ _ _ some _ enough _ quietly =>
    refine quietly.pays ⟨Nat.sub_le _ _, ?_, fun _ => ?_, rfl, rfl, rfl⟩
    all_goals
      simp only [Line.outgoing, map_append, map_cons, map_nil, sum_append, sum_singleton,
        chunk_size, length_take]
      omega

end Consequences

end Shh.Channels
