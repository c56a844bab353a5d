import Shh.Flow

/-!
# No data where it would be passed over

A forwarded stream and a session's client send no extended data, so nothing a
forwarded stream or a session's server would pass over ever reaches them. A session's
client passes over data while it waits for a reply. What is on its way to it, from
the server's commands to its own queue, is one stream of messages in order; until the
server has been asked for a program the stream holds no data, and after that a reply
comes first.
-/

namespace Shh.Channels

open List Wire Semaphores Runs

def ToTask.message : ToTask → Message
  | .data bytes => .data bytes
  | .extData kind bytes => .extData kind bytes
  | .eof => .eof
  | .close => .close
  | .request kind wantReply body => .request kind wantReply body
  | .reply success => .reply success

/-- The message a command sends, if it does. -/
def Cmd.message : Cmd → Option Message
  | .data bytes => some (.data bytes)
  | .extData kind bytes => some (.extData kind bytes)
  | .request kind wantReply body => some (.request kind wantReply body)
  | .reply success => some (.reply success)
  | .eof => some .eof
  | .close => some .close
  | .consumed _ => none

section Plain

variable {platform : Platform} {line after : Line} {remoteMax : Nat} {stay next : End} {label : End.Label}

variable {task : Task} {kind : Nat} {bytes : Bytes} {chan : Chan} {turn : Turn} {message : Message}

/-- A step of a task that sends no extended data queues none. -/
theorem Does.plain {label held kept}
    (does : Does task label remoteMax held line kept after) (plain : task.ext = none)
    (member : .extData kind bytes ∈ after.cmds) : .extData kind bytes ∈ line.cmds := by
  have quiet {line : Line} (quietly : Quietly line after) : .extData kind bytes ∈ line.cmds :=
    (quietly.cmds member).resolve_right nofun
  cases does with
  | said _ quietly | gaveUp _ _ quietly => exact quiet quietly
  | waited _ _ quietly | took _ _ _ quietly | discarded _ _ _ _ _ quietly =>
    have old := quiet quietly
    exact old
  | noted _ _ _ quietly => exact (mem_send (quiet quietly)).resolve_right nofun
  | reported _ quietly => exact (mem_send (quiet quietly)).resolve_right nofun
  | lost _ _ _ quietly =>
    have old := quiet quietly
    exact old
  | paid marked _ _ _ _ _ quietly =>
    obtain rfl := marked.symm.trans plain
    exact (mem_append.mp (quiet quietly)).resolve_right (by simp [Line.chunk])

theorem Client.message_ext {task : Client} (plain : task.ext = none) (line : Line) (message : Option ToTask) :
    (task.onMessage line message).1.ext = none := by
  unfold onMessage
  split <;> grind [Client.ext, finish, Work.ext]

theorem Client.reply_ext {task : Client} {granted : Client × Line} (plain : task.ext = none)
    (next : granted.1.ext = none) (line : Line) (message : Option ToTask) :
    (task.onReply line granted message).1.ext = none := by
  unfold onReply
  split <;> grind [Client.ext, finish]

theorem Client.step_ext {task : Client} {label} {result : Client × Line} (plain : task.ext = none)
    (ran : task.step remoteMax line label = some result) : result.1.ext = none := by
  cases label with
  | recv =>
    simp only [step] at ran
    grind [reply_ext, message_ext, ask, Client.ext, Work.ext]
  | _ => grind [step, Client.ext, Work.ext, begin, ask, finish, write]

/-- A forwarded stream, or a session's client that sends its standard input. -/
def Task.Single : Task → Prop
  | .forward _ => True
  | .client task => task.ext = none
  | .server _ => False

theorem Task.Single.plain (single : task.Single) : task.ext = none := by
  cases task with
  | forward task => rfl
  | client task => exact single
  | server task => exact single.elim

theorem Task.step_single {later : Task} {label} (single : task.Single)
    (ran : task.step remoteMax line label = some (later, after)) : later.Single := by
  obtain ⟨mine, cause, result, rfl, moved, rfl, _⟩ | ⟨mine, cause, result, rfl, moved, rfl, _⟩ |
    ⟨mine, cause, result, rfl, moved, rfl, _⟩ := Task.step_cases ran
  · trivial
  · exact Client.step_ext single moved
  · exact single.elim

/-- No extended data is queued or was sent. -/
structure Single (stay : End) : Prop where
  task : stay.task.Single
  queued : ∀ kind bytes, .extData kind bytes ∉ stay.line.cmds
  sent : ∀ kind bytes, .extData kind bytes ∉ stay.sent

theorem Single.falls (single : Single stay) : Single stay.fallen := ⟨single.task, nofun, single.sent⟩

theorem command_ext {cmd}
    (member : .extData kind bytes ∈ (chan.command line cmd).sent) : cmd = .extData kind bytes := by
  cases cmd <;> grind

theorem deliver_ext (ok : chan.deliver platform line message = .ok turn) : .extData kind bytes ∉ turn.sent := by
  intro member
  have fits := (deliver_grants ok).fits 0 _ member
  exact fits.1 (length_eq_zero_iff.mp (Nat.le_zero.mp fits.2))

theorem single_step (linked : Linked stay) (single : Single stay) (ran : stay.step platform label = some next) :
    Single next := by
  cases End.step_happens ran with
  | unheard _ => exact ⟨single.task, single.queued, single.sent⟩
  | heard _ ok =>
    refine End.take_keeps Single (fun _ => Single.falls) ⟨single.task, ?_, ?_⟩
    · rw [(deliver_grants ok).cmds]
      exact single.queued
    · intro kind bytes member
      exact (mem_append.mp member).elim (single.sent kind bytes) (deliver_ext ok)
  | broken _ _ => exact Single.falls ⟨single.task, single.queued, single.sent⟩
  | skipped queued _ =>
    exact ⟨single.task, fun kind bytes member =>
      single.queued kind bytes (queued ▸ mem_cons_of_mem _ member), single.sent⟩
  | @processed cmd rest chan queued _ =>
    refine End.take_keeps Single (fun _ => Single.falls) ⟨single.task, ?_, ?_⟩
    · intro kind bytes member
      rw [(command_carries chan { stay.line with cmds := rest } 0 cmd).cmds] at member
      exact single.queued kind bytes (queued ▸ mem_cons_of_mem _ member)
    · intro kind bytes member
      rcases mem_append.mp member with old | new
      · exact single.sent kind bytes old
      · exact single.queued kind bytes (queued ▸ command_ext new ▸ mem_cons_self)
  | fell => exact single.falls
  | acted moved =>
    refine ⟨Task.step_single single.task moved, ?_, single.sent⟩
    intro kind bytes member
    exact single.queued kind bytes ((Task.step_does linked.sound moved).plain single.task.plain member)

/-- What the task has yet to look at was heard. -/
def Received (stay : End) : Prop := ∀ event ∈ stay.line.inbox, event.message ∈ stay.heard

theorem deliver_pushes (ok : chan.deliver platform line message = .ok turn) :
    turn.line.inbox = line.inbox ∨ ∃ event, event.message = message ∧ turn.line.inbox = line.inbox ++ [event] := by
  cases message <;> grind [ToTask.message]

theorem command_inbox (chan : Chan) (line : Line) (cmd : Cmd) : (chan.command line cmd).line.inbox = line.inbox := by
  cases cmd <;> grind

theorem received_step (linked : Linked stay) (received : Received stay)
    (ran : stay.step platform label = some next) : Received next := by
  have falls (stay : End) (received : Received stay) : Received stay.fallen := received
  have more {message} : Received { stay with heard := stay.heard ++ [message] } :=
    fun event member => mem_append_left _ (received event member)
  cases End.step_happens ran with
  | unheard _ => exact more
  | heard _ ok =>
    refine End.take_keeps Received falls ?_
    intro event member
    dsimp only at member ⊢
    rcases deliver_pushes ok with same | ⟨pushed, message, grown⟩
    · rw [same] at member
      exact more event member
    · rw [grown] at member
      rcases mem_append.mp member with old | new
      · exact more event old
      · rw [mem_singleton.mp new, message]
        simp
  | broken _ _ => exact falls _ more
  | skipped | fell => exact received
  | processed _ _ =>
    refine End.take_keeps Received falls ?_
    intro event member
    dsimp only at member ⊢
    rw [command_inbox] at member
    exact received event member
  | acted moved =>
    intro event member
    rcases (Task.step_does linked.sound moved).inbox with same | ⟨first, popped⟩
    · exact received event (same ▸ member)
    · exact received event (popped ▸ mem_cons_of_mem _ member)

end Plain

section Streams

variable {α : Type} {f : Message → Option α}

/-- A view of messages that sees none the loop makes or keeps to itself. -/
structure Inert (f : Message → Option α) : Prop where
  adjust : ∀ add, f (.adjust add) = none
  eof : f .eof = none
  close : f .close = none

/-- What is on its way to an end's task, from its queue back to the other's commands,
as far as it is in view. -/
def Pair.stream (f : Message → Option α) (pair : Pair) (side : Side) : List α :=
  ((pair side).line.inbox.map ToTask.message).filterMap f ++ (pair.flight side).filterMap f ++
    ((pair side.other).line.cmds.filterMap Cmd.message).filterMap f

theorem filterMap_cons_toList {β : Type} (g : β → Option α) (first : β) (rest : List β) :
    (first :: rest).filterMap g = (g first).toList ++ rest.filterMap g := by
  cases seen : g first with
  | none | some => simp [seen]

/-- A session's loop queues what it hears for the task and answers nothing itself. -/
theorem deliver_stream {platform} {chan : Chan} {line : Line} {turn : Turn} {message}
    (inert : Inert f) (session : chan.isSession = true) (other : message ≠ .close)
    (ok : chan.deliver platform line message = .ok turn) :
    turn.sent = [] ∧ (turn.line.inbox.map ToTask.message).filterMap f =
      (line.inbox.map ToTask.message).filterMap f ++ (f message).toList := by
  have pushed (event : ToTask) : ((line.push event).inbox.map ToTask.message).filterMap f =
      (line.inbox.map ToTask.message).filterMap f ++ (f event.message).toList := by
    simp only [Line.push, map_append, filterMap_append, map_cons, map_nil, filterMap_cons_toList,
      filterMap_nil, append_nil]
  have silent := inert.adjust
  cases message <;> grind [ToTask.message]

/-- A command sends its message. -/
theorem command_stream {cmd : Cmd} (chan : Chan) (line : Line) (inert : Inert f) (other : cmd ≠ .close) :
    (chan.command line cmd).sent.filterMap f = (cmd.message.bind f).toList := by
  cases cmd with
  | data | extData | request | reply =>
    simp only [Chan.command, filterMap_cons_toList, filterMap_nil, append_nil]
    rfl
  | eof =>
    simp only [Chan.command, Cmd.message, Option.bind_some, inert.eof]
    split
    · rfl
    · simp [inert.eof]
  | close => exact absurd rfl other
  | consumed count =>
    simp only [Chan.command, Chan.onConsumed, Cmd.message]
    split
    · simp [inert.adjust]
    · rfl

variable {platform : Side → Platform} {pair next : Pair} {mover : Side} {label : End.Label}

theorem flight_append {side : Side} {more} (carried : pair.Carried) :
    ((pair side.other).sent ++ more).drop (pair side).heard.length = pair.flight side ++ more := by
  rw [Pair.flight, drop_append_of_le_length (carried side).length_le]

/-- The loops of a session move messages along their streams and change none. -/
theorem Pair.stream_loop (inert : Inert f) (carried : pair.Carried) (linked : ∀ side, Linked (pair side))
    (flowing : pair.Flowing) (sessions : ∀ side, (pair side).task.isSession = true)
    (ran : pair.step platform (mover, label) = some next) (up : label ≠ .fall) (loop : ∀ cause, label ≠ .act cause)
    (side : Side) : next.stream f side = pair.stream f side := by
  obtain ⟨stay, moved, rfl, allowed⟩ := step_cases ran
  cases End.step_happens moved with
  | unheard dropped => exact absurd dropped (flowing.unclosed mover).there
  | @heard message chan turn there ok =>
    obtain ⟨other, _, _⟩ := @Flowing.fair platform pair flowing carried _ _ allowed
    obtain ⟨_, _, _, _, going⟩ := deliver_unclosed other ok
    have session := ((linked mover).kind chan there).trans (sessions mover)
    obtain ⟨none, inbox⟩ := deliver_stream inert session other ok
    obtain ⟨rest, flight⟩ := allows_hear allowed
    rw [take_going going, none]
    rcases Side.eq_or_other side mover with rfl | rfl
    · have shorter : (pair side.other).sent.drop ((pair side).heard.length + 1) = rest := by
        rw [← drop_drop]
        have : (pair side.other).sent.drop (pair side).heard.length = message :: rest := flight
        rw [this]
        rfl
      simp only [stream, Pair.flight, Function.update_self, Function.update_of_ne side.other_ne, inbox,
        length_append, length_singleton, shorter]
      rw [show (pair side.other).sent.drop (pair side).heard.length = message :: rest from flight,
        filterMap_cons_toList]
      simp only [append_assoc]
    · simp only [stream, Pair.flight, Side.other_other, Function.update_self, Function.update_of_ne mover.other_ne,
        append_nil, (deliver_grants ok).cmds]
  | @broken message chan error there refused =>
    obtain ⟨_, accepted, _⟩ := @Flowing.fair platform pair flowing carried _ _ allowed
    obtain ⟨turn, ok⟩ := accepted _ there
    cases ok.symm.trans refused
  | skipped _ dropped => exact absurd dropped (flowing.unclosed mover).there
  | @processed cmd rest chan queued there =>
    have other : cmd ≠ .close := by
      rintro rfl
      exact (flowing.unclosed mover).queued (queued ▸ mem_cons_self)
    obtain ⟨_, _, _, _, going, same⟩ :=
      @command_unclosed chan { (pair mover).line with cmds := rest } cmd other
    have sent := command_stream chan { (pair mover).line with cmds := rest } inert other
    rw [take_going going, same]
    rcases Side.eq_or_other side mover with rfl | rfl
    · simp only [stream, Pair.flight, Function.update_self, Function.update_of_ne side.other_ne]
    · have longer := @flight_append pair mover.other (chan.command { (pair mover).line with cmds := rest } cmd).sent
        carried
      rw [Side.other_other] at longer
      have popped : ((cmd :: rest).filterMap Cmd.message).filterMap f =
          (cmd.message.bind f).toList ++ (rest.filterMap Cmd.message).filterMap f := by
        rw [filterMap_filterMap, filterMap_filterMap, filterMap_cons_toList]
      simp only [stream, Pair.flight, Side.other_other, Function.update_self, Function.update_of_ne mover.other_ne]
      rw [longer, filterMap_append, sent, queued, popped]
      simp only [Pair.flight, Side.other_other, append_assoc]
  | fell => exact absurd rfl up
  | acted _ => exact absurd rfl (loop _)

end Streams

section Stages

/-- What a session's client waits for or passes over: data, or a reply. -/
def speech : Message → Option Bool
  | .data _ | .extData _ _ => some true
  | .reply _ => some false
  | _ => none

/-- What is asked of a server, and whether a reply is wanted. -/
def asks : Message → Option (String × Bool)
  | .request kind wantReply _ => some (kind, wantReply)
  | _ => none

theorem speech_inert : Inert speech := ⟨fun _ => rfl, rfl, rfl⟩

theorem asks_inert : Inert asks := ⟨fun _ => rfl, rfl, rfl⟩

/-- Commands, as far as they are in view. -/
def viewed {α : Type} (f : Message → Option α) (cmds : List Cmd) : List α := (cmds.filterMap Cmd.message).filterMap f

/-- Requests that start a program. -/
def isProgram (kind : String) : Bool := kind = "exec" || kind = "shell" || kind = "subsystem"

variable {line : Line} {remoteMax : Nat}

namespace Server

variable {task : Server} {result : Server × Line}

variable {kind : String} {wantReply : Bool} {data : Bytes}

theorem answer_cmds (alive : line.gone = false) (wantReply success : Bool) :
    (answer line wantReply success).cmds = line.cmds ++ (if wantReply then [.reply success] else []) := by
  unfold answer
  split
  · exact send_alive alive
  · exact (append_nil _).symm

/-- What a server that waits makes of a message, if it goes on. -/
def Waits (line : Line) (message : ToTask) (result : Server × Line) : Prop :=
  result.1.running = true → ∃ more, result.2.cmds = line.cmds ++ more ∧
    ((result.1.phase = .waiting ∧ true ∉ viewed speech more) ∨
      ∃ kind wantReply data, message = .request kind wantReply data ∧ isProgram kind = true ∧
        (wantReply = true → (viewed speech more).head? = some false))

/-- It answers and goes on waiting. -/
theorem Waits.answered {message} {next : Server} (alive : line.gone = false) (waiting : next.phase = .waiting)
    (wantReply success : Bool) : Waits line message (next, answer line wantReply success) := by
  intro _
  refine ⟨_, answer_cmds alive wantReply success, .inl ⟨waiting, ?_⟩⟩
  split <;> simp [viewed, Cmd.message, speech]

theorem launch_waits (alive : line.gone = false)
    (asked : isProgram kind = true) (spawned : Bool) (what : Program) (piped : Bool) :
    Waits line (.request kind wantReply data) (task.launch line wantReply spawned what piped) := by
  intro running
  unfold launch at running ⊢
  split at running
  · rename_i yes
    rw [if_pos yes]
    obtain ⟨more, grown⟩ := (started_plain task (answer line wantReply true) what piped).2.grows
    refine ⟨_, by rw [grown, answer_cmds alive, append_assoc], .inr ⟨kind, wantReply, data, rfl, asked, ?_⟩⟩
    rintro rfl
    rfl
  · cases running

theorem request_waits {choices} (alive : line.gone = false) (waiting : task.phase = .waiting) :
    Waits line (.request kind wantReply data) (task.onRequest line choices kind wantReply data) := by
  unfold onRequest
  split
  · exact .answered alive waiting _ _
  · split
    · exact .answered alive waiting _ _
    · split
      · exact .answered alive waiting _ _
      · split
        · rename_i either
          exact launch_waits alive (by simpa [isProgram] using Or.inl either) _ _ _
        · split
          · rename_i subsystem
            split
            · exact .answered alive waiting _ _
            · exact launch_waits alive (by rw [subsystem]; rfl) _ _ _
          · exact .answered alive waiting _ _

theorem waiting_step {label} (waiting : task.phase = .waiting) (alive : line.gone = false)
    (ran : task.step remoteMax line label = some result) (running : result.1.running = true) :
    ∃ message rest, line.inbox = message :: rest ∧ Waits line message result := by
  cases label with
  | recv choices =>
    simp only [step] at ran
    split at ran
    · cases ran
    · rename_i received between took
      simp only [waiting] at ran
      cases ran
      obtain ⟨message, rest, there, rfl, rfl⟩ | ⟨_, _, rfl, rfl⟩ := recv_cases took
      · refine ⟨message, rest, there, ?_⟩
        cases message with
        | data bytes =>
          intro _
          exact ⟨_, @send_alive _ { line with inbox := rest } alive, .inl ⟨waiting, by simp [viewed, Cmd.message]⟩⟩
        | extData | eof | reply =>
          intro _
          exact ⟨[], (append_nil _).symm, .inl ⟨waiting, by rintro ⟨⟩⟩⟩
        | close => cases running
        | request kind wantReply data => exact @request_waits { line with inbox := rest } _ _ _ _ _ alive waiting
      · cases running
  | _ =>
    simp only [step, waiting] at ran
    cases ran

end Server

namespace Client

variable {task : Client} {result : Client × Line}

variable {label : Label} {work : Work}

theorem spec_cmd_asks (spec : SessionSpec) : ∃ kind, viewed asks [spec.cmd] = [(kind, true)] := by
  unfold SessionSpec.cmd
  split <;> exact ⟨_, rfl⟩

/-- Programs are asked for with a reply. -/
def Wanted (cmds : List Cmd) : Prop := ∀ ask ∈ viewed asks cmds, isProgram ask.1 = true → ask.2 = true

/-- No program is asked for. -/
def Preparing (cmds : List Cmd) : Prop := ∀ ask ∈ viewed asks cmds, isProgram ask.1 = false

theorem spec_cmd_wanted (spec : SessionSpec) : Wanted [spec.cmd] := by
  obtain ⟨kind, same⟩ := spec_cmd_asks spec
  intro ask member _
  rw [same, mem_singleton] at member
  rw [member]

theorem created_step (created : task.phase = .created) (alive : line.gone = false)
    (ran : task.step remoteMax line label = some result) :
    result.2.inbox = line.inbox ∧ ∃ more, result.2.cmds = line.cmds ++ more ∧
      ((result.1.phase = .awaitingPty ∧ Preparing more) ∨ (result.1.phase = .awaiting ∧ Wanted more)) := by
  cases label with
  | start =>
    simp only [step, created] at ran
    cases ran
    -- Agent forwarding is asked for first, without a reply.
    obtain ⟨first, early, agent⟩ : ∃ first early,
        (if task.spec.forwardAgent then line.send agentRequest else line) = first ∧ first.inbox = line.inbox ∧
        first.gone = false ∧ first.cmds = line.cmds ++ early ∧ Preparing early := by
      split
      · refine ⟨_, [agentRequest], rfl, (send_same _ _).2.1, (send_same _ _).2.2.2.trans alive, send_alive alive, ?_⟩
        intro ask member
        obtain rfl := mem_singleton.mp member
        rfl
      · exact ⟨line, [], rfl, rfl, alive, (append_nil _).symm, by rintro _ ⟨⟩⟩
    obtain ⟨same, inbox, unbroken, cmds, preparing⟩ := agent
    simp only [begin, same]
    have view (last : Cmd) : viewed asks (early ++ [last]) = viewed asks early ++ viewed asks [last] := by
      simp [viewed]
    split
    · rename_i req _
      refine ⟨(send_same _ _).2.1.trans inbox, early ++ [req.cmd], ?_, .inl ⟨rfl, ?_⟩⟩
      · rw [send_alive unbroken, cmds, append_assoc]
      · intro ask member
        rw [view, mem_append] at member
        rcases member with old | new
        · exact preparing ask old
        · obtain rfl := mem_singleton.mp new
          rfl
    · refine ⟨(send_same _ _).2.1.trans inbox, early ++ [task.spec.cmd], ?_, .inr ⟨rfl, ?_⟩⟩
      · exact (send_alive unbroken).trans (by rw [cmds, append_assoc])
      · intro ask member wanted
        rw [view, mem_append] at member
        rcases member with old | new
        · cases (preparing ask old).symm.trans wanted
        · exact spec_cmd_wanted task.spec ask new wanted
  | recv =>
    simp only [step, created] at ran
    split at ran <;> cases ran
  | _ =>
    simp only [step, created] at ran
    cases ran

/-- The next message, for a client that waits for a reply. -/
theorem recv_step (waits : task.phase = .awaitingPty ∨ task.phase = .awaiting)
    (ran : task.step remoteMax line label = some result) (running : result.1.running = true) :
    ∃ message rest, line.inbox = message :: rest ∧ result = task.onReply { line with inbox := rest }
      (if task.phase = .awaitingPty then task.ask { line with inbox := rest }
        else ({ task with phase := .pumping .select }, { line with inbox := rest })) (some message) := by
  cases label with
  | recv =>
    simp only [step] at ran
    split at ran
    · cases ran
    · rename_i received between took
      obtain ⟨message, rest, there, rfl, rfl⟩ | ⟨_, _, rfl, rfl⟩ := recv_cases took
      · refine ⟨message, rest, there, ?_⟩
        rcases waits with awaiting | awaiting
        all_goals
          simp only [awaiting] at ran ⊢
          exact (Option.some.inj ran).symm
      · rcases waits with awaiting | awaiting
        all_goals
          simp only [awaiting] at ran
          cases ran
          cases running
  | _ =>
    rcases waits with awaiting | awaiting
    all_goals
      simp only [step, awaiting] at ran
      cases ran

theorem awaiting_pty_step (awaiting : task.phase = .awaitingPty) (alive : line.gone = false)
    (ran : task.step remoteMax line label = some result) (running : result.1.running = true) :
    ∃ message rest more, line.inbox = message :: rest ∧ result.2.inbox = rest ∧ result.2.cmds = line.cmds ++ more ∧
      ((result.1.phase = .awaitingPty ∧ more = []) ∨ (result.1.phase = .awaiting ∧ Wanted more)) := by
  obtain ⟨message, rest, there, rfl⟩ := recv_step (.inl awaiting) ran running
  rw [if_pos awaiting] at running ⊢
  cases message with
  | reply success =>
    cases success with
    | true =>
      exact ⟨_, rest, [task.spec.cmd], there, (send_same _ _).2.1, @send_alive _ { line with inbox := rest } alive,
        .inr ⟨rfl, spec_cmd_wanted task.spec⟩⟩
    | false => cases running
  | close => cases running
  | _ => exact ⟨_, rest, [], there, rfl, (append_nil _).symm, .inl ⟨awaiting, rfl⟩⟩

theorem awaiting_step (awaiting : task.phase = .awaiting)
    (ran : task.step remoteMax line label = some result) (running : result.1.running = true) :
    ∃ message rest, line.inbox = message :: rest ∧ result.2.inbox = rest ∧ result.2.cmds = line.cmds ∧
      ((result.1.phase = .awaiting ∧ ∀ success, message ≠ .reply success) ∨ result.1.phase = .pumping .select) := by
  obtain ⟨message, rest, there, rfl⟩ := recv_step (.inr awaiting) ran running
  rw [if_neg (by rw [awaiting]; exact nofun)] at running ⊢
  cases message with
  | reply success =>
    cases success with
    | true => exact ⟨_, rest, there, rfl, rfl, .inr rfl⟩
    | false => cases running
  | close => cases running
  | _ => exact ⟨_, rest, there, rfl, rfl, .inl ⟨awaiting, nofun⟩⟩

theorem message_pumping (pumping : task.phase = .pumping work) (line : Line) (message : Option ToTask)
    (running : (task.onMessage line message).1.running = true) :
    ∃ work, (task.onMessage line message).1.phase = .pumping work := by
  unfold onMessage at running ⊢
  split <;> grind [finish, Client.running]

theorem pumping_step (pumping : task.phase = .pumping work)
    (ran : task.step remoteMax line label = some result) (running : result.1.running = true) :
    ∃ work, result.1.phase = .pumping work := by
  cases label with
  | recv =>
    simp only [step] at ran
    grind [message_pumping]
  | _ => grind [step, write, finish, Client.running]

end Client

end Stages

section Ordered

variable {pair : Pair} {mover : Side}

variable {message : ToTask} {client : Client} {server : Server} {after : Line}

/-- Where a client and a server stand, by what is on the way between them. -/
inductive Stage (client : Client) (server : Server) (toClient : List Bool)
    (toServer : List (String × Bool)) : Prop where
  | preparing (phase : client.phase = .created ∨ client.phase = .awaitingPty) (waiting : server.phase = .waiting)
      (silent : true ∉ toClient) (unasked : ∀ ask ∈ toServer, isProgram ask.1 = false)
  /-- The client waits for its program: the server has not been asked yet, or its
  reply comes before any data. -/
  | asked (phase : client.phase = .awaiting)
      (ordered : server.phase = .waiting ∧ true ∉ toClient ∨ toClient.head? = some false)
      (wanted : ∀ ask ∈ toServer, isProgram ask.1 = true → ask.2 = true)
  | going {work : Work} (phase : client.phase = .pumping work)

/-- The opener's task is a client, the acceptor's a server, and they are in step. -/
def Pair.InStep (pair : Pair) : Prop :=
  ∃ client server, (pair .opener).task = .client client ∧ (pair .acceptor).task = .server server ∧
    Stage client server (pair.stream speech .opener) (pair.stream asks .acceptor)

variable {α : Type} (f : Message → Option α) {task : Task} {line : Line}

/-- A task's step takes from the stream to it what it takes from its queue. -/
theorem Pair.stream_taken (popped : (pair mover).line.inbox = message :: line.inbox) :
    pair.stream f mover = (f message.message).toList ++
      Pair.stream f (Function.update pair mover { pair mover with task, line }) mover := by
  simp only [Pair.stream, Pair.flight, Function.update_self, Function.update_of_ne mover.other_ne, popped,
    map_cons, filterMap_cons_toList, append_assoc]

theorem Pair.stream_kept (same : line.inbox = (pair mover).line.inbox) :
    Pair.stream f (Function.update pair mover { pair mover with task, line }) mover = pair.stream f mover := by
  simp only [Pair.stream, Pair.flight, Function.update_self, Function.update_of_ne mover.other_ne, same]

/-- A task's step adds to the stream from it what it adds to its commands. -/
theorem Pair.stream_added {more} (grown : line.cmds = (pair mover).line.cmds ++ more) :
    Pair.stream f (Function.update pair mover { pair mover with task, line }) mover.other =
      pair.stream f mover.other ++ viewed f more := by
  simp only [Pair.stream, Pair.flight, Function.update_self, Function.update_of_ne mover.other_ne, Side.other_other,
    grown, filterMap_append, viewed, append_assoc]

/-- What a queue holds is on the stream. -/
theorem Pair.mem_stream {side rest view}
    (queued : (pair side).line.inbox = message :: rest) (seen : f message.message = some view) :
    view ∈ pair.stream f side := by
  simp only [Pair.stream, queued, map_cons, filterMap_cons_toList, seen]
  simp

/-- What is left of a stream after a step of the task it goes to. -/
theorem Pair.stream_subset (inbox : line.inbox = (pair mover).line.inbox ∨
      ∃ message, (pair mover).line.inbox = message :: line.inbox) :
    Pair.stream f (Function.update pair mover { pair mover with task, line }) mover ⊆ pair.stream f mover := by
  rcases inbox with same | ⟨message, popped⟩
  · rw [Pair.stream_kept f same]
    exact List.Subset.refl _
  · rw [@Pair.stream_taken _ _ _ _ f task _ popped]
    exact subset_append_right _ _

/-- The client's own steps keep the order. -/
theorem client_in_step {later : Client} {cause}
    (stage : Stage client server (pair.stream speech .opener) (pair.stream asks .acceptor))
    (alive : (pair .opener).line.gone = false)
    (ran : client.step (pair .opener).remoteMax (pair .opener).line cause = some (later, after))
    (running : later.running = true) :
    Stage later server
      (Pair.stream speech (Function.update pair .opener { pair .opener with task := .client later, line := after })
        .opener)
      (Pair.stream asks (Function.update pair .opener { pair .opener with task := .client later, line := after })
        .acceptor) := by
  have added {more} (grown : after.cmds = (pair .opener).line.cmds ++ more) :=
    @Pair.stream_added pair .opener _ asks (.client later) after more grown
  have taken {message} (popped : (pair .opener).line.inbox = message :: after.inbox) :=
    @Pair.stream_taken pair .opener message _ speech (.client later) after popped
  cases stage with
  | preparing phase waiting silent unasked =>
    rcases phase with created | awaiting
    · obtain ⟨inbox, more, grown, outcome⟩ := Client.created_step created alive ran
      rw [Pair.stream_kept speech inbox, show Side.acceptor = Side.other .opener from rfl, added grown]
      rcases outcome with ⟨phase, preparing⟩ | ⟨phase, wanted⟩
      · refine .preparing (.inr phase) waiting silent ?_
        intro ask member
        exact (mem_append.mp member).elim (unasked ask) (preparing ask)
      · refine .asked phase (.inl ⟨waiting, silent⟩) ?_
        intro ask member starts
        rcases mem_append.mp member with old | new
        · cases (unasked ask old).symm.trans starts
        · exact wanted ask new starts
    · obtain ⟨message, rest, more, queued, inbox, grown, outcome⟩ :=
        Client.awaiting_pty_step awaiting alive ran running
      rw [@taken message (by rw [queued, ← inbox]), mem_append, not_or] at silent
      rw [show Side.acceptor = Side.other .opener from rfl, added grown]
      rcases outcome with ⟨phase, rfl⟩ | ⟨phase, wanted⟩
      · rw [show viewed asks [] = [] from rfl, append_nil]
        exact .preparing (.inr phase) waiting silent.2 unasked
      · refine .asked phase (.inl ⟨waiting, silent.2⟩) ?_
        intro ask member starts
        rcases mem_append.mp member with old | new
        · cases (unasked ask old).symm.trans starts
        · exact wanted ask new starts
  | asked phase ordered wanted =>
    obtain ⟨message, rest, queued, inbox, same, outcome⟩ := Client.awaiting_step phase ran running
    rw [show Side.acceptor = Side.other .opener from rfl, @added [] (by simpa using same),
      show viewed asks [] = [] from rfl, append_nil]
    rcases outcome with ⟨phase, unanswered⟩ | phase
    · refine .asked phase ?_ wanted
      rw [@taken message (by rw [queued, ← inbox])] at ordered
      rcases ordered with ⟨waiting, silent⟩ | first
      · rw [mem_append, not_or] at silent
        exact .inl ⟨waiting, silent.2⟩
      · right
        -- What was taken is no reply, and a reply comes before any data.
        cases message with
        | reply success => exact absurd rfl (unanswered success)
        | data | extData => exact absurd first (by simp [ToTask.message, speech])
        | _ => exact first
    · exact .going phase
  | going phase =>
    obtain ⟨work, phase⟩ := Client.pumping_step phase ran running
    exact .going phase

/-- The server's own steps keep the order. -/
theorem server_in_step {later : Server} {cause} (sound : server.Sound)
    (stage : Stage client server (pair.stream speech .opener) (pair.stream asks .acceptor))
    (alive : (pair .acceptor).line.gone = false)
    (ran : server.step (pair .acceptor).remoteMax (pair .acceptor).line cause = some (later, after))
    (running : later.running = true) :
    Stage client later
      (Pair.stream speech (Function.update pair .acceptor { pair .acceptor with task := .server later, line := after })
        .opener)
      (Pair.stream asks (Function.update pair .acceptor { pair .acceptor with task := .server later, line := after })
        .acceptor) := by
  have added {more} (grown : after.cmds = (pair .acceptor).line.cmds ++ more) :=
    @Pair.stream_added pair .acceptor _ speech (.server later) after more grown
  have does := Server.step_does sound ran
  have fewer := @Pair.stream_subset pair .acceptor _ asks (.server later) after does.inbox
  cases stage with
  | preparing phase waiting silent unasked =>
    obtain ⟨message, rest, queued, waits⟩ := Server.waiting_step waiting alive ran running
    obtain ⟨more, grown, outcome⟩ := waits running
    rw [show Side.opener = Side.other .acceptor from rfl, added grown]
    rcases outcome with ⟨still, quiet⟩ | ⟨kind, wantReply, data, rfl, starts, _⟩
    · refine .preparing phase still ?_ fun ask member => unasked ask (fewer member)
      rw [mem_append, not_or]
      exact ⟨silent, quiet⟩
    · cases (unasked (kind, wantReply) (Pair.mem_stream _ queued rfl)).symm.trans starts
  | asked phase ordered wanted =>
    have kept : ∀ ask ∈ Pair.stream asks
        (Function.update pair .acceptor { pair .acceptor with task := .server later, line := after }) .acceptor,
        isProgram ask.1 = true → ask.2 = true := fun ask member => wanted ask (fewer member)
    refine .asked phase ?_ kept
    rw [show Side.opener = Side.other .acceptor from rfl]
    rcases ordered with ⟨waiting, silent⟩ | first
    · obtain ⟨message, rest, queued, waits⟩ := Server.waiting_step waiting alive ran running
      obtain ⟨more, grown, outcome⟩ := waits running
      rw [added grown]
      rcases outcome with ⟨still, quiet⟩ | ⟨kind, wantReply, data, rfl, starts, answers⟩
      · left
        rw [mem_append, not_or]
        exact ⟨still, silent, quiet⟩
      · right
        have first := answers (wanted (kind, wantReply) (Pair.mem_stream _ queued rfl) starts)
        rw [List.head?_append, first]
        -- Whatever was on the way already is no data, so it is a reply as well.
        cases earlier : Pair.stream speech pair Side.acceptor.other with
        | nil => rfl
        | cons head rest =>
          have reply : head = false := by
            cases head with
            | false => rfl
            | true => exact absurd (earlier ▸ mem_cons_self) silent
          rw [reply]
          rfl
    · right
      obtain ⟨more, grown⟩ := does.grows
      rw [added grown, List.head?_append]
      have same : (pair.stream speech Side.acceptor.other).head? = some false := first
      rw [same]
      rfl
  | going phase => exact .going phase

end Ordered

end Shh.Channels
