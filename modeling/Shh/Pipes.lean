import Shh.Exactness

/-!
# A forwarded stream as a pipe

The bytes one end reads from its socket pass a buffer, a chunking loop under credit,
a queue of commands, the wire, a queue of messages and a write before they reach the
other end's socket. Closing can cut in at every stage. At each stage what has passed
is a first part of what has passed the stage before; and since EOF passes the same
stages behind the last byte, whoever has acted on it has passed on everything.
-/

namespace Shh.Channels

open List Wire Semaphores Runs

section Payloads

variable {α : Type} {mark : α} {old before after : List α}

/-- The bytes a message carries for a forwarded stream. -/
def Message.payload : Message → Bytes
  | .data bytes => bytes
  | _ => []

def Cmd.payload : Cmd → Bytes
  | .data bytes => bytes
  | _ => []

def payloads (messages : List Message) : Bytes := messages.flatMap Message.payload

theorem payloads_append (first second : List Message) :
    payloads (first ++ second) = payloads first ++ payloads second :=
  flatMap_append

theorem payloads_snoc (messages : List Message) (message : Message) :
    payloads (messages ++ [message]) = payloads messages ++ message.payload := by
  rw [payloads_append]
  exact congrArg _ (append_nil _)

theorem payloads_nil {messages} (plain : ∀ message ∈ messages, message.payload = []) :
    payloads messages = [] :=
  flatMap_eq_nil_iff.mpr plain

theorem payloads_mono {first second} (part : first <+: second) : payloads first <+: payloads second := by
  obtain ⟨rest, rfl⟩ := part
  rw [payloads_append]
  exact prefix_append _ _

/-- An element that is not in what was added stands where it stood before. -/
theorem split_before {new} (absent : mark ∉ new)
    (split : old ++ new = before ++ mark :: after) : ∃ rest, old = before ++ mark :: rest := by
  rcases append_eq_append_iff.mp split with ⟨middle, rfl, rest⟩ | ⟨middle, rfl, rest⟩
  · exact absurd (rest ▸ mem_append_right _ mem_cons_self) absent
  · cases middle with
    | nil => exact absurd (by rw [← nil_append new, ← rest]; exact mem_cons_self) absent
    | cons head tail =>
      obtain ⟨rfl, _⟩ := List.cons.inj rest
      exact ⟨tail, rfl⟩

/-- An element that was added last stands there, or where it stood before. -/
theorem split_last (split : old ++ [mark] = before ++ mark :: after) :
    before = old ∨ ∃ rest, old = before ++ mark :: rest := by
  rcases eq_nil_or_concat' after with rfl | ⟨front, last, rfl⟩
  · exact .inl (append_inj' split rfl).1.symm
  · rw [← cons_append, ← append_assoc] at split
    exact .inr ⟨front, (append_inj' split rfl).1⟩

end Payloads

section Commands

variable {line between after : Line}

variable {allowed : Cmd → Prop}

variable {task next : Forward} {message : ToTask}

/-- Commands of a certain kind were added. -/
def Adds (allowed : Cmd → Prop) (line after : Line) : Prop :=
  ∃ more, after.cmds = line.cmds ++ more ∧ ∀ cmd ∈ more, allowed cmd

/-- Commands that neither carry data nor end it. -/
def Cmd.Aside (cmd : Cmd) : Prop := cmd.payload = [] ∧ cmd ≠ .eof

theorem Adds.none (same : after.cmds = line.cmds) : Adds allowed line after :=
  ⟨[], by rw [same, append_nil], nofun⟩

theorem Adds.send {cmd} (fits : allowed cmd) (line : Line) :
    Adds allowed line (line.send cmd) := by
  cases alive : line.gone with
  | true => exact .none (by simp only [Line.send, alive, if_true])
  | false =>
    refine ⟨[cmd], send_alive alive, ?_⟩
    intro other member
    rw [mem_singleton.mp member]
    exact fits

theorem Adds.trans (first : Adds allowed line between) (second : Adds allowed between after) :
    Adds allowed line after := by
  obtain ⟨early, grown, fits⟩ := first
  obtain ⟨late, grows, fit⟩ := second
  refine ⟨early ++ late, by rw [grows, grown, append_assoc], ?_⟩
  intro cmd member
  exact (mem_append.mp member).elim (fits cmd) (fit cmd)

theorem Forward.join_aside (task : Forward) (line : Line) : Adds Cmd.Aside line (task.join line).2 := by
  unfold join
  split
  · exact .none rfl
  · exact .send ⟨rfl, nofun⟩ line

theorem Forward.message_aside (result : task.onMessage line message = (next, after)) : Adds Cmd.Aside line after := by
  have after : after = (task.onMessage line message).2 := by rw [result]
  rw [after]
  cases message with
  | close => exact join_aside _ _
  | request kind wantReply data =>
    simp only [onMessage]
    split
    · exact .send ⟨rfl, by simp⟩ line
    · exact .none rfl
  | _ => exact .none rfl

theorem Forward.message_taken (result : task.onMessage line message = (next, after)) : next.taken = task.taken := by
  have next : next = (task.onMessage line message).1 := by rw [result]
  rw [next]
  cases message with
  | close => simp only [onMessage, join_task]
  | _ => rfl

end Commands

/-- What is left of a chunked read is still to be sent. -/
theorem Forward.unsent_rest (task : Forward) (left : Bytes) :
    Forward.unsent { task with reader := if left = [] then .reading else .sending left } = left := by
  by_cases none : left = []
  · rw [if_pos none, none]
    rfl
  · rw [if_neg none]
    rfl

section Pouring

variable {platform : Platform} {stay next : End} {label : End.Label} {task : Forward}

variable {line : Line} {chan : Chan} {after : Forward}

variable {turn : Turn} {message : Message}

/-- Where the bytes of an end's socket are, on their way out. -/
structure Pours (stay : End) (task : Forward) : Prop where
  kind : stay.task = .forward task
  part : payloads stay.sent <+: task.taken
  ended : ∀ before after, stay.sent = before ++ .eof :: after → payloads before = task.taken ∧ task.reader = .ended
  /-- While the channel is there, nothing is lost between the socket and the wire. -/
  whole : stay.chan ≠ none →
    payloads stay.sent ++ stay.line.cmds.flatMap Cmd.payload ++ task.unsent = task.taken
  queued : stay.chan ≠ none → ∀ before after, stay.line.cmds = before ++ .eof :: after →
    payloads stay.sent ++ before.flatMap Cmd.payload = task.taken ∧ task.reader = .ended

/-- Messages that neither carry nor end data leave the account of an end as it is, as
long as a channel that is still there keeps its commands. -/
theorem Pours.adds {chan heard} (pours : Pours stay task) (more : List Message)
    (plain : ∀ message ∈ more, message.payload = [] ∧ message ≠ .eof)
    (kept : chan ≠ none → stay.chan ≠ none ∧ line.cmds = stay.line.cmds) :
    Pours { stay with chan, line, sent := stay.sent ++ more, heard } task := by
  have nothing : payloads more = [] := payloads_nil fun message member => (plain message member).1
  have same : payloads (stay.sent ++ more) = payloads stay.sent := by
    rw [payloads_append, nothing, append_nil]
  refine ⟨pours.kind, ?_, ?_, fun there => ?_, fun there => ?_⟩
  · exact same ▸ pours.part
  · intro before after split
    obtain ⟨rest, earlier⟩ := split_before (fun member => (plain _ member).2 rfl) split
    exact pours.ended before rest earlier
  · rw [same, (kept there).2]
    exact pours.whole (kept there).1
  · rw [same, (kept there).2]
    exact pours.queued (kept there).1

theorem Pours.falls (pours : Pours stay task) : Pours stay.fallen task := by
  have added := @Pours.adds stay task stay.fallen.line none stay.heard pours []
    (by simp) (fun there => absurd rfl there)
  rwa [append_nil] at added

/-- What the loop answers to the peer neither carries nor ends data. -/
theorem deliver_aside (ok : chan.deliver platform line message = .ok turn) :
    ∀ answer ∈ turn.sent, answer.payload = [] ∧ answer ≠ .eof := by
  cases message <;> grind [Message.payload]

theorem Pours.delivers (pours : Pours stay task)
    (there : stay.chan = some chan) (ok : chan.deliver platform stay.line message = .ok turn) :
    Pours (.take { stay with heard := stay.heard ++ [message] } turn) task := by
  refine End.take_keeps (Pours · task) (fun _ => Pours.falls) ?_
  have before : stay.chan ≠ none := by
    rw [there]
    exact nofun
  exact pours.adds turn.sent (deliver_aside ok) fun _ => ⟨before, (deliver_grants ok).cmds⟩

/-- A command sends its payload; EOF is sent for EOF alone. -/
theorem command_payload (chan : Chan) (line : Line) (cmd : Cmd) :
    payloads (chan.command line cmd).sent = cmd.payload ∧
      (cmd ≠ .eof → .eof ∉ (chan.command line cmd).sent) ∧
      (cmd = .eof → (chan.command line cmd).sent = [] ∨ (chan.command line cmd).sent = [.eof]) := by
  cases cmd <;> grind [payloads, Message.payload, Cmd.payload]

theorem Pours.commands {cmd rest} (pours : Pours stay task)
    (there : stay.chan = some chan) (queued : stay.line.cmds = cmd :: rest) :
    Pours (.take { stay with line := { stay.line with cmds := rest } }
      (chan.command { stay.line with cmds := rest } cmd)) task := by
  refine End.take_keeps (Pours · task) (fun _ => Pours.falls) ?_
  obtain ⟨payload, other, ending⟩ := command_payload chan { stay.line with cmds := rest } cmd
  have cmds := (command_carries chan { stay.line with cmds := rest } 0 cmd).cmds
  have before : stay.chan ≠ none := by
    rw [there]
    exact nofun
  have whole := pours.whole before
  rw [queued, flatMap_cons] at whole
  refine ⟨pours.kind, ?_, ?_, fun _ => ?_, fun _ => ?_⟩
  · rw [payloads_append, payload, ← whole]
    exact ⟨rest.flatMap Cmd.payload ++ task.unsent, by simp only [append_assoc]⟩
  · intro earlier later split
    by_cases ends : cmd = .eof
    · subst ends
      rcases ending rfl with none | eof
      · rw [none, append_nil] at split
        exact pours.ended earlier later split
      · -- The EOF just sent was the first command, with everything before it sent.
        rw [eof] at split
        rcases split_last split with rfl | ⟨more, old⟩
        · simpa using pours.queued before [] rest queued
        · exact pours.ended earlier more old
    · obtain ⟨more, old⟩ := split_before (other ends) split
      exact pours.ended earlier more old
  · rw [payloads_append, payload, cmds]
    simpa only [append_assoc] using whole
  · intro earlier later split
    have split : rest = earlier ++ .eof :: later := cmds.symm.trans split
    have old := pours.queued before (cmd :: earlier) later (by rw [queued, split]; rfl)
    rw [payloads_append, payload]
    simpa only [flatMap_cons, append_assoc] using old

/-- Steps of the other half: nothing is read, and nothing with data is queued. -/
theorem Pours.aside (pours : Pours stay task) (reader : after.reader = task.reader)
    (taken : after.taken = task.taken) (adds : Adds Cmd.Aside stay.line line) :
    Pours { stay with task := .forward after, line } after := by
  obtain ⟨more, grown, plain⟩ := adds
  have nothing : more.flatMap Cmd.payload = [] := flatMap_eq_nil_iff.mpr fun cmd member => (plain cmd member).1
  have unsent : after.unsent = task.unsent := by simp only [Forward.unsent, reader]
  refine ⟨rfl, ?_, ?_, fun there => ?_, fun there => ?_⟩
  · rw [taken]
    exact pours.part
  · rw [taken, reader]
    exact pours.ended
  · rw [taken, unsent, grown, flatMap_append, nothing, append_nil]
    exact pours.whole there
  · intro before rest split
    rw [grown] at split
    obtain ⟨later, old⟩ := split_before (fun member => (plain _ member).2 rfl) split
    rw [taken, reader]
    exact pours.queued there before later old

/-- An end that is still reading has sent and queued no EOF. -/
theorem Pours.unended (pours : Pours stay task) (going : task.reader ≠ .ended) :
    (∀ before after, stay.sent ≠ before ++ .eof :: after) ∧
      (stay.chan ≠ none → ∀ before after, stay.line.cmds ≠ before ++ .eof :: after) :=
  ⟨fun before after split => going (pours.ended before after split).2,
    fun there before after split => going (pours.queued there before after split).2⟩

/-- A task that stops reading because its channel is gone. -/
theorem Pours.gone (pours : Pours stay task) (dropped : stay.chan = none)
    (reader : after.reader = .ended) (taken : after.taken = task.taken) :
    Pours { stay with task := .forward after, line } after := by
  refine ⟨rfl, ?_, ?_, fun there => absurd dropped there, fun there => absurd dropped there⟩
  · rw [taken]
    exact pours.part
  · intro before rest split
    rw [taken]
    exact ⟨(pours.ended before rest split).1, reader⟩

theorem Pours.acts {cause} (linked : Linked stay)
    (pours : Pours stay task) (ran : task.step stay.remoteMax stay.line cause = some (after, line)) :
    Pours { stay with task := .forward after, line } after := by
  cases Forward.step_goes ran with
  | @read bytes reading some =>
    obtain ⟨unsent, unqueued⟩ := pours.unended (by rw [reading]; simp)
    have idle : task.unsent = [] := by simp only [Forward.unsent, reading]
    refine ⟨rfl, pours.part.trans (prefix_append _ _), ?_, fun there => ?_, fun there => ?_⟩
    · exact fun before after split => absurd split (unsent before after)
    · have whole := pours.whole there
      rw [idle, append_nil] at whole
      show _ ++ bytes = task.taken ++ bytes
      rw [whole]
    · exact fun before after split => absurd split (unqueued there before after)
  | readEnds reading joined =>
    obtain ⟨unsent, unqueued⟩ := pours.unended (by rw [reading]; simp)
    have idle : task.unsent = [] := by simp only [Forward.unsent, reading]
    obtain ⟨more, grown, plain⟩ := Forward.join_aside { task with reader := .ended } (stay.line.send .eof)
    have nothing : more.flatMap Cmd.payload = [] :=
      flatMap_eq_nil_iff.mpr fun cmd member => (plain cmd member).1
    refine ⟨rfl, pours.part, ?_, fun there => ?_, fun there => ?_⟩
    · exact fun before after split => absurd split (unsent before after)
    · have whole := pours.whole there
      rw [idle] at whole
      dsimp only
      rw [joined, grown, send_alive (linked.alive there), flatMap_append, flatMap_append, nothing]
      simpa [Cmd.payload, Forward.unsent] using whole
    · intro before rest split
      dsimp only at split
      rw [joined, grown, send_alive (linked.alive there)] at split
      obtain ⟨later, old⟩ := split_before (fun member => (plain _ member).2 rfl) split
      rcases split_last old with rfl | ⟨earlier, old⟩
      · have whole := pours.whole there
        rw [idle, append_nil] at whole
        exact ⟨whole, rfl⟩
      · exact absurd old (unqueued there before earlier)
  | @sent left sending enough alive =>
    obtain ⟨unsent, unqueued⟩ := pours.unended (by rw [sending]; simp)
    have before : task.unsent = left := by simp only [Forward.unsent, sending]
    refine ⟨rfl, pours.part, ?_, fun there => ?_, fun there => ?_⟩
    · exact fun before after split => absurd split (unsent before after)
    · have whole := pours.whole there
      rw [before, ← take_append_drop (min left.length stay.remoteMax) left] at whole
      have rest := Forward.unsent_rest task (left.drop (min left.length stay.remoteMax))
      rw [rest]
      simpa [Cmd.payload] using whole
    · intro before rest split
      obtain ⟨later, old⟩ := split_before (by simp) split
      exact absurd old (unqueued there before later)
  | waits | writes | shutdown => exact pours.aside rfl rfl (.none rfl)
  | refused sending shut joined =>
    refine pours.gone ?_ rfl rfl
    rw [linked.closed] at shut
    exact Option.isNone_iff_eq_none.mp shut
  | lost sending dead spent closed joined =>
    refine pours.gone ?_ rfl rfl
    by_contra there
    cases (linked.alive there).symm.trans dead
  | takes waiting there result =>
    refine pours.aside (Forward.message_reader result) (Forward.message_taken result) ?_
    obtain ⟨more, grown, plain⟩ := Forward.message_aside result
    exact ⟨more, grown, plain⟩
  | hungUp waiting empty gone joined =>
    rw [joined]
    exact pours.aside rfl rfl (Forward.join_aside _ _)
  | wrote writing all => exact pours.aside rfl rfl (.send ⟨rfl, by simp⟩ _)
  | writeFails writing joined =>
    rw [joined]
    exact pours.aside rfl rfl (Forward.join_aside _ _)

/-- What an end has sent is a first part of what it has read, and an EOF comes after
all of it. -/
def Pouring (stay : End) : Prop := ∃ task, Pours stay task

theorem pouring_step (linked : Linked stay) (pouring : Pouring stay) (ran : stay.step platform label = some next) :
    Pouring next := by
  obtain ⟨task, pours⟩ := pouring
  cases End.step_happens ran with
  | unheard dropped => exact ⟨task, pours.kind, pours.part, pours.ended, pours.whole, pours.queued⟩
  | heard there ok => exact ⟨task, pours.delivers there ok⟩
  | broken there refused => exact ⟨task, Pours.falls ⟨pours.kind, pours.part, pours.ended, pours.whole, pours.queued⟩⟩
  | skipped queued dropped =>
    exact ⟨task, pours.kind, pours.part, pours.ended, fun there => absurd dropped there,
      fun there => absurd dropped there⟩
  | processed queued there => exact ⟨task, pours.commands there queued⟩
  | fell => exact ⟨task, pours.falls⟩
  | acted moved =>
    rw [pours.kind] at moved
    obtain ⟨mine, cause, later, same, stepped, rfl, _⟩ | ⟨_, _, _, other, _⟩ | ⟨_, _, _, other, _⟩ :=
      Task.step_cases moved
    · obtain rfl := Task.forward.inj same
      exact ⟨later, pours.acts linked stepped⟩
    · cases other
    · cases other

end Pouring

section Draining

variable {platform : Platform} {stay next : End} {label : End.Label} {task : Forward}

variable {line : Line} {message : Message} {done rest missed : List Message} {after : Forward}

variable {chan : Chan} {turn : Turn}

/-- What the loop queues for a forwarded stream's task. -/
def Message.event : Message → Option ToTask
  | .data bytes => some (.data bytes)
  | .extData kind bytes => some (.extData kind bytes)
  | .eof => some .eof
  | .close => some .close
  | .reply success => some (.reply success)
  | .adjust _ | .request _ _ _ => none

/-- Bytes taken from the queue and not yet written. -/
def Forward.inHand (task : Forward) : Bytes :=
  match task.writer with
  | .writing left _ => left
  | _ => []

/-- What has become of what an end heard: dealt with, queued, or missed after the
channel was dropped. -/
structure Drains (stay : End) (task : Forward) (done rest missed : List Message) : Prop where
  kind : stay.task = .forward task
  heard : stay.heard = done ++ rest ++ missed
  missed : stay.chan ≠ none → missed = []
  inbox : stay.line.inbox = rest.filterMap Message.event
  written : task.writer ≠ .ended → payloads done = task.written ++ task.inHand
  part : task.written <+: payloads done
  /-- EOF was acted on after everything before it. -/
  shut : task.shut = true ∨ task.writer = .shutting →
    ∃ before after, done = before ++ .eof :: after ∧ payloads before <+: task.written

theorem deliver_event (plain : chan.isSession = false) (ok : chan.deliver platform line message = .ok turn) :
    turn.line.inbox = line.inbox ++ message.event.toList := by
  cases message <;> grind [Message.event]

/-- A change that leaves the task as it is and adds nothing to what it can see. -/
theorem Drains.unseen {chan sent heard}
    (drains : Drains stay task done rest missed) (same : line.inbox = stay.line.inbox)
    (dropped : chan ≠ none → stay.chan ≠ none ∧ heard = stay.heard) (more : stay.heard <+: heard) :
    ∃ missed, Drains { stay with chan, line, sent, heard } task done rest missed := by
  obtain ⟨later, rfl⟩ := more
  refine ⟨missed ++ later, drains.kind, ?_, ?_, same.trans drains.inbox, drains.written, drains.part, drains.shut⟩
  · show stay.heard ++ later = _
    rw [drains.heard]
    simp only [append_assoc]
  · intro there
    obtain ⟨before, none⟩ := dropped there
    rw [drains.missed before]
    exact append_cancel_left (none.trans (append_nil _).symm)

theorem Drains.falls (drains : Drains stay task done rest missed) :
    Drains stay.fallen task done rest missed :=
  ⟨drains.kind, drains.heard, fun there => absurd rfl there, drains.inbox, drains.written, drains.part, drains.shut⟩

/-- What an end hears while it has the channel is queued. -/
theorem Drains.delivers
    (linked : Linked stay) (drains : Drains stay task done rest missed) (there : stay.chan = some chan)
    (ok : chan.deliver platform stay.line message = .ok turn) :
    Drains (.take { stay with heard := stay.heard ++ [message] } turn) task done (rest ++ [message]) [] := by
  refine End.take_keeps (Drains · task done (rest ++ [message]) []) (fun _ => Drains.falls) ?_
  have none := drains.missed (by rw [there]; exact nofun)
  have plain : chan.isSession = false := by
    rw [linked.kind chan there, drains.kind]
    rfl
  refine ⟨drains.kind, ?_, fun _ => rfl, ?_, drains.written, drains.part, drains.shut⟩
  · show stay.heard ++ [message] = _
    rw [drains.heard, none]
    simp only [append_nil, append_assoc]
  · show turn.line.inbox = _
    rw [deliver_event plain ok, drains.inbox, filterMap_append, filterMap_cons_toList]
    simp

/-- The task's other half, or a step that takes nothing from the queue. -/
theorem Drains.same (drains : Drains stay task done rest missed) (inbox : line.inbox = stay.line.inbox)
    (writer : after.writer = task.writer) (written : after.written = task.written) (shut : after.shut = task.shut) :
    Drains { stay with task := .forward after, line } after done rest missed := by
  refine ⟨rfl, drains.heard, drains.missed, inbox.trans drains.inbox, ?_, ?_, ?_⟩
  · rw [writer, written]
    intro going
    simp only [Forward.inHand, writer]
    exact drains.written going
  · rw [written]
    exact drains.part
  · rw [shut, writer, written]
    exact drains.shut

/-- A loop that ends writes no more. -/
theorem Drains.stops (drains : Drains stay task done rest missed) (inbox : line.inbox = stay.line.inbox)
    (writer : after.writer = .ended) (written : after.written = task.written) (shut : after.shut = task.shut) :
    Drains { stay with task := .forward after, line } after done rest missed := by
  refine ⟨rfl, drains.heard, drains.missed, inbox.trans drains.inbox, fun going => absurd writer going, ?_, ?_⟩
  · rw [written]
    exact drains.part
  · rw [shut, writer, written]
    exact fun either => drains.shut (.inl (either.resolve_right nofun))

theorem event_payload (unseen : message.event = none) : message.payload = [] := by
  cases message with
  | data | extData | eof | close | reply => cases unseen
  | adjust | request => rfl

theorem Forward.join_inbox (task : Forward) (line : Line) : (task.join line).2.inbox = line.inbox := by
  unfold join
  split
  · rfl
  · exact (send_same _ _).2.1

/-- What a waiting loop does next, by the message it takes. -/
def WriteLoop.onMessage : ToTask → WriteLoop
  | .data bytes => .writing bytes bytes.length
  | .eof => .shutting
  | .close => .ended
  | .extData _ _ | .request _ _ _ | .reply _ => .waiting

theorem Forward.message_writer {next : Line} {message} (waiting : task.writer = .waiting)
    (result : task.onMessage line message = (after, next)) :
    after.writer = WriteLoop.onMessage message ∧ after.written = task.written ∧ after.shut = task.shut ∧
      next.inbox = line.inbox := by
  have after : after = (task.onMessage line message).1 := by rw [result]
  have next : next = (task.onMessage line message).2 := by rw [result]
  rw [after, next]
  cases message with
  | close =>
    simp only [Forward.onMessage, join_task, join_inbox, WriteLoop.onMessage, and_self]
  | request kind wantReply data =>
    refine ⟨waiting, rfl, rfl, ?_⟩
    simp only [Forward.onMessage]
    split
    · exact (send_same _ _).2.1
    · rfl
  | data | eof => exact ⟨rfl, rfl, rfl, rfl⟩
  | extData | reply => exact ⟨waiting, rfl, rfl, rfl⟩

/-- A message is taken from the queue. -/
theorem Drains.takes {message queue} (drains : Drains stay task done rest missed) (waiting : task.writer = .waiting)
    (there : stay.line.inbox = message :: queue)
    (result : task.onMessage { stay.line with inbox := queue } message = (after, line)) :
    ∃ done rest, Drains { stay with task := .forward after, line } after done rest missed := by
  obtain ⟨writer, written, shut, inbox⟩ := Forward.message_writer waiting result
  have queued := drains.inbox
  rw [there] at queued
  obtain ⟨skipped, head, rest, rfl, unseen, seen, rfl⟩ := filterMap_eq_cons_iff.mp queued.symm
  have nothing : payloads skipped = [] := payloads_nil fun message member => event_payload (unseen message member)
  have whole : payloads (done ++ skipped) = task.written := by
    have equal := drains.written (by rw [waiting]; exact nofun)
    rw [payloads_append, nothing, append_nil, equal]
    simp [Forward.inHand, waiting]
  have more : payloads (done ++ skipped ++ [head]) = task.written ++ head.payload := by
    rw [payloads_append, whole]
    simp [payloads]
  have older : task.shut = true →
      ∃ before after, done ++ skipped ++ [head] = before ++ .eof :: after ∧ payloads before <+: task.written := by
    intro before
    obtain ⟨earlier, later, split, part⟩ := drains.shut (.inl before)
    exact ⟨earlier, later ++ skipped ++ [head], by rw [split]; simp, part⟩
  refine ⟨done ++ skipped ++ [head], rest, rfl, ?_, drains.missed, inbox, ?_, ?_, ?_⟩
  · show stay.heard = _
    rw [drains.heard]
    simp only [append_assoc, cons_append, nil_append]
  · intro going
    rw [more, written]
    simp only [Forward.inHand, writer]
    cases head with
    | data bytes =>
      cases seen
      rfl
    | extData | eof | reply =>
      cases seen
      rfl
    | close =>
      cases seen
      exact absurd writer going
    | adjust | request => cases seen
  · rw [more, written]
    exact prefix_append _ _
  · rw [shut, writer, written]
    rintro (before | shutting)
    · exact older before
    · -- The message taken is EOF, and everything before it was written.
      cases head with
      | eof => exact ⟨done ++ skipped, [], rfl, whole ▸ prefix_rfl⟩
      | data | extData | reply | close =>
        cases seen
        cases shutting
      | adjust | request => cases seen

theorem Drains.acts {cause} (drains : Drains stay task done rest missed)
    (ran : task.step stay.remoteMax stay.line cause = some (after, line)) :
    ∃ done rest, Drains { stay with task := .forward after, line } after done rest missed := by
  cases Forward.step_goes ran with
  | read | sent | waits => exact ⟨done, rest, drains.same rfl rfl rfl rfl⟩
  | readEnds reading joined =>
    refine ⟨done, rest, drains.same ?_ rfl rfl rfl⟩
    rw [joined, Forward.join_inbox]
    exact (send_same _ _).2.1
  | refused sending shut joined =>
    refine ⟨done, rest, drains.same ?_ rfl rfl rfl⟩
    rw [joined, Forward.join_inbox]
  | lost sending dead spent closed joined =>
    refine ⟨done, rest, drains.same ?_ rfl rfl rfl⟩
    rw [joined, Forward.join_inbox]
  | takes waiting there result => exact drains.takes waiting there result
  | hungUp waiting empty gone joined =>
    refine ⟨done, rest, drains.stops ?_ rfl rfl rfl⟩
    rw [joined, Forward.join_inbox]
  | @wrote left size count writing all =>
    have equal := drains.written (by rw [writing]; exact nofun)
    have took : left.take count = left := by
      conv_rhs => rw [← take_append_drop count left, all, append_nil]
    have hand : task.inHand = left := by simp only [Forward.inHand, writing]
    refine ⟨done, rest, rfl, drains.heard, drains.missed, (send_same _ _).2.1.trans drains.inbox, fun _ => ?_, ?_, ?_⟩
    · rw [equal, hand, took]
      exact (append_nil _).symm
    · rw [equal, hand, took]
    · rintro (before | shutting)
      · obtain ⟨earlier, later, split, part⟩ := drains.shut (.inl before)
        exact ⟨earlier, later, split, part.trans (prefix_append _ _)⟩
      · cases shutting
  | @writes left size count writing =>
    have equal := drains.written (by rw [writing]; exact nofun)
    have hand : task.inHand = left := by simp only [Forward.inHand, writing]
    refine ⟨done, rest, rfl, drains.heard, drains.missed, drains.inbox, fun _ => ?_, ?_, ?_⟩
    · rw [equal, hand]
      simp [Forward.inHand]
    · rw [equal, hand]
      exact (prefix_append_right_inj _).mpr ⟨_, take_append_drop _ _⟩
    · rintro (before | shutting)
      · obtain ⟨earlier, later, split, part⟩ := drains.shut (.inl before)
        exact ⟨earlier, later, split, part.trans (prefix_append _ _)⟩
      · cases shutting
  | writeFails writing joined =>
    refine ⟨done, rest, drains.stops ?_ rfl rfl rfl⟩
    rw [joined, Forward.join_inbox]
  | shutdown shutting =>
    have equal := drains.written (by rw [shutting]; exact nofun)
    refine ⟨done, rest, rfl, drains.heard, drains.missed, drains.inbox, fun _ => ?_, drains.part, fun _ => ?_⟩
    · rw [equal]
      simp [Forward.inHand, shutting]
    · exact drains.shut (.inr shutting)

/-- What an end has written is a first part of what it has heard, and all of what
came before an EOF it has acted on. -/
def Draining (stay : End) : Prop := ∃ task done rest missed, Drains stay task done rest missed

theorem draining_step (linked : Linked stay) (draining : Draining stay) (ran : stay.step platform label = some next) :
    Draining next := by
  obtain ⟨task, done, rest, missed, drains⟩ := draining
  cases End.step_happens ran with
  | unheard dropped =>
    obtain ⟨missed, drains⟩ := drains.unseen rfl (fun there => absurd dropped there) (prefix_append _ _)
    exact ⟨task, done, rest, missed, drains⟩
  | heard there ok => exact ⟨task, done, _, _, drains.delivers linked there ok⟩
  | broken there refused =>
    obtain ⟨missed, drains⟩ := @Drains.unseen _ _ stay.line _ _ _ none stay.sent _ drains rfl
      (fun there => absurd rfl there) (prefix_append _ _)
    exact ⟨task, done, rest, missed, drains.falls⟩
  | skipped queued dropped =>
    exact ⟨task, done, rest, missed, drains.kind, drains.heard, drains.missed, drains.inbox,
      drains.written, drains.part,
      drains.shut⟩
  | @processed cmd left chan queued there =>
    refine End.take_keeps Draining (fun _ ⟨task, done, rest, missed, drains⟩ => ⟨task, done, rest,
      missed, drains.falls⟩)
      ?_
    obtain ⟨missed, drains⟩ := drains.unseen (command_inbox chan { stay.line with cmds := left } cmd)
      (fun _ => ⟨by rw [there]; exact nofun, rfl⟩) prefix_rfl
    exact ⟨task, done, rest, missed, drains⟩
  | fell => exact ⟨task, done, rest, missed, drains.falls⟩
  | acted moved =>
    rw [drains.kind] at moved
    obtain ⟨mine, cause, later, same, stepped, rfl, _⟩ | ⟨_, _, _, other, _⟩ | ⟨_, _, _, other, _⟩ :=
      Task.step_cases moved
    · obtain rfl := Task.forward.inj same
      obtain ⟨done, rest, drains⟩ := drains.acts stepped
      exact ⟨later, done, rest, missed, drains⟩
    · cases other
    · cases other

end Draining

section Faithful

open Pair

variable {platform : Side → Platform} {pair : Pair} {events : List (Side × End.Label)}

/-- A forwarded stream as it starts, each end with the window and packet size that the
other advertised. -/
def Pair.tunnel (platform : Side → Platform) (endOnClose : Side → Bool) (ids windows maxima : Side → Nat) : Pair :=
  fun side => .make (platform side) (.forward .start) (endOnClose side) (ids side) (windows side) (maxima side)

/-- What holds of both ends of a forwarded stream. -/
structure Pair.Piped (pair : Pair) : Prop where
  carried : pair.Carried
  linked : ∀ side, Linked (pair side)
  pouring : ∀ side, Pouring (pair side)
  draining : ∀ side, Draining (pair side)

theorem piped_start (endOnClose : Side → Bool) (ids windows maxima : Side → Nat) :
    (Pair.tunnel platform endOnClose ids windows maxima).Piped where
  carried := fun _ => prefix_rfl
  linked := fun side => .start (platform side) .forward _ _ _ _
  pouring := fun _ => ⟨.start, rfl, prefix_rfl, fun before after split => by
    simp [Pair.tunnel, End.make] at split, fun _ => rfl, fun _ before after split => by
    simp [Pair.tunnel, End.make, Line.make] at split⟩
  draining := fun _ => ⟨.start, [], [], [], rfl, rfl, fun _ => rfl, rfl, fun _ => rfl, prefix_rfl, nofun⟩

theorem piped_step {event} {next : Pair} (piped : pair.Piped)
    (ran : pair.step platform event = some next) : next.Piped := by
  have carried := carried_step piped.carried ran
  obtain ⟨stay, moved, rfl, _⟩ := step_cases ran
  refine ⟨carried, fun side => ?_, fun side => ?_, fun side => ?_⟩
  · exact after_move Linked (piped.linked side) fun _ => linked_step (piped.linked _) moved
  · exact after_move Pouring (piped.pouring side) fun _ => pouring_step (piped.linked _) (piped.pouring _) moved
  · exact after_move Draining (piped.draining side) fun _ => draining_step (piped.linked _) (piped.draining _) moved

/-- A forwarded stream is a pipe: what an end has written is a first part of what the
other has read, and all of it once the end has shut its socket. -/
theorem forwarded_stream_faithful {endOnClose : Side → Bool} {ids windows maxima : Side → Nat}
    (path : Path (Pair.step platform) (Pair.tunnel platform endOnClose ids windows maxima) events pair) (side : Side) :
    ∃ mine theirs : Forward, (pair side).task = .forward mine ∧ (pair side.other).task = .forward theirs ∧
      mine.written <+: theirs.taken ∧ (mine.shut = true → mine.written = theirs.taken) := by
  have piped : pair.Piped :=
    path_invariant (fun _ => Pair.Piped) (piped_start endOnClose ids windows maxima)
      (fun _ _ _ _ _ ran piped => piped_step piped ran) path
  obtain ⟨mine, done, rest, missed, drains⟩ := piped.draining side
  obtain ⟨theirs, pours⟩ := piped.pouring side.other
  have known : done <+: (pair side.other).sent := by
    refine List.IsPrefix.trans ?_ (piped.carried side)
    rw [drains.heard, append_assoc]
    exact prefix_append _ _
  have part : mine.written <+: theirs.taken := drains.part.trans ((payloads_mono known).trans pours.part)
  refine ⟨mine, theirs, drains.kind, pours.kind, part, fun shut => ?_⟩
  -- The EOF acted on was sent after all that was read, so all of that was written.
  obtain ⟨before, after, rfl, written⟩ := drains.shut (.inl shut)
  obtain ⟨later, sent⟩ := known
  have all := (pours.ended before (after ++ later) (by rw [← sent]; simp)).1
  exact part.eq_of_length_le (by rw [← all]; exact written.length_le)

/-- Three bytes and the end of the stream through packets of two bytes. -/
def threeBytesInTwos : List (Side × End.Label) :=
  [(.opener, .act (.forward (.read [1, 2, 3]))), (.opener, .act (.forward .send)), (.opener, .act (.forward .send)),
    (.opener, .act (.forward .readEnds)), (.opener, .process), (.opener, .process), (.opener, .process),
    (.acceptor, .hear (.data [1, 2])), (.acceptor, .hear (.data [3])), (.acceptor, .hear .eof),
    (.acceptor, .act (.forward .recv)), (.acceptor, .act (.forward (.wrote 2))), (.acceptor, .act (.forward .recv)),
    (.acceptor, .act (.forward (.wrote 1))), (.acceptor, .act (.forward .recv)), (.acceptor, .act (.forward .shutdown))]

theorem forwarded_stream_faithful_in_twos : ∃ (pair : Pair) (mine theirs : Forward),
    Path (Pair.step mixedPlatforms)
      (Pair.tunnel mixedPlatforms (fun _ => false) (fun _ => 0) (fun _ => 3) (fun _ => 2)) threeBytesInTwos pair ∧
    (pair .acceptor).task = .forward mine ∧ (pair .opener).task = .forward theirs ∧ mine.shut = true ∧
      mine.written = theirs.taken ∧ theirs.taken = [1, 2, 3] := by
  have path := @path_of_foldlM _ _ (Pair.step mixedPlatforms)
    (Pair.tunnel mixedPlatforms (fun _ => false) (fun _ => 0) (fun _ => 3) (fun _ => 2)) _ threeBytesInTwos rfl
  obtain ⟨mine, theirs, here, there, _, whole⟩ := forwarded_stream_faithful path .acceptor
  obtain rfl := Task.forward.inj here
  obtain rfl := Task.forward.inj there
  exact ⟨_, _, _, path, rfl, rfl, rfl, whole rfl, rfl⟩

end Faithful

end Shh.Channels
