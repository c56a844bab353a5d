import Shh.Teardown

/-!
# What a session's client shows of what its server said

The client's loop takes messages from its queue first and reads its standard input
only when the queue is empty. But once it has read some input it waits for credit, and
looks at nothing else. When the server closes the channel meanwhile, the wait is
refused and the task ends, whatever is in its queue: output and the exit status that
came before CLOSE are dropped.

In a run where this does not happen, the client's streams are what the server said
between the reply to the client's last request and CLOSE.
-/

namespace Shh.Channels

open List Wire Semaphores Runs

namespace Message

/-- Bytes for standard output and for standard error, and the status, that a message
brings to a client. -/
def out : Message → Bytes
  | .data bytes => bytes
  | _ => []

def err : Message → Bytes
  | .extData kind bytes => if kind = stderr then bytes else []
  | _ => []

def exit : Message → Option ExitStatus
  | .request kind _ body => Client.exitOf kind body
  | _ => none

/-- The message has nothing for the client to show. -/
def silent (message : Message) : Bool := message.out = [] ∧ message.err = [] ∧ message.exit = none

/-- The loop passes the message on to a session's task. -/
def passed : Message → Bool
  | .adjust _ => false
  | _ => true

end Message

/-- Messages before CLOSE. -/
def untilClose (messages : List Message) : List Message := messages.takeWhile (· ≠ .close)

/-- Messages after some number of replies, if each of those grants. -/
def afterReplies : Nat → List Message → Option (List Message)
  | 0, rest => some rest
  | _ + 1, [] => none
  | count + 1, .reply true :: rest => afterReplies count rest
  | _ + 1, .reply false :: _ => none
  | count + 1, _ :: rest => afterReplies (count + 1) rest

/-- The last status of some messages. -/
def lastExit (messages : List Message) : Option ExitStatus := (messages.filterMap Message.exit).getLast?

/-- The replies a client waits for. -/
def SessionSpec.replies (spec : SessionSpec) : Nat := if spec.pty.isSome then 2 else 1

/-- The client has shown and reported what it was told. -/
structure Client.Shows (task : Client) (said : List Message) : Prop where
  out : task.stdout = said.flatMap Message.out
  err : task.errout = said.flatMap Message.err
  exit : task.reported = some ((lastExit said).getD ⟨none, none⟩)

section Lists

variable {messages : List Message}

theorem until_close_open (open_ : .close ∉ messages) (more : List Message) :
    untilClose (messages ++ more) = messages ++ untilClose more := by
  refine takeWhile_append_of_pos fun message member => decide_eq_true ?_
  rintro rfl
  exact open_ member

theorem until_close_eq (open_ : .close ∉ messages) : untilClose messages = messages := by
  simpa [untilClose] using until_close_open open_ []

/-- Nothing counts after CLOSE. -/
theorem until_close_append (closed : .close ∈ messages) (more : List Message) :
    untilClose (messages ++ more) = untilClose messages := by
  obtain ⟨before, after, rfl, first⟩ := eq_append_cons_of_mem closed
  have cut (rest : List Message) : untilClose (.close :: rest) = [] := takeWhile_cons_of_neg (by simp)
  rw [append_assoc, until_close_open first, until_close_open first, cons_append, cut, cut]

theorem until_close_snoc (messages : List Message) : untilClose (messages ++ [.close]) = untilClose messages := by
  by_cases closed : .close ∈ messages
  · exact until_close_append closed _
  · rw [until_close_open closed, until_close_eq closed]
    exact append_nil _

/-- Messages that are no replies are passed over. -/
theorem after_replies_skip {count : Nat} {more} (none : ∀ success, .reply success ∉ messages) :
    afterReplies (count + 1) (messages ++ more) = afterReplies (count + 1) more := by
  induction messages with
  | nil => rfl
  | cons message rest ih =>
    have later := ih fun success member => none success (mem_cons_of_mem _ member)
    cases message with
    | reply success => exact absurd mem_cons_self (none success)
    | _ => exact later

theorem last_exit_append (first second : List Message) :
    lastExit (first ++ second) = (lastExit second).or (lastExit first) := by
  simp [lastExit, filterMap_append, List.getLast?_append]

/-- Silent messages bring nothing. -/
theorem silent_nothing (silent : ∀ message ∈ messages, message.silent = true) :
    messages.flatMap Message.out = [] ∧ messages.flatMap Message.err = [] ∧ lastExit messages = none := by
  have each (message : Message) (member : message ∈ messages) :
      message.out = [] ∧ message.err = [] ∧ message.exit = none := of_decide_eq_true (silent message member)
  refine ⟨flatMap_eq_nil_iff.mpr fun message member => (each message member).1,
    flatMap_eq_nil_iff.mpr fun message member => (each message member).2.1, ?_⟩
  rw [lastExit, filterMap_eq_nil_iff.mpr fun message member => (each message member).2.2]
  rfl

theorem Client.Shows.silently {task : Client} {said more : List Message} (shows_ : task.Shows said)
    (silent : ∀ message ∈ more, message.silent = true) : task.Shows (said ++ more) := by
  obtain ⟨out, err, exit⟩ := silent_nothing silent
  refine ⟨?_, ?_, ?_⟩
  · rw [shows_.out, flatMap_append, out, append_nil]
  · rw [shows_.err, flatMap_append, err, append_nil]
  · rw [shows_.exit, last_exit_append, exit]
    rfl

end Lists

namespace Client

variable {remoteMax : Nat} {task next : Client} {line after : Line} {label : Label}

/-- The task is over, with the status it has. -/
def stopped (task : Client) (status : Option ExitStatus) : Client :=
  { task with phase := .ended, reported := some (status.getD ⟨none, none⟩) }

/-- The ways a step of a session's client can go, as far as they concern its queue. -/
inductive Goes (task : Client) (line : Line) : Label → Client → Line → Prop where
  | starts {after : Line} (created : task.phase = .created) (same : after.inbox = line.inbox) :
      Goes task line .start { task with phase := if task.spec.pty.isSome then .awaitingPty else .awaiting } after
  | passes {message} {after : Line} (waits : task.phase = .awaitingPty ∨ task.phase = .awaiting)
      (there : line.inbox = message :: after.inbox) (open_ : message ≠ .close)
      (unanswered : ∀ success, message ≠ .reply success) : Goes task line .recv task after
  | granted {after : Line} (waits : task.phase = .awaitingPty ∨ task.phase = .awaiting)
      (there : line.inbox = .reply true :: after.inbox) :
      Goes task line .recv
        { task with phase := if task.phase = .awaitingPty then .awaiting else .pumping .select } after
  | declined {after : Line} (waits : task.phase = .awaitingPty ∨ task.phase = .awaiting)
      (there : line.inbox = .reply false :: after.inbox) : Goes task line .recv (task.stopped none) after
  | abandoned {after : Line} (waits : task.phase = .awaitingPty ∨ task.phase = .awaiting)
      (there : line.inbox.head? = some .close ∨ line.inbox = [] ∧ line.hungUp = true) :
      Goes task line .recv (task.stopped none) after
  | closed {after : Line} (selecting : task.phase = .pumping .select)
      (there : line.inbox.head? = some .close ∨ line.inbox = [] ∧ line.hungUp = true) :
      Goes task line .recv (task.stopped task.exitStatus) after
  | takes {err message} {bytes : Bytes} {after : Line} (selecting : task.phase = .pumping .select)
      (there : line.inbox = message :: after.inbox)
      (carries : message = .data bytes ∧ err = false ∨ message = .extData stderr bytes ∧ err = true) :
      Goes task line .recv { task with phase := .pumping (.writing err bytes bytes.length) } after
  | notes {message : ToTask} {after : Line} (selecting : task.phase = .pumping .select)
      (there : line.inbox = message :: after.inbox) (open_ : message ≠ .close)
      (out : message.message.out = []) (err : message.message.err = []) :
      Goes task line .recv { task with exitStatus := message.message.exit.or task.exitStatus } after
  | wrote {err} {left : Bytes} {size count} {after : Line}
      (writing : task.phase = .pumping (.writing err left size)) (all : left.drop count = [])
      (same : after.inbox = line.inbox) :
      Goes task line (.wrote count) { task.write err (left.take count) with phase := .pumping .select } after
  | writes {err} {left : Bytes} {size count}
      (writing : task.phase = .pumping (.writing err left size)) :
      Goes task line (.wrote count)
        { task.write err (left.take count) with phase := .pumping (.writing err (left.drop count) size) } line
  | writeFails {next : Client} {after : Line} : Goes task line .writeFails next after
  | reads {bytes} (selecting : task.phase = .pumping .select) :
      Goes task line (.readStdin bytes) { task with phase := .pumping (.sending none bytes) } line
  | aside {stdinDone resizing label} {after : Line} (selecting : task.phase = .pumping .select)
      (same : after.inbox = line.inbox) : Goes task line label { task with stdinDone, resizing } after
  | sent {ext left work} {after : Line}
      (sending : task.phase = .pumping (.sending ext left)) (idle : ∀ err left size, work ≠ .writing err left size)
      (same : after.inbox = line.inbox) : Goes task line .send { task with phase := .pumping work } after
  | refused {ext left after} (sending : task.phase = .pumping (.sending ext left))
      (shut : line.credit.closed = true ∨ line.gone = true) : Goes task line .send (task.stopped task.exitStatus) after

attribute [local grind intro] Goes

theorem reply_goes {message : Option ToTask} {between : Line} {granted : Client × Line}
    (waits : task.phase = .awaitingPty ∨ task.phase = .awaiting) (took : line.recv = some (message, between))
    (grants : granted.1 = { task with phase := if task.phase = .awaitingPty then .awaiting else .pumping .select } ∧
      granted.2.inbox = between.inbox)
    (result : task.onReply between granted message = (next, after)) : Goes task line .recv next after := by
  obtain ⟨message, rest, there, rfl, rfl⟩ | ⟨empty, gone, rfl, rfl⟩ := recv_cases took
  · cases message with
    | reply success =>
      cases success with
      | true =>
        obtain rfl : granted = (next, after) := result
        obtain ⟨rfl, inbox⟩ := grants
        exact .granted waits (by rw [there, inbox])
      | false =>
        cases result
        exact .declined waits (by rw [there, (send_same _ _).2.1])
    | close =>
      cases result
      exact .abandoned waits (.inl (by rw [there]; rfl))
    | data | extData | eof | request =>
      cases result
      exact .passes waits there nofun nofun
  · cases result
    exact .abandoned waits (.inr ⟨empty, gone⟩)

theorem message_goes {message : Option ToTask} {between : Line} (selecting : task.phase = .pumping .select)
    (took : line.recv = some (message, between)) (result : task.onMessage between message = (next, after)) :
    Goes task line .recv next after := by
  obtain ⟨message, rest, there, rfl, rfl⟩ | ⟨empty, gone, rfl, rfl⟩ := recv_cases took
  · cases message with
    | data bytes =>
      cases result
      exact .takes selecting there (.inl ⟨rfl, rfl⟩)
    | extData kind bytes =>
      simp only [onMessage] at result
      split at result
      · rename_i standard
        cases result
        exact .takes selecting there (.inr ⟨by rw [standard], rfl⟩)
      · rename_i other
        cases result
        exact @Goes.notes task line (.extData kind bytes) _ selecting (there.trans (by rw [(send_same _ _).2.1])) (by simp)
          rfl (if_neg other)
    | eof =>
      cases result
      exact @Goes.notes task line .eof _ selecting there (by simp) rfl rfl
    | reply success =>
      cases result
      exact @Goes.notes task line (.reply success) _ selecting there (by simp) rfl rfl
    | close =>
      cases result
      exact .closed selecting (.inl (by rw [there]; rfl))
    | request kind wantReply body =>
      have goes := @Goes.notes task line _ { line with inbox := rest } selecting there (by simp) rfl rfl
      simp only [onMessage] at result
      split at result
      · rename_i status found
        cases result
        simpa [ToTask.message, Message.exit, found] using goes
      · rename_i none
        cases result
        simpa [ToTask.message, Message.exit, none] using goes
  · cases result
    exact .closed selecting (.inr ⟨empty, gone⟩)

theorem step_goes (ran : task.step remoteMax line label = some (next, after)) : Goes task line label next after := by
  cases label with
  | start =>
    have inbox : (if task.spec.forwardAgent then line.send agentRequest else line).inbox = line.inbox := by
      split
      · exact (send_same _ _).2.1
      · rfl
    grind [step, begin, ask, send_same]
  | recv =>
    simp only [step] at ran
    split at ran
    · cases ran
    · rename_i message between took
      split at ran
      · rename_i waits
        exact reply_goes (.inl waits) took ⟨by rw [if_pos waits]; rfl, (send_same _ _).2.1⟩ (Option.some.inj ran)
      · rename_i waits
        exact reply_goes (.inr waits) took ⟨by rw [waits]; rfl, rfl⟩ (Option.some.inj ran)
      · rename_i selecting
        exact message_goes selecting took (Option.some.inj ran)
      · cases ran
  | writeFails => exact .writeFails
  | send =>
    simp only [step] at ran
    split at ran
    · rename_i ext left sending
      rcases send_credited_cases line remoteMax ext left with
        ⟨_, _, _, result⟩ | ⟨_, _, result⟩ | ⟨shut, result⟩ | ⟨dead, credit, _, _, result⟩
      all_goals
        rw [result] at ran
        cases ran
      · refine .sent sending ?_ rfl
        split <;> simp
      · have stays {after : Line} := @Goes.sent task line ext left (.sending ext left) after sending (by simp)
        rw [← sending] at stays
        exact stays rfl
      · exact .refused sending (.inl shut)
      · exact .refused sending (.inr dead)
    · cases ran
  | resize cols rows xpix ypix =>
    have stays {after : Line} (selecting : task.phase = .pumping .select) (same : after.inbox = line.inbox) :
        Goes task line (.resize cols rows xpix ypix) task after := .aside selecting same
    grind [step, send_same]
  | _ => grind [step, send_same]

/-- What was asked for stays the same. -/
theorem step_spec (ran : task.step remoteMax line label = some (next, after)) (intact : label ≠ .writeFails) :
    next.spec = task.spec := by
  cases step_goes ran with
  | wrote | writes =>
    simp only [write]
    split <;> rfl
  | writeFails => exact absurd rfl intact
  | starts | passes | granted | declined | abandoned | closed | takes | notes | reads | aside | sent | refused => rfl

end Client

section Following

variable {platform : Platform} {stay next : End} {label : End.Label} {task : Client} {done rest : List Message}

variable {message : Message} {event : ToTask} {later : Client} {line : Line}

/-- Steps of a session whose connection stays up, whose server keeps to the window and
whose local streams take what is written to them. -/
def End.served (platform : Platform) (stay : End) : End.Label → Bool
  | .fall | .act (.client .writeFails) => false
  | .hear message =>
    match stay.chan with
    | some chan => (chan.deliver platform stay.line message).isOk
    | none => true
  | _ => true

/-- The client does not find its channel closed while it waits for credit, unless what
is in its queue has nothing to show. -/
def End.attends (stay : End) : End.Label → Bool
  | .act (.client .send) => !stay.line.credit.closed || stay.line.inbox.all fun event => event.message.silent
  | _ => true

/-- What is left of a write to standard output, and to standard error. -/
def Work.outLeft : Work → Bytes
  | .writing false left _ => left
  | _ => []

def Work.errLeft : Work → Bytes
  | .writing true left _ => left
  | _ => []

/-- Replies a client waits for before it moves data. -/
def Client.awaits (task : Client) : Nat :=
  match task.phase with
  | .created => task.spec.replies
  | .awaitingPty => 2
  | .awaiting => 1
  | .pumping _ | .ended => 0

/-- What the messages a client has taken have come to. -/
inductive Told (task : Client) (heard done : List Message) : Prop where
  | waiting {count : Nat} (phase : task.awaits = count + 1)
      (skips : ∀ more, afterReplies task.spec.replies (done ++ more) = afterReplies (count + 1) more)
      (out : task.stdout = []) (err : task.errout = []) (exit : task.exitStatus = none)
  | pumping {work : Work} {said : List Message} (phase : task.phase = .pumping work)
      (since : ∀ more, afterReplies task.spec.replies (done ++ more) = some (said ++ more))
      (out : task.stdout ++ work.outLeft = said.flatMap Message.out)
      (err : task.errout ++ work.errLeft = said.flatMap Message.err) (exit : task.exitStatus = lastExit said)
  | ended (phase : task.phase = .ended)
      (settled : .close ∈ heard ∨ ∀ more, afterReplies task.spec.replies (untilClose heard ++ more) = none)
      (shown : ∀ said, afterReplies task.spec.replies (untilClose heard) = some said → task.Shows said)

/-- Of what was heard before CLOSE a client has taken a first part, and the rest is in
its queue. -/
structure Follows (stay : End) (task : Client) (done rest : List Message) : Prop where
  kind : stay.task = .client task
  heard : untilClose stay.heard = done ++ rest
  dropped : stay.chan = none ↔ .close ∈ stay.heard
  inbox : task.running = true → stay.line.inbox.map ToTask.message =
    rest.filter Message.passed ++ if .close ∈ stay.heard then [.close] else []
  told : Told task stay.heard done

section Told

variable {heard : List Message} {count : Nat} {work : Work}

theorem Told.start (spec : SessionSpec) (resizing : Bool) : Told (.make spec resizing) [] [] := by
  obtain ⟨count, replies⟩ : ∃ count, spec.replies = count + 1 := by
    unfold SessionSpec.replies
    split
    · exact ⟨1, rfl⟩
    · exact ⟨0, rfl⟩
  exact .waiting replies (fun more => congrArg (afterReplies · more) replies) rfl rfl rfl

theorem Told.while_waiting (told : Told task heard done) (waits : task.awaits = count + 1) :
    (∀ more, afterReplies task.spec.replies (done ++ more) = afterReplies (count + 1) more) ∧
      task.stdout = [] ∧ task.errout = [] ∧ task.exitStatus = none := by
  cases told with
  | waiting phase skips out err exit =>
    obtain rfl := Nat.succ.inj (phase.symm.trans waits)
    exact ⟨skips, out, err, exit⟩
  | pumping phase | ended phase => simp [Client.awaits, phase] at waits

theorem Told.while_pumping (told : Told task heard done) (phase : task.phase = .pumping work) :
    ∃ said, (∀ more, afterReplies task.spec.replies (done ++ more) = some (said ++ more)) ∧
      task.stdout ++ work.outLeft = said.flatMap Message.out ∧ task.errout ++ work.errLeft = said.flatMap Message.err ∧
      task.exitStatus = lastExit said := by
  cases told with
  | waiting waits => simp [Client.awaits, phase] at waits
  | pumping same since out err exit =>
    obtain rfl := Client.Phase.pumping.inj (same.symm.trans phase)
    exact ⟨_, since, out, err, exit⟩
  | ended stopped => cases phase.symm.trans stopped

theorem Client.awaits_reply (waits : task.phase = .awaitingPty ∨ task.phase = .awaiting) :
    ∃ count, task.awaits = count + 1 := by
  rcases waits with waits | waits
  · exact ⟨1, by simp [awaits, waits]⟩
  · exact ⟨0, by simp [awaits, waits]⟩

/-- A client that ends with nothing in hand has shown what it has taken. -/
theorem Client.Shows.stopped {said : List Message} {status}
    (out : task.stdout ++ work.outLeft = said.flatMap Message.out)
    (err : task.errout ++ work.errLeft = said.flatMap Message.err) (exit : status = lastExit said)
    (noOut : work.outLeft = []) (noErr : work.errLeft = []) : (task.stopped status).Shows said := by
  rw [noOut, append_nil] at out
  rw [noErr, append_nil] at err
  exact ⟨out, err, by rw [← exit]; rfl⟩

end Told

theorem unpassed_silent (unpassed : ¬message.passed = true) : message.silent = true := by
  cases message with
  | adjust => rfl
  | data | extData | eof | close | request | reply => exact absurd rfl unpassed

theorem message_close (same : event.message = .close) : event = .close := by
  cases event with
  | close => rfl
  | data | extData | eof | request | reply => cases same

theorem Follows.unclosed (follows : Follows stay task done rest) : .close ∉ rest := by
  intro member
  have inside : .close ∈ untilClose stay.heard := by
    rw [follows.heard]
    exact mem_append_right _ member
  have open_ := mem_takeWhile_imp inside
  simp at open_

/-- The next message that is not CLOSE, behind adjusts that only the loop saw. -/
theorem Follows.taken {left : List ToTask} (follows : Follows stay task done rest)
    (running : task.running = true) (there : stay.line.inbox = event :: left) (open_ : event ≠ .close) :
    ∃ skipped later, rest = skipped ++ event.message :: later ∧ (∀ message ∈ skipped, ¬message.passed = true) ∧
      left.map ToTask.message = later.filter Message.passed ++ if .close ∈ stay.heard then [.close] else [] := by
  have queued := follows.inbox running
  rw [there, map_cons] at queued
  cases seen : rest.filter Message.passed with
  | nil =>
    rw [seen, nil_append] at queued
    split at queued
    · exact absurd (message_close (List.cons.inj queued).1) open_
    · cases queued
  | cons head others =>
    rw [seen, cons_append] at queued
    obtain ⟨rfl, same⟩ := List.cons.inj queued
    obtain ⟨skipped, later, rfl, unpassed, _, rfl⟩ := filter_eq_cons_iff.mp seen
    exact ⟨skipped, later, rfl, unpassed, same⟩

/-- A client at the end of its queue has seen all there is. -/
theorem Follows.closing (linked : Linked stay) (follows : Follows stay task done rest) (running : task.running = true)
    (there : stay.line.inbox.head? = some .close ∨ stay.line.inbox = [] ∧ stay.line.hungUp = true) :
    .close ∈ stay.heard ∧ ∀ message ∈ rest, ¬message.passed = true := by
  have queued := follows.inbox running
  have seen {message} (member : message ∈ rest.filter Message.passed) : message ≠ .close := by
    rintro rfl
    exact follows.unclosed (mem_of_mem_filter member)
  rcases there with first | ⟨empty, gone⟩
  · obtain ⟨left, there⟩ := List.head?_eq_some_iff.mp first
    rw [there, map_cons] at queued
    cases passed : rest.filter Message.passed with
    | nil =>
      rw [passed, nil_append] at queued
      split at queued
      · rename_i closed
        exact ⟨closed, filter_eq_nil_iff.mp passed⟩
      · cases queued
    | cons head others =>
      rw [passed, cons_append] at queued
      exact absurd (List.cons.inj queued).1.symm (seen (passed ▸ mem_cons_self))
  · have none : stay.chan = none := by
      rw [← Option.isNone_iff_eq_none, ← linked.hungUp]
      exact gone
    rw [empty, if_pos (follows.dropped.mp none)] at queued
    exact absurd queued (by simp)

/-- A task that takes nothing from its queue. -/
theorem Follows.same (follows : Follows stay task done rest)
    (inbox : later.running = true → task.running = true ∧ line.inbox = stay.line.inbox)
    (told : Told later stay.heard done) : Follows { stay with task := .client later, line } later done rest := by
  refine ⟨rfl, follows.heard, follows.dropped, fun running => ?_, told⟩
  obtain ⟨before, same⟩ := inbox running
  show line.inbox.map _ = _
  rw [same]
  exact follows.inbox before

/-- A task that takes the next message. -/
theorem Follows.takes {skipped others : List Message}
    (follows : Follows stay task done rest) (split : rest = skipped ++ event.message :: others)
    (left : line.inbox.map ToTask.message = others.filter Message.passed ++
      if .close ∈ stay.heard then [.close] else [])
    (told : Told later stay.heard (done ++ (skipped ++ [event.message]))) :
    Follows { stay with task := .client later, line } later (done ++ (skipped ++ [event.message])) others := by
  refine ⟨rfl, ?_, follows.dropped, fun _ => left, told⟩
  show untilClose stay.heard = _
  rw [follows.heard, split]
  simp

/-- A task that ends, with the rest of its queue in view. -/
theorem Follows.ends {status} (follows : Follows stay task done rest)
    (settled : .close ∈ stay.heard ∨ ∀ more, afterReplies task.spec.replies (untilClose stay.heard ++ more) = none)
    (shown : ∀ said, afterReplies task.spec.replies (done ++ rest) = some said → (task.stopped status).Shows said) :
    Follows { stay with task := .client (task.stopped status), line } (task.stopped status) done rest :=
  ⟨rfl, follows.heard, follows.dropped, nofun, .ended rfl settled fun said told => shown said (follows.heard ▸ told)⟩

theorem Follows.acts {cause : Client.Label} (linked : Linked stay)
    (follows : Follows stay task done rest) (served : stay.served platform (.act (.client cause)) = true)
    (attends : stay.attends (.act (.client cause)) = true)
    (ran : task.step stay.remoteMax stay.line cause = some (later, line)) :
    ∃ done rest, Follows { stay with task := .client later, line } later done rest := by
  have running : task.running = true := Client.step_running ran
  have unanswered {skipped : List Message} (unpassed : ∀ message ∈ skipped, ¬message.passed = true) (success : Bool) :
      .reply success ∉ skipped := fun member => unpassed _ member rfl
  have since {skipped : List Message} {message : Message} {count : Nat}
      (unpassed : ∀ message ∈ skipped, ¬message.passed = true) (waits : task.awaits = count + 1) (more : List Message) :
      afterReplies task.spec.replies (done ++ (skipped ++ [message]) ++ more) =
        afterReplies (count + 1) (message :: more) := by
    rw [append_assoc, (follows.told.while_waiting waits).1, append_assoc,
      after_replies_skip (unanswered unpassed)]
    rfl
  have grows {said more : List Message}
      (whole : ∀ more, afterReplies task.spec.replies (done ++ more) = some (said ++ more)) (later : List Message) :
      afterReplies task.spec.replies (done ++ more ++ later) = some (said ++ more ++ later) := by
    rw [append_assoc, whole, append_assoc]
  cases Client.step_goes ran with
  | starts created same =>
    refine ⟨done, rest, follows.same (fun _ => ⟨running, same⟩) ?_⟩
    have waits : task.awaits = task.spec.replies := by simp only [Client.awaits, created]
    cases wanted : task.spec.pty.isSome with
    | true =>
      obtain ⟨skips, out, err, exit⟩ := @Told.while_waiting _ _ _ 1 follows.told (by simp [waits, SessionSpec.replies, wanted])
      exact .waiting (by simp [Client.awaits]) skips out err exit
    | false =>
      obtain ⟨skips, out, err, exit⟩ := @Told.while_waiting _ _ _ 0 follows.told (by simp [waits, SessionSpec.replies, wanted])
      exact .waiting (by simp [Client.awaits]) skips out err exit
  | @passes event _ waits there open_ unreplied =>
    obtain ⟨skipped, others, split, unpassed, left⟩ := follows.taken running there open_
    obtain ⟨count, awaits⟩ := Client.awaits_reply waits
    obtain ⟨_, out, err, exit⟩ := follows.told.while_waiting awaits
    refine ⟨_, _, follows.takes split left (.waiting awaits (fun more => ?_) out err exit)⟩
    rw [since unpassed awaits]
    exact @after_replies_skip [event.message] count more (by
      intro success member
      cases event with
      | reply success => exact unreplied success rfl
      | _ => simp [ToTask.message] at member)
  | granted waits there =>
    obtain ⟨skipped, others, split, unpassed, left⟩ := follows.taken running there (by simp)
    obtain ⟨count, awaits⟩ := Client.awaits_reply waits
    obtain ⟨_, out, err, exit⟩ := follows.told.while_waiting awaits
    refine ⟨_, _, follows.takes split left ?_⟩
    rcases waits with pty | last
    · obtain rfl : count = 1 := by simpa [Client.awaits, pty] using awaits
      refine @Told.waiting _ _ _ 0 (by simp [Client.awaits, pty]) (fun more => ?_) out err exit
      exact since unpassed awaits more
    · obtain rfl : count = 0 := by simpa [Client.awaits, last] using awaits
      refine @Told.pumping _ _ _ .select [] (by simp [last]) (fun more => ?_) ?_ ?_ exit
      · show afterReplies task.spec.replies _ = _
        rw [since unpassed awaits]
        simp only [ToTask.message, afterReplies, nil_append]
      · show task.stdout ++ _ = _
        rw [out]
        rfl
      · show task.errout ++ _ = _
        rw [err]
        rfl
  | declined waits there =>
    obtain ⟨skipped, others, split, unpassed, _⟩ := follows.taken running there (by simp)
    obtain ⟨count, awaits⟩ := Client.awaits_reply waits
    have none (more : List Message) : afterReplies task.spec.replies (done ++ rest ++ more) = .none := by
      rw [split, show done ++ (skipped ++ (ToTask.reply false).message :: others) ++ more =
        done ++ (skipped ++ [(ToTask.reply false).message]) ++ (others ++ more) by simp, since unpassed awaits]
      rfl
    refine ⟨_, _, follows.ends (.inr fun more => ?_) fun said found => ?_⟩
    · rw [follows.heard]
      exact none more
    · have nothing := none []
      rw [append_nil] at nothing
      cases found.symm.trans nothing
  | abandoned waits there =>
    obtain ⟨closed, unpassed⟩ := follows.closing linked running there
    obtain ⟨count, awaits⟩ := Client.awaits_reply waits
    refine ⟨_, _, follows.ends (.inl closed) fun said found => ?_⟩
    rw [(follows.told.while_waiting awaits).1, ← append_nil rest, after_replies_skip (unanswered unpassed)] at found
    cases found
  | closed selecting there =>
    obtain ⟨closed, unpassed⟩ := follows.closing linked running there
    obtain ⟨said, whole, out, err, exit⟩ := follows.told.while_pumping selecting
    refine ⟨_, _, follows.ends (.inl closed) fun all found => ?_⟩
    cases (whole rest).symm.trans found
    exact (Client.Shows.stopped out err exit rfl rfl).silently fun message member => unpassed_silent (unpassed message member)
  | takes selecting there carries =>
    obtain ⟨skipped, others, split, unpassed, left⟩ := follows.taken running there (by
      rintro rfl
      rcases carries with ⟨other, _⟩ | ⟨other, _⟩ <;> cases other)
    obtain ⟨said, whole, out, err, exit⟩ := follows.told.while_pumping selecting
    obtain ⟨noOut, noErr, noExit⟩ := silent_nothing fun message member => unpassed_silent (unpassed message member)
    simp only [Work.outLeft, Work.errLeft, append_nil] at out err
    refine ⟨_, _, follows.takes split left (.pumping rfl (grows whole) ?_ ?_ ?_)⟩
    · rw [flatMap_append, flatMap_append, noOut, ← out]
      rcases carries with ⟨rfl, rfl⟩ | ⟨rfl, rfl⟩ <;> simp [ToTask.message, Message.out, Work.outLeft]
    · rw [flatMap_append, flatMap_append, noErr, ← err]
      rcases carries with ⟨rfl, rfl⟩ | ⟨rfl, rfl⟩ <;> simp [ToTask.message, Message.err, Work.errLeft]
    · rw [last_exit_append, last_exit_append, noExit, ← exit]
      rcases carries with ⟨rfl, rfl⟩ | ⟨rfl, rfl⟩ <;> rfl
  | @notes event _ selecting there open_ noneOut noneErr =>
    obtain ⟨skipped, others, split, unpassed, left⟩ := follows.taken running there open_
    obtain ⟨said, whole, out, err, exit⟩ := follows.told.while_pumping selecting
    obtain ⟨noOut, noErr, noExit⟩ := silent_nothing fun message member => unpassed_silent (unpassed message member)
    refine ⟨_, _, follows.takes split left (.pumping selecting (grows whole) ?_ ?_ ?_)⟩
    · rw [flatMap_append, flatMap_append, noOut]
      simpa [noneOut] using out
    · rw [flatMap_append, flatMap_append, noErr]
      simpa [noneErr] using err
    · rw [last_exit_append, last_exit_append, noExit, ← exit]
      cases found : event.message.exit <;> simp [lastExit, found]
  | @wrote err left size count _ writing all same =>
    obtain ⟨said, whole, out, errout, exit⟩ := follows.told.while_pumping writing
    have took : left.take count = left := by
      conv_rhs => rw [← take_append_drop count left, all, append_nil]
    refine ⟨done, rest, follows.same (fun _ => ⟨running, same⟩) ?_⟩
    rw [took]
    cases err with
    | false => exact .pumping rfl whole (by simpa [Client.write, Work.outLeft] using out) errout exit
    | true => exact .pumping rfl whole out (by simpa [Client.write, Work.errLeft] using errout) exit
  | @writes err left size count writing =>
    obtain ⟨said, whole, out, errout, exit⟩ := follows.told.while_pumping writing
    refine ⟨done, rest, follows.same (fun _ => ⟨running, rfl⟩) ?_⟩
    cases err with
    | false => exact .pumping rfl whole (by simpa [Client.write, Work.outLeft] using out) errout exit
    | true => exact .pumping rfl whole out (by simpa [Client.write, Work.errLeft] using errout) exit
  | writeFails => cases served
  | reads selecting =>
    obtain ⟨said, whole, out, err, exit⟩ := follows.told.while_pumping selecting
    exact ⟨done, rest, follows.same (fun _ => ⟨running, rfl⟩) (.pumping rfl whole out err exit)⟩
  | aside selecting same =>
    obtain ⟨said, whole, out, err, exit⟩ := follows.told.while_pumping selecting
    exact ⟨done, rest, follows.same (fun _ => ⟨running, same⟩) (.pumping selecting whole out err exit)⟩
  | @sent ext left work _ sending idle same =>
    obtain ⟨said, whole, out, err, exit⟩ := follows.told.while_pumping sending
    refine ⟨done, rest, follows.same (fun _ => ⟨running, same⟩) (.pumping rfl whole ?_ ?_ exit)⟩
    · cases work with
      | writing err left size => exact absurd rfl (idle err left size)
      | select | sending => exact out
    · cases work with
      | writing err left size => exact absurd rfl (idle err left size)
      | select | sending => exact err
  | refused sending shut =>
    have none : stay.chan = none := by
      by_contra there
      rcases shut with closed | gone
      · rw [linked.closed, Option.isNone_iff_eq_none] at closed
        exact there closed
      · cases (linked.alive there).symm.trans gone
    have closed : stay.line.credit.closed = true := by
      rw [linked.closed, none]
      rfl
    obtain ⟨said, whole, out, err, exit⟩ := follows.told.while_pumping sending
    refine ⟨_, _, follows.ends (.inl (follows.dropped.mp none)) fun all found => ?_⟩
    cases (whole rest).symm.trans found
    refine (Client.Shows.stopped out err exit rfl rfl).silently fun message member => ?_
    -- What the task will not look at has nothing to show.
    simp only [End.attends, closed, Bool.not_true, Bool.false_or, all_eq_true] at attends
    by_cases passed : message.passed = true
    · have queued : message ∈ stay.line.inbox.map ToTask.message := by
        rw [follows.inbox running]
        exact mem_append_left _ (mem_filter.mpr ⟨member, passed⟩)
      obtain ⟨event, there, rfl⟩ := mem_map.mp queued
      exact attends event there
    · exact unpassed_silent passed

/-- What the loop passes on to a session's task. -/
theorem deliver_session {chan : Chan} {turn : Turn} (session : chan.isSession = true)
    (ok : chan.deliver platform line message = .ok turn) :
    turn.line.inbox.map ToTask.message = line.inbox.map ToTask.message ++ [message].filter Message.passed := by
  have pushed (event : ToTask) :
    (line.push event).inbox.map ToTask.message = line.inbox.map ToTask.message ++ [event.message] := by
    simp [Line.push]
  cases message with
  | data | extData =>
    obtain ⟨_, rfl⟩ := on_data_ok ok
    exact pushed _
  | adjust =>
    cases ok
    exact (append_nil _).symm
  | eof | reply | close =>
    cases ok
    exact pushed _
  | request kind wantReply body =>
    cases ok
    rw [Chan.onChannelRequest, if_pos session]
    exact pushed _

/-- A message heard before CLOSE, or CLOSE itself. -/
theorem Told.hears {heard : List Message} (told : Told task heard done) (open_ : .close ∉ heard) :
    Told task (heard ++ [message]) done := by
  cases told with
  | waiting phase skips out err exit => exact .waiting phase skips out err exit
  | pumping phase since out err exit => exact .pumping phase since out err exit
  | ended phase settled shown =>
    -- The task ended without CLOSE: it was refused, and nothing it hears matters.
    have never := settled.resolve_left open_
    rw [until_close_eq open_] at never
    refine .ended phase (.inr fun more => ?_) fun said found => ?_
    · rw [until_close_open open_, append_assoc]
      exact never _
    · rw [until_close_open open_] at found
      cases found.symm.trans (never _)

theorem Follows.delivers {chan : Chan} {turn} (linked : Linked stay)
    (follows : Follows stay task done rest) (there : stay.chan = some chan)
    (ok : chan.deliver platform stay.line message = .ok turn) :
    ∃ rest, Follows (.take { stay with heard := stay.heard ++ [message] } turn) task done rest := by
  have open_ : .close ∉ stay.heard := fun closed => absurd (there.symm.trans (follows.dropped.mpr closed)) nofun
  have session : chan.isSession = true := by
    rw [linked.kind chan there, follows.kind]
    rfl
  have queued (running : task.running = true) : turn.line.inbox.map ToTask.message =
      rest.filter Message.passed ++ [message].filter Message.passed := by
    rw [deliver_session session ok, follows.inbox running, if_neg open_, append_nil]
  by_cases close : message = .close
  · subst close
    cases ok
    have closed : .close ∈ stay.heard ++ [.close] := mem_append_right _ (mem_singleton.mpr rfl)
    refine ⟨rest, (End.take_keeps (fun stay => .close ∈ stay.heard ∧ Follows stay task done rest) ?_ ⟨closed, ?_⟩).2⟩
    · intro stay ⟨closed, before⟩
      exact ⟨closed, before.kind, before.heard, ⟨fun _ => closed, fun _ => rfl⟩, before.inbox, before.told⟩
    · refine ⟨follows.kind, (until_close_snoc _).trans follows.heard,
        ⟨fun _ => closed, fun _ => rfl⟩, fun running => ?_,
        follows.told.hears open_⟩
      show (chan.onClose stay.line).line.inbox.map _ = _
      rw [queued running, if_pos closed]
      rfl
  · obtain ⟨kept, now, _, _, going⟩ := deliver_unclosed close ok
    have still : .close ∉ stay.heard ++ [message] := by
      rw [mem_append, not_or, mem_singleton]
      exact ⟨open_, fun same => close same.symm⟩
    rw [take_going going]
    refine ⟨rest ++ [message], follows.kind, ?_, ?_, fun running => ?_, follows.told.hears open_⟩
    · show untilClose (stay.heard ++ [message]) = _
      rw [until_close_eq still, ← append_assoc, ← follows.heard, until_close_eq open_]
    · exact ⟨fun none => absurd (now.symm.trans none) nofun, fun closed => absurd closed still⟩
    · show turn.line.inbox.map _ = _
      rw [queued running, if_neg still, append_nil, filter_append]

theorem follows_step (linked : Linked stay) (follows : Follows stay task done rest)
    (served : stay.served platform label = true) (attends : stay.attends label = true)
    (ran : stay.step platform label = some next) :
    ∃ later done rest, Follows next later done rest ∧ later.spec = task.spec := by
  cases End.step_happens ran with
  | unheard dropped =>
    have closed := follows.dropped.mp dropped
    refine ⟨task, done, rest, ⟨follows.kind, (until_close_append closed _).trans follows.heard,
      ⟨fun _ => mem_append_left _ closed, fun _ => dropped⟩, fun running => ?_, ?_⟩, rfl⟩
    · show stay.line.inbox.map _ = _
      rw [follows.inbox running, if_pos closed, if_pos (mem_append_left _ closed)]
    · cases follows.told with
      | waiting phase skips out err exit => exact .waiting phase skips out err exit
      | pumping phase since out err exit => exact .pumping phase since out err exit
      | ended phase settled shown =>
        refine .ended phase (.inl (mem_append_left _ closed)) ?_
        rw [until_close_append closed]
        exact shown
  | heard there ok =>
    obtain ⟨rest, follows⟩ := follows.delivers linked there ok
    exact ⟨task, done, rest, follows, rfl⟩
  | @broken message chan error there refused =>
    simp only [End.served, there, refused] at served
    cases served
  | skipped queued dropped => exact ⟨task, done, rest, { follows with }, rfl⟩
  | @processed cmd left chan queued there =>
    obtain ⟨kept, sent, result, _, _⟩ := command_open (linked.still chan there) { stay.line with cmds := left } cmd
    rw [result, take_going rfl]
    refine ⟨task, done, rest, ⟨follows.kind, follows.heard, ⟨nofun, fun closed => ?_⟩,
      follows.inbox, follows.told⟩, rfl⟩
    cases there.symm.trans (follows.dropped.mpr closed)
  | fell => cases served
  | acted moved =>
    rw [follows.kind] at moved
    obtain ⟨_, _, _, other, _⟩ | ⟨mine, cause, later, same, stepped, rfl, rfl⟩ | ⟨_, _, _, other, _⟩ :=
      Task.step_cases moved
    · cases other
    · obtain rfl := Task.client.inj same
      obtain ⟨done, rest, follows⟩ := follows.acts linked served attends stepped
      refine ⟨later, done, rest, follows, Client.step_spec stepped ?_⟩
      rintro rfl
      cases served
    · cases other

/-- A client's streams and the status it reports are what its server said between the
reply to its last request and CLOSE, in every run in which the client does not find its
channel closed while it waits for credit with something to show in its queue. -/
theorem server_output_kept {spec : SessionSpec} {resizing endOnClose : Bool} {peerId peerWindow peerMax : Nat}
    {labels : List End.Label}
    (path : Path (guarded (End.step platform) fun stay label => stay.served platform label && stay.attends label)
      (End.make platform (.client (.make spec resizing)) endOnClose peerId peerWindow peerMax) labels stay)
    (kind : stay.task = .client task) (stopped : task.running = false) {said : List Message}
    (told : afterReplies spec.replies (untilClose stay.heard) = some said) : task.Shows said := by
  have invariant : Linked stay ∧ ∃ task done rest, Follows stay task done rest ∧ task.spec = spec := by
    refine path_invariant (fun _ stay => Linked stay ∧ ∃ task done rest, Follows stay task done rest ∧ task.spec = spec)
      ⟨.start platform (.client spec resizing) _ _ _ _, .make spec resizing, [], [], ⟨rfl, rfl, ⟨nofun, nofun⟩,
        fun _ => rfl, .start spec resizing⟩, rfl⟩ ?_ path
    intro past before label after _ ran ⟨linked, task, done, rest, follows, same⟩
    obtain ⟨allowed, ran⟩ := guarded_eq_some.mp ran
    obtain ⟨served, attends⟩ := (Bool.and_eq_true _ _).mp allowed
    obtain ⟨later, done, rest, follows, still⟩ := follows_step linked follows served attends ran
    exact ⟨linked_step linked ran, later, done, rest, follows, still.trans same⟩
  obtain ⟨_, mine, done, rest, follows, rfl⟩ := invariant
  obtain rfl := Task.client.inj (kind.symm.trans follows.kind)
  cases follows.told with
  | waiting phase => simp_all [Client.awaits, Client.running]
  | pumping phase => simp [Client.running, phase] at stopped
  | ended _ _ shown => exact shown said told

/-- A client that runs a command without a terminal. -/
def plainSpec : SessionSpec := ⟨some "cat", none, none, false⟩

/-- The client reads two bytes when the peer's window has room for one. Output, the exit
status and CLOSE come while it waits. -/
def closedWhileSending : List End.Label :=
  [.act (.client .start), .process, .hear (.reply true), .act (.client .recv), .act (.client (.readStdin [1, 2])),
    .act (.client .send), .hear (.data [7]), .hear (.request "exit-status" false [0, 0, 0, 3]), .hear .close,
    .act (.client .send)]

/-- The client ends without a byte of output, and reports no status. -/
theorem server_output_lost : ∃ stay task said,
    Path (guarded (End.step ⟨true, true⟩) (End.served ⟨true, true⟩))
      (End.make ⟨true, true⟩ (.client (.make plainSpec false)) true 0 1 maxChunk) closedWhileSending stay ∧
    stay.task = .client task ∧ task.running = false ∧
    afterReplies plainSpec.replies (untilClose stay.heard) = some said ∧ said.flatMap Message.out = [7] ∧
    lastExit said = some ⟨some 3, none⟩ ∧ task.stdout = [] ∧ task.reported = some ⟨none, none⟩ := by
  have path := @path_of_foldlM _ _ (guarded (End.step ⟨true, true⟩) (End.served ⟨true, true⟩))
    (End.make ⟨true, true⟩ (.client (.make plainSpec false)) true 0 1 maxChunk) _ closedWhileSending rfl
  exact ⟨_, _, _, path, rfl, rfl, rfl, rfl, by decide, rfl, rfl⟩

/-- The same from a server whose window has room for what the client reads. -/
def closedAfterSending : List End.Label :=
  [.act (.client .start), .process, .hear (.reply true), .act (.client .recv), .act (.client (.readStdin [1, 2])),
    .act (.client .send), .hear (.data [7]), .hear (.request "exit-status" false [0, 0, 0, 3]), .hear .close,
    .act (.client .recv), .act (.client (.wrote 1)), .act (.client .recv), .act (.client .recv)]

theorem server_output_kept_sending : ∃ stay task said,
    Path (guarded (End.step ⟨true, true⟩) fun stay label => stay.served ⟨true, true⟩ label && stay.attends label)
      (End.make ⟨true, true⟩ (.client (.make plainSpec false)) true 0 2 maxChunk) closedAfterSending stay ∧
    stay.task = .client task ∧ task.running = false ∧
    afterReplies plainSpec.replies (untilClose stay.heard) = some said ∧ task.Shows said := by
  have path := @path_of_foldlM _ _
    (guarded (End.step ⟨true, true⟩) fun stay label => stay.served ⟨true, true⟩ label && stay.attends label)
    (End.make ⟨true, true⟩ (.client (.make plainSpec false)) true 0 2 maxChunk) _ closedAfterSending rfl
  exact ⟨_, _, _, path, rfl, rfl, rfl, server_output_kept path rfl rfl rfl⟩

end Following

end Shh.Channels
