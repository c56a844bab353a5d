import Shh.Deeds

/-!
# When a task ends

A task asks for its channel to be closed with its last step, and takes no step after
that. So as long as a task runs, no CLOSE of its own is on the way.
-/

namespace Shh.Channels

open Wire Semaphores Runs

variable {line after : Line} {remoteMax : Nat}

/-- A send adds no command but its own. -/
theorem mem_send {cmd other} (member : cmd ∈ (line.send other).cmds) : cmd ∈ line.cmds ∨ cmd = other := by
  unfold Line.send at member
  split at member
  · exact .inl member
  · simpa using member

/-! A task that has ended takes no more steps. -/

/-- A forwarded stream that steps was running. -/
theorem Forward.step_running {task : Forward} {label result}
    (ran : task.step remoteMax line label = some result) : task.running = true := by
  cases label <;> grind [step, running]

/-- A client session that steps was running. -/
theorem Client.step_running {task : Client} {label result}
    (ran : task.step remoteMax line label = some result) : task.running = true := by
  cases label <;> grind [step, running]

/-- A server session that steps was running. -/
theorem Server.step_running {task : Server} {label result}
    (ran : task.step remoteMax line label = some result) : task.running = true := by
  cases label <;> grind [step, running]

/-- A task that steps was running. -/
theorem Task.step_running {task next : Task} {label}
    (ran : task.step remoteMax line label = some (next, after)) : task.running = true := by
  obtain ⟨mine, cause, result, rfl, moved, rfl, _⟩ | ⟨mine, cause, result, rfl, moved, rfl, _⟩ |
    ⟨mine, cause, result, rfl, moved, rfl, _⟩ := Task.step_cases ran
  · exact Forward.step_running moved
  · exact Client.step_running moved
  · exact Server.step_running moved

/-- No CLOSE is new, unless the task has ended. -/
def Closes (line : Line) (running : Bool) (after : Line) : Prop :=
  .close ∈ after.cmds → .close ∈ line.cmds ∨ running = false

/-- A stream asks to close when both its halves are done. -/
theorem Forward.join_closes (task : Forward) (line : Line) :
    Closes line (task.join line).1.running (task.join line).2 := by
  grind [join, Closes, mem_send]

/-- Sending a chunk closes nothing. -/
theorem send_credited_closes {ext left progress}
    (ran : line.sendCredited remoteMax ext left = (progress, after)) (member : .close ∈ after.cmds) :
    .close ∈ line.cmds := by
  rcases send_credited_cases line remoteMax ext left with
    ⟨_, _, _, result⟩ | ⟨_, _, result⟩ | ⟨_, result⟩ | ⟨_, _, _, _, result⟩
  all_goals
    rw [result] at ran
    obtain ⟨_, rfl⟩ := Prod.mk.inj ran
  · cases ext <;> simpa [Line.chunk] using member
  all_goals exact member

/-- Receiving queues no command. -/
theorem recv_cmds {received} (ran : line.recv = some (received, after)) : after.cmds = line.cmds := by
  obtain ⟨_, _, _, _, rfl⟩ | ⟨_, _, _, rfl⟩ := recv_cases ran <;> rfl

/-- A message closes only a stream that it ends. -/
theorem Forward.message_closes (task : Forward) (line : Line) (message : ToTask) :
    Closes line (task.onMessage line message).1.running (task.onMessage line message).2 := by
  cases message <;> grind [onMessage, join_closes, Closes, mem_send]

/-- So does every step of a stream. -/
theorem Forward.step_closes {task : Forward} {label} {result : Forward × Line}
    (ran : task.step remoteMax line label = some result) : Closes line result.1.running result.2 := by
  cases label with
  | recv => grind [step, join_closes, message_closes, Closes, recv_cmds]
  | _ => grind [step, join_closes, Closes, mem_send, send_credited_closes]

/-- What a session asks for is no CLOSE. -/
theorem Client.spec_cmd_ne (spec : SessionSpec) : spec.cmd ≠ .close := by
  unfold SessionSpec.cmd
  split <;> exact nofun

/-- A reply closes only a session that it ends. -/
theorem Client.reply_closes {granted : Client × Line} (task : Client) (message : Option ToTask)
    (next : Closes line granted.1.running granted.2) :
    Closes line (task.onReply line granted message).1.running (task.onReply line granted message).2 := by
  unfold onReply
  split <;> grind [Closes, finish, running]

/-- So does any other message. -/
theorem Client.message_closes (task : Client) (line : Line) (message : Option ToTask) :
    Closes line (task.onMessage line message).1.running (task.onMessage line message).2 := by
  unfold onMessage
  split <;> grind [Closes, finish, running, mem_send]

/-- So does every step of a client. -/
theorem Client.step_closes {task : Client} {label} {result : Client × Line}
    (ran : task.step remoteMax line label = some result) : Closes line result.1.running result.2 := by
  cases label with
  | recv =>
    simp only [step] at ran
    grind [message_closes, reply_closes, Closes, recv_cmds, ask, mem_send, spec_cmd_ne]
  | _ =>
    grind [step, Closes, mem_send, send_credited_closes, ask, finish, begin, PtyRequest.cmd, spec_cmd_ne, running,
      agentRequest, windowChange]

/-- An answer closes nothing. -/
theorem Server.answer_close (line : Line) (wantReply success : Bool) :
    .close ∈ (answer line wantReply success).cmds → .close ∈ line.cmds := by
  grind [answer, mem_send]

section

variable (task : Server) (line : Line)

/-- A session is closed when its child and its output are done. -/
theorem Server.pump_closes : Closes line (task.pump line).1.running (task.pump line).2 := by
  unfold pump
  split
  · exact fun _ => .inr rfl
  · exact .inl

/-- Starting a child closes only what it ends. -/
theorem Server.launch_closes (wantReply spawned : Bool) (program : Program) (piped : Bool) :
    Closes line (task.launch line wantReply spawned program piped).1.running
      (task.launch line wantReply spawned program piped).2 := by
  unfold launch started settle
  grind [pump_closes, Closes, answer_close, running]

/-- So does a request. -/
theorem Server.request_closes (choices : Choices) (kind : String) (wantReply : Bool)
    (data : Bytes) : Closes line (task.onRequest line choices kind wantReply data).1.running
      (task.onRequest line choices kind wantReply data).2 := by
  unfold onRequest
  grind [launch_closes, Closes, answer_close]

/-- So does what comes before a child is started. -/
theorem Server.early_closes (choices : Choices) (message : Option ToTask) :
    Closes line (task.onEarly line choices message).1.running (task.onEarly line choices message).2 := by
  unfold onEarly
  split <;> grind [request_closes, Closes, mem_send]

/-- So does what comes after. -/
theorem Server.message_closes (message : Option ToTask) :
    Closes line (task.onMessage line message).1.running (task.onMessage line message).2 := by
  unfold onMessage
  split <;> grind [pump_closes, Closes, mem_send, answer_close]

end

/-- So does every step of a server. -/
theorem Server.step_closes {task : Server} {label} {result : Server × Line}
    (ran : task.step remoteMax line label = some result) : Closes line result.1.running result.2 := by
  cases label with
  | recv =>
    simp only [step] at ran
    grind [message_closes, early_closes, Closes, recv_cmds]
  | _ => grind [step, Closes, mem_send, send_credited_closes, running, pump_closes, settle]

/-- No step queues a CLOSE, unless it is the last. -/
theorem Task.step_closes {task next : Task} {label}
    (ran : task.step remoteMax line label = some (next, after)) : Closes line next.running after := by
  obtain ⟨mine, cause, result, rfl, moved, rfl, _⟩ | ⟨mine, cause, result, rfl, moved, rfl, _⟩ |
    ⟨mine, cause, result, rfl, moved, rfl, _⟩ := Task.step_cases ran
  · exact Forward.step_closes moved
  · exact Client.step_closes moved
  · exact Server.step_closes moved

end Shh.Channels
