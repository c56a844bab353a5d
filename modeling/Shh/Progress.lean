import Shh.Credit

/-!
# When a sender gets on

A task that has read something waits until there is credit for its whole next
chunk. The chunk's size is chosen from what was read and from the largest packet,
not from the credit, so a sender can have some credit and still wait for more. Here
is exactly when data can be sent without another word from the peer.
-/

namespace Shh.Channels

open Wire Semaphores Runs

/-- Steps that need nothing of the peer and leave the connection up. -/
def End.Label.isLocal : End.Label → Bool
  | .process | .act _ => true
  | .hear _ | .fall => false

/-- Data can be sent before the peer says anything more. -/
def End.CanSend (platform : Platform) (stay : End) : Prop :=
  ∃ labels later, labels.all End.Label.isLocal = true ∧ Path (End.step platform) stay labels later ∧
    sizes stay.sent < sizes later.sent

section Sending

variable {platform : Platform} {stay next : End} {chan : Chan} {line after : Line} {remoteMax : Nat}

/-- A command carried out on an open channel. -/
theorem process_open {cmd : Cmd} {rest} (there : stay.chan = some chan) (still : chan.peerClosed = false)
    (queued : stay.line.cmds = cmd :: rest) :
    ∃ kept sent, kept.peerClosed = false ∧ sizes sent = cmd.size ∧ stay.step platform .process =
      some { stay with chan := some kept, line := { stay.line with cmds := rest }, sent := stay.sent ++ sent } := by
  obtain ⟨kept, sent, result, still, _⟩ := command_open still { stay.line with cmds := rest } cmd
  have size := (command_carries chan { stay.line with cmds := rest } stay.remoteMax cmd).size
  rw [result] at size
  refine ⟨kept, sent, still, size, ?_⟩
  simp only [End.step, queued, End.process, there, result]
  rfl

/-- Queued data is sent by carrying out the commands before it. -/
theorem queue_sends {before rest} {cmd : Cmd} (there : stay.chan = some chan)
    (still : chan.peerClosed = false) (queued : stay.line.cmds = before ++ cmd :: rest) (data : 0 < cmd.size) :
    stay.CanSend platform := by
  induction before generalizing stay chan with
  | nil =>
    obtain ⟨kept, sent, _, size, ran⟩ := @process_open platform _ _ _ _ there still queued
    refine ⟨[.process], _, rfl, .snoc .nil ran, ?_⟩
    rw [sizes_append]
    omega
  | cons first before ih =>
    obtain ⟨kept, sent, still, _, ran⟩ := @process_open platform _ _ _ _ there still queued
    obtain ⟨labels, later, fit, path, more⟩ := @ih
      { stay with chan := some kept, line := { stay.line with cmds := before ++ cmd :: rest },
                  sent := stay.sent ++ sent } _ rfl still rfl
    refine ⟨.process :: labels, later, fit, .cons ran path, ?_⟩
    rw [sizes_append] at more
    omega

/-- The step that sends what a task has read. -/
def Task.sendLabel : Task → Task.Label
  | .forward _ => .forward .send
  | .client _ => .client .send
  | .server _ => .server .send

/-- A task that can pay for its next chunk queues it. -/
theorem send_queues {task : Task} (some : task.unsent ≠ []) (unshut : line.credit.closed = false)
    (alive : line.gone = false) (enough : min task.unsent.length remoteMax ≤ line.credit.permits) :
    ∃ ext next after more, task.step remoteMax line task.sendLabel = .some (next, after) ∧
      after.cmds = line.cmds ++ Line.chunk ext (task.unsent.take (min task.unsent.length remoteMax)) :: more := by
  have sends (ext : Option Nat) := (send_credited_cases line remoteMax ext task.unsent).resolve_right (by
    rintro (⟨_, short, _⟩ | ⟨shut, _⟩ | ⟨dead, _⟩)
    · omega
    · cases unshut.symm.trans shut
    · exact absurd (alive.symm.trans dead) Bool.false_ne_true)
  cases task with
  | forward task =>
    have sent := (sends none).2.2.2
    cases sending : task.reader with
    | sending left =>
      have unsent : (Task.forward task).unsent = left := by simp only [Task.unsent, Forward.unsent, sending]
      rw [unsent] at sent ⊢
      simp only [Task.step, Task.sendLabel, Forward.step, sending, sent]
      exact ⟨none, _, _, [], rfl, rfl⟩
    | _ => exact absurd (by simp only [Task.unsent, Forward.unsent, sending]) some
  | client task =>
    cases phase : task.phase with
    | pumping work =>
      cases work with
      | sending ext left =>
        have unsent : (Task.client task).unsent = left := by simp only [Task.unsent, Client.unsent, phase, Work.unsent]
        have sent := (sends ext).2.2.2
        rw [unsent] at sent ⊢
        simp only [Task.step, Task.sendLabel, Client.step, phase, sent]
        exact ⟨ext, _, _, [], rfl, rfl⟩
      | _ => exact absurd (by simp only [Task.unsent, Client.unsent, phase, Work.unsent]) some
    | _ => exact absurd (by simp only [Task.unsent, Client.unsent, phase]) some
  | server task =>
    cases phase : task.phase with
    | pumping work =>
      cases work with
      | sending ext left =>
        have unsent : (Task.server task).unsent = left := by simp only [Task.unsent, Server.unsent, phase, Work.unsent]
        have sent := (sends ext).2.2.2
        rw [unsent] at sent ⊢
        simp only [Task.step, Task.sendLabel, Server.step, phase, sent]
        split
        · obtain ⟨more, grown⟩ := (Server.pump_plain task _).2.grows
          refine ⟨ext, _, _, more, rfl, ?_⟩
          rw [grown]
          simp
        · exact ⟨ext, _, _, [], rfl, rfl⟩
      | _ => exact absurd (by simp only [Task.unsent, Server.unsent, phase, Work.unsent]) some
    | _ => exact absurd (by simp only [Task.unsent, Server.unsent, phase]) some

end Sending

section Waiting

variable {platform : Platform} {stay next : End} {line after : Line} {remoteMax : Nat}

/-- Without enough credit nothing is queued. -/
theorem Does.short {task : Task} {label held kept}
    (does : Does task label remoteMax held line kept after)
    (short : line.credit.permits < min task.unsent.length remoteMax) : after.outgoing = line.outgoing := by
  cases does with
  | said _ quietly | waited _ _ quietly | gaveUp _ _ quietly => exact quietly.alike.outgoing
  | took _ _ _ quietly | discarded _ _ _ _ _ quietly => exact quietly.alike.outgoing
  | noted _ _ _ quietly => exact quietly.alike.outgoing.trans (send_outgoing rfl)
  | reported _ quietly => exact quietly.alike.outgoing.trans (send_outgoing rfl)
  | lost _ _ _ quietly => exact quietly.alike.outgoing
  | paid _ unsent _ _ enough =>
    rw [unsent] at short
    omega

/-- Nothing is queued, and there is not enough credit for the next chunk. -/
structure Stuck (stay : End) : Prop where
  linked : Linked stay
  there : stay.chan ≠ none
  unsent : stay.task.unsent ≠ []
  short : stay.line.credit.permits < min stay.task.unsent.length stay.remoteMax
  empty : stay.line.outgoing = 0

theorem Stuck.step {label : End.Label} (stuck : Stuck stay) (near : label.isLocal = true)
    (ran : stay.step platform label = some next) : Stuck next ∧ sizes next.sent = sizes stay.sent := by
  have linked := linked_step stuck.linked ran
  cases End.step_happens ran with
  | unheard | heard | broken | fell => cases near
  | skipped queued dropped => exact absurd dropped stuck.there
  | @processed cmd rest chan queued there =>
    have empty := stuck.empty
    simp only [Line.outgoing, queued, List.map_cons, List.sum_cons] at empty
    obtain ⟨kept, sent, still, size, same⟩ :=
      @process_open platform _ _ _ _ there (stuck.linked.still _ there) queued
    obtain next := Option.some.inj (same.symm.trans ran)
    rw [← next] at linked ⊢
    refine ⟨⟨linked, (by simp), stuck.unsent, stuck.short, ?_⟩, ?_⟩
    · show (rest.map Cmd.size).sum = 0
      omega
    · rw [sizes_append]
      omega
  | acted moved =>
    obtain ⟨chan, there⟩ := Option.ne_none_iff_exists'.mp stuck.there
    have unshut : stay.line.credit.closed = false := by
      rw [stuck.linked.closed, there]
      rfl
    have does := Task.step_does stuck.linked.sound moved
    have unsent := (Task.step_unsent unshut (stuck.linked.alive stuck.there) stuck.unsent moved).resolve_right
      fun granted => Nat.not_le.mpr stuck.short granted.1
    have queued := does.short stuck.short
    have paid := does.pays.exactly (stuck.linked.alive stuck.there)
    refine ⟨⟨linked, stuck.there, ?_, ?_, queued.trans stuck.empty⟩, rfl⟩
    · dsimp only
      rw [unsent]
      exact stuck.unsent
    · have short := stuck.short
      dsimp only
      rw [unsent]
      omega

theorem Stuck.cannot_send (stuck : Stuck stay) : ¬stay.CanSend platform := by
  rintro ⟨labels, later, near, path, more⟩
  have still : Stuck later ∧ sizes later.sent = sizes stay.sent := by
    clear more
    induction path with
    | nil => exact ⟨stuck, rfl⟩
    | snoc earlier last ih =>
      rw [List.all_append, Bool.and_eq_true] at near
      obtain ⟨waits, same⟩ := ih near.1
      obtain ⟨after, kept⟩ := waits.step (by simpa using near.2) last
      exact ⟨after, kept.trans same⟩
  omega

end Waiting

section Iff

variable {platform : Platform} {stay : End}

/-- Some command carries data if any bytes are queued. -/
theorem data_queued {cmds : List Cmd} (data : 0 < (cmds.map Cmd.size).sum) :
    ∃ before cmd rest, cmds = before ++ cmd :: rest ∧ 0 < cmd.size := by
  induction cmds with
  | nil => exact absurd data (Nat.lt_irrefl 0)
  | cons first others ih =>
    rw [List.map_cons, List.sum_cons] at data
    by_cases here : 0 < first.size
    · exact ⟨[], first, others, rfl, here⟩
    · obtain ⟨before, cmd, rest, rfl, positive⟩ := ih (by omega)
      exact ⟨first :: before, cmd, rest, rfl, positive⟩

/-- A task that can pay for its next chunk gets it sent. -/
theorem affords_sends (linked : Linked stay) (up : stay.chan ≠ none) (some : stay.task.unsent ≠ [])
    (enough : min stay.task.unsent.length stay.remoteMax ≤ stay.line.credit.permits) : stay.CanSend platform := by
  obtain ⟨chan, there⟩ := Option.ne_none_iff_exists'.mp up
  have unshut : stay.line.credit.closed = false := by
    rw [linked.closed, there]
    rfl
  obtain ⟨ext, task, after, more, ran, queued⟩ := send_queues some unshut (linked.alive up) enough
  have data : 0 < (Line.chunk ext (stay.task.unsent.take (min stay.task.unsent.length stay.remoteMax))).size := by
    have long := List.length_pos_iff.mpr some
    have positive := linked.positive
    rw [chunk_size, List.length_take]
    omega
  obtain ⟨labels, later, near, path, sent⟩ :=
    @queue_sends platform { stay with task, line := after } _ _ _ _ there (linked.still _ there) queued data
  have acted : stay.step platform (.act stay.task.sendLabel) = .some { stay with task, line := after } := by
    simp only [End.step, ran, Option.map_some]
  exact ⟨.act stay.task.sendLabel :: labels, later, near, .cons acted path, sent⟩

/-- On an open channel whose task has read something, data can be sent without
another message of the peer exactly if some is queued already or the credit covers
the whole next chunk. -/
theorem can_send_iff {task : Task} (fresh : task.Fresh) {endOnClose : Bool} {peerId : Nat}
    {peerWindow peerMax : UInt32} {labels : List End.Label}
    (path : Path (End.step platform)
      (End.make platform task endOnClose peerId peerWindow.toNat peerMax.toNat) labels stay)
    (up : stay.chan ≠ none) (some : stay.task.unsent ≠ []) :
    stay.CanSend platform ↔
      0 < stay.line.outgoing ∨ min stay.task.unsent.length stay.remoteMax ≤ stay.line.credit.permits := by
  have linked := linked_path fresh path
  obtain ⟨chan, there⟩ := Option.ne_none_iff_exists'.mp up
  constructor
  · intro can
    by_contra neither
    rw [not_or, Nat.not_lt, Nat.not_le] at neither
    exact Stuck.cannot_send ⟨linked, up, some, neither.2, Nat.le_zero.mp neither.1⟩ can
  · rintro (data | enough)
    · obtain ⟨before, cmd, rest, queued, data⟩ := data_queued data
      exact queue_sends there (linked.still _ there) queued data
    · exact affords_sends linked up some enough

/-- The peer grants one byte and two are read. -/
def oneByteWindow : List End.Label := [.act (.forward (.read [1, 2]))]

/-- A window of one byte is never used: the sender waits for a second one, and a
peer that waits for data before it grants more will never grant it. -/
theorem one_byte_window_stuck : ∃ stay,
    Path (End.step ⟨true, true⟩) (.make ⟨true, true⟩ (.forward .start) false 0 1 32768) oneByteWindow stay ∧
      stay.chan ≠ none ∧ stay.task.unsent = [1, 2] ∧ sizes stay.sent < 1 + grants stay.heard ∧
      ¬stay.CanSend ⟨true, true⟩ := by
  have path := @path_of_foldlM _ _ (End.step ⟨true, true⟩) (.make ⟨true, true⟩ (.forward .start) false 0 1 32768) _
    oneByteWindow rfl
  refine ⟨_, path, nofun, rfl, by decide, ?_⟩
  exact Stuck.cannot_send ⟨linked_path .forward path, nofun, nofun, by decide, rfl⟩

/-- With three bytes granted the same read is sent. -/
theorem can_send_iff_covered : ∃ stay,
    Path (End.step ⟨true, true⟩) (.make ⟨true, true⟩ (.forward .start) false 0 3 32768) oneByteWindow stay ∧
      stay.task.unsent = [1, 2] ∧ (stay.CanSend ⟨true, true⟩ ↔
        0 < stay.line.outgoing ∨ min stay.task.unsent.length stay.remoteMax ≤ stay.line.credit.permits) := by
  have path := @path_of_foldlM _ _ (End.step ⟨true, true⟩) (.make ⟨true, true⟩ (.forward .start) false 0 3 32768) _
    oneByteWindow rfl
  exact ⟨_, path, rfl, @can_send_iff ⟨true, true⟩ _ _ .forward false 0 3 32768 oneByteWindow path nofun nofun⟩

end Iff

end Shh.Channels
