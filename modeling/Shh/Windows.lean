import Shh.Progress

/-!
# The window we grant

Every byte that arrives is taken off the local window, and the window is opened
again by what the task reports as consumed. The bytes between the two are queued for
the task, in its hands, in its reports or noted as pending; together with the window
they make up the whole of it, unless a task takes data and never reports it.
-/

namespace Shh.Channels

open Wire Semaphores Runs

/-- A step that takes data off the queue, or out of the task's hands, for good:
a message whose bytes the task passes over, or a write to a forwarded socket that
fails. -/
def End.leaks (stay : End) : End.Label → Bool
  | .act label =>
    label.receives && stay.line.inbox.head?.any (fun message => stay.task.passesOver message && message.size ≠ 0) ||
      label = .forward .writeFails && stay.task.holding ≠ 0
  | _ => false

section Accounts

variable {platform : Platform} {chan kept : Chan} {line after : Line} {turn : Turn} {message : Message}

/-- The window, with what will open it again: noted, reported or still queued. -/
def Chan.account (chan : Chan) (line : Line) : Nat :=
  chan.localWindow + chan.pendingConsumed + line.reported + line.incoming

theorem push_incoming (line : Line) (event : ToTask) : (line.push event).incoming = line.incoming + event.size := by
  simp [Line.push, Line.incoming]

/-- A message of the peer that keeps the channel keeps the account. -/
theorem deliver_account (ok : chan.deliver platform line message = .ok turn) (there : turn.chan = some kept) :
    kept.account turn.line = chan.account line := by
  cases message <;> grind [Chan.account, push_incoming, Line.reported, ToTask.size, Line.incoming]

/-- A command that keeps the channel moves what it reports into the record. -/
theorem command_account {cmd : Cmd} (there : (chan.command line cmd).chan = some kept)
    (fits : chan.account line + cmd.reported ≤ windowMax) :
    kept.account (chan.command line cmd).line = chan.account line + cmd.reported := by
  cases cmd <;> grind [Chan.account, Line.incoming, Line.reported, Cmd.reported]

/-- An amount that does not grow, and stays the same if nothing leaks. -/
def Keeps (tight : Prop) (before after : Nat) : Prop := after ≤ before ∧ (tight → after = before)

theorem Keeps.of_eq {tight before after} (same : after = before) : Keeps tight before after :=
  ⟨Nat.le_of_eq same, fun _ => same⟩

/-- A step of a task that loses no bytes. -/
def Heeds (task : Task) (label : Task.Label) (held : Nat) (line : Line) : Prop :=
  (∀ message rest, line.inbox = message :: rest → label.receives = true → task.passesOver message = true →
      message.size = 0) ∧ (label = .forward .writeFails → held = 0)

/-- What is queued for a task, in its hands and reported by it. -/
theorem Does.keeps {task label remoteMax held kept}
    (does : Does task label remoteMax held line kept after) (alive : line.gone = false) :
    Keeps (Heeds task label held line) (line.incoming + held + line.reported)
      (after.incoming + kept + after.reported) := by
  have pop {message : ToTask} {rest} (there : line.inbox = message :: rest) :
      line.incoming = message.size + ({ line with inbox := rest } : Line).incoming := by
    simp [Line.incoming, there]
  cases does with
  | said same quietly | waited same _ quietly =>
    rw [quietly.alike.incoming, quietly.alike.reported, same]
    exact .of_eq rfl
  | took there idle now quietly =>
    rw [quietly.alike.incoming, quietly.alike.reported, now, idle, pop there]
    apply Keeps.of_eq
    simp only [Line.reported]
    omega
  | discarded there idle now receives stopped quietly =>
    rw [quietly.alike.incoming, quietly.alike.reported, now, idle, pop there]
    refine ⟨by simp only [Line.reported]; omega, ?_⟩
    intro heeds
    rw [heeds.1 _ _ there receives stopped]
    simp only [Line.reported]
    omega
  | @noted message rest _ _ there idle now quietly =>
    have report := @send_reported (.consumed message.size) { line with inbox := rest } alive
    rw [quietly.alike.incoming, quietly.alike.reported, now, idle, pop there, report, send_incoming]
    apply Keeps.of_eq
    simp only [Line.reported, Cmd.reported]
    omega
  | reported now quietly =>
    rw [quietly.alike.incoming, quietly.alike.reported, now, send_reported alive, send_incoming]
    apply Keeps.of_eq
    simp only [Cmd.reported]
    omega
  | paid _ _ _ same _ _ quietly =>
    rw [quietly.alike.incoming, quietly.alike.reported, same]
    apply Keeps.of_eq
    simp [Line.incoming, Line.reported, chunk_reported]
  | lost dead => cases alive.symm.trans dead
  | gaveUp now failed quietly =>
    rw [quietly.alike.incoming, quietly.alike.reported, now]
    refine ⟨by omega, ?_⟩
    intro heeds
    rw [heeds.2 failed]

end Accounts

section Balance

variable {platform : Platform} {stay next : End} {label : End.Label}

/-- The account of an end's channel, with what the task has in its hands. -/
def End.total (stay : End) (chan : Chan) : Nat := chan.account stay.line + stay.task.holding

/-- While the channel is there, no more than the window is accounted for. -/
def Within (stay : End) : Prop := ∀ chan, stay.chan = some chan → stay.total chan ≤ localWindow

theorem take_there {turn : Turn} {chan} (there : (stay.take turn).chan = some chan) :
    turn.chan = some chan ∧ stay.take turn =
      { stay with chan := turn.chan, line := turn.line, sent := stay.sent ++ turn.sent } := by
  unfold End.take at there ⊢
  dsimp only at there ⊢
  split at there
  · cases there
  · rename_i going
    rw [if_neg going]
    exact ⟨there, rfl⟩

theorem heeds_of_tight {label} (tight : stay.leaks (.act label) = false) :
    Heeds stay.task label stay.task.holding stay.line := by
  simp only [End.leaks, Bool.or_eq_false_iff] at tight
  refine ⟨?_, ?_⟩
  · intro message rest queued receives stopped
    simpa [queued, receives, stopped] using tight.1
  · intro failed
    simpa [failed] using tight.2

/-- A step keeps the account, or lowers it by what it leaks. -/
theorem total_step {kept} (linked : Linked stay) (within : Within stay)
    (ran : stay.step platform label = some next) (there : next.chan = some kept) :
    ∃ chan, stay.chan = some chan ∧ Keeps (stay.leaks label = false) (stay.total chan) (next.total kept) := by
  cases End.step_happens ran with
  | unheard dropped => cases dropped.symm.trans there
  | heard before ok =>
    obtain ⟨now, shape⟩ := take_there there
    refine ⟨_, before, .of_eq ?_⟩
    rw [shape]
    show kept.account _ + stay.task.holding = _
    rw [deliver_account ok now]
    rfl
  | broken | fell => cases there
  | skipped _ dropped => cases dropped.symm.trans there
  | @processed cmd rest chan queued before =>
    obtain ⟨now, shape⟩ := take_there there
    refine ⟨_, before, .of_eq ?_⟩
    have whole := within chan before
    have popped : chan.account { stay.line with cmds := rest } + cmd.reported = chan.account stay.line := by
      simp only [Chan.account, Line.reported, Line.incoming, queued, List.map_cons, List.sum_cons]
      omega
    have fits : localWindow ≤ windowMax := by decide
    rw [shape]
    show kept.account (chan.command _ cmd).line + stay.task.holding = _
    unfold End.total at whole ⊢
    rw [command_account now (by omega), popped]
  | @acted label task line moved =>
    have alive := linked.alive (fun none => (by cases none.symm.trans there))
    obtain ⟨most, same⟩ := (Task.step_does linked.sound moved).keeps alive
    refine ⟨kept, there, ?_, ?_⟩
    · simp only [End.total, Chan.account]
      omega
    · intro tight
      have whole := same (heeds_of_tight tight)
      simp only [End.total, Chan.account]
      omega

theorem within_step (linked : Linked stay) (within : Within stay) (ran : stay.step platform label = some next) :
    Within next := by
  intro kept there
  obtain ⟨chan, before, most, _⟩ := total_step linked within ran there
  exact Nat.le_trans most (within chan before)

theorem Within.start (platform : Platform) {task : Task} (fresh : task.Fresh) (endOnClose : Bool)
    (peerId peerWindow peerMax : Nat) : Within (.make platform task endOnClose peerId peerWindow peerMax) := by
  intro chan same
  cases same
  cases fresh with
  | forward | client | server => exact Nat.le_refl _

/-- While the channel is there, nothing of its window is missing. -/
def Balanced (stay : End) : Prop := ∀ chan, stay.chan = some chan → stay.total chan = localWindow

theorem Balanced.start (platform : Platform) {task : Task} (fresh : task.Fresh) (endOnClose : Bool)
    (peerId peerWindow peerMax : Nat) : Balanced (.make platform task endOnClose peerId peerWindow peerMax) := by
  intro chan same
  cases same
  cases fresh with
  | forward | client | server => rfl

theorem Balanced.within (balanced : Balanced stay) : Within stay :=
  fun chan there => Nat.le_of_eq (balanced chan there)

theorem balanced_step (linked : Linked stay) (balanced : Balanced stay) (tight : stay.leaks label = false)
    (ran : stay.step platform label = some next) : Balanced next := by
  intro kept there
  obtain ⟨chan, before, _, same⟩ := total_step linked balanced.within ran there
  exact (same tight).trans (balanced chan before)

end Balance

section Meter

variable {platform : Platform} {chan kept : Chan} {line : Line} {turn : Turn} {message : Message} {stay next : End}
  {label : End.Label}

/-- What a message of the peer takes off the window. -/
theorem deliver_meter (ok : chan.deliver platform line message = .ok turn) (there : turn.chan = some kept) :
    kept.localWindow + message.size = chan.localWindow ∧ kept.pendingConsumed = chan.pendingConsumed ∧
      grants turn.sent = 0 := by
  cases message <;> grind [grants, Message.size, Message.granted]

/-- What a command adds to the window it grants to the peer as well. -/
theorem command_meter {cmd : Cmd} (there : (chan.command line cmd).chan = some kept)
    (fits : chan.localWindow + chan.pendingConsumed + cmd.reported ≤ windowMax) :
    kept.localWindow = chan.localWindow + grants (chan.command line cmd).sent ∧
      (chan.pendingConsumed < windowRefill → kept.pendingConsumed < windowRefill) := by
  cases cmd <;> grind [grants, Message.granted, Cmd.reported, windowRefill]

/-- The window of a channel follows from what was heard and granted, and what is
noted is too little to grant. -/
def Metered (stay : End) : Prop :=
  ∀ chan, stay.chan = some chan →
    chan.localWindow + sizes stay.heard = localWindow + grants stay.sent ∧ chan.pendingConsumed < windowRefill

theorem Metered.start (platform : Platform) (task : Task) (endOnClose : Bool) (peerId peerWindow peerMax : Nat) :
    Metered (.make platform task endOnClose peerId peerWindow peerMax) := by
  intro chan same
  cases same
  exact ⟨rfl, (by decide : 0 < windowRefill)⟩

theorem metered_step (within : Within stay) (metered : Metered stay) (ran : stay.step platform label = some next) :
    Metered next := by
  intro kept there
  cases End.step_happens ran with
  | unheard dropped => cases dropped.symm.trans there
  | @heard message chan turn before ok =>
    obtain ⟨now, shape⟩ := take_there there
    obtain ⟨window, pending, granted⟩ := deliver_meter ok now
    obtain ⟨whole, little⟩ := metered chan before
    have size : sizes [message] = message.size := Nat.add_zero _
    rw [shape]
    refine ⟨?_, pending ▸ little⟩
    dsimp only
    rw [sizes_append, grants_append, size]
    omega
  | broken | fell => cases there
  | skipped _ dropped => cases dropped.symm.trans there
  | @processed cmd rest chan queued before =>
    obtain ⟨now, shape⟩ := take_there there
    obtain ⟨whole, little⟩ := metered chan before
    have most := within chan before
    simp only [End.total, Chan.account, Line.reported, queued, List.map_cons, List.sum_cons] at most
    have fits : localWindow ≤ windowMax := by decide
    obtain ⟨window, pending⟩ := command_meter now (by omega)
    rw [shape]
    refine ⟨?_, pending little⟩
    dsimp only at window ⊢
    rw [grants_append]
    omega
  | acted moved => exact metered kept there

end Meter

section Whole

variable {platform : Platform} {stay : End}

/-- In a run without leaks the window, with what is queued, in hand, reported and
noted, is always whole; so once the task has dealt with everything, nothing is
missing. -/
theorem receive_window_whole {task : Task} (fresh : task.Fresh) {endOnClose : Bool} {peerId : Nat}
    {peerWindow peerMax : UInt32} {labels : List End.Label}
    (path : Path (guarded (End.step platform) fun stay label => !stay.leaks label)
      (.make platform task endOnClose peerId peerWindow.toNat peerMax.toNat) labels stay)
    {chan : Chan} (there : stay.chan = some chan) :
    chan.localWindow + chan.pendingConsumed + stay.line.reported + stay.line.incoming + stay.task.holding =
        localWindow ∧
      (stay.line.inbox = [] → stay.task.holding = 0 →
        chan.localWindow + chan.pendingConsumed + stay.line.reported = localWindow) := by
  obtain ⟨_, balanced⟩ := path_invariant (fun _ stay => Linked stay ∧ Balanced stay)
    ⟨.start platform fresh _ _ _ _, .start platform fresh _ _ _ _⟩ (by
      intro past before label after _ ran both
      obtain ⟨tight, ran⟩ := guarded_eq_some.mp ran
      exact ⟨linked_step both.1 ran, balanced_step both.1 both.2 (by simpa using tight) ran⟩) path
  have whole := balanced chan there
  unfold End.total Chan.account at whole
  refine ⟨whole, ?_⟩
  intro empty idle
  rw [Line.incoming, empty, List.map_nil, List.sum_nil, idle] at whole
  exact whole

/-- Extended data on a forwarded stream: one byte arrives, and the task takes it. -/
def strayStderr : List End.Label := [.hear (.extData 1 [7]), .act (.forward .recv)]

/-- The byte is missing from the window although the task has nothing left to do. -/
theorem stray_stderr_missing : ∃ stay chan,
    Path (End.step ⟨true, true⟩) (.make ⟨true, true⟩ (.forward .start) false 0 100 100) strayStderr stay ∧
      stay.chan = some chan ∧ stay.task.running = true ∧ stay.line.inbox = [] ∧ stay.task.holding = 0 ∧
      chan.localWindow + chan.pendingConsumed + stay.line.reported = localWindow - 1 :=
  ⟨_, _, path_of_foldlM strayStderr rfl, rfl, rfl, rfl, rfl, rfl⟩

/-- Data on a forwarded stream: three bytes arrive, are written and reported. -/
def plainData : List End.Label :=
  [.hear (.data [1, 2, 3]), .act (.forward .recv), .act (.forward (.wrote 3))]

theorem receive_window_whole_plain : ∃ stay chan,
    Path (guarded (End.step ⟨true, true⟩) fun stay label => !stay.leaks label)
      (.make ⟨true, true⟩ (.forward .start) false 0 100 100) plainData stay ∧
    stay.chan = some chan ∧ stay.line.cmds = [.consumed 3] ∧
    chan.localWindow + chan.pendingConsumed + stay.line.reported = localWindow := by
  have path := @path_of_foldlM _ _ (guarded (End.step ⟨true, true⟩) fun stay label => !stay.leaks label)
    (.make ⟨true, true⟩ (.forward .start) false 0 100 100) _ plainData rfl
  exact ⟨_, _, path, rfl, rfl,
    (@receive_window_whole ⟨true, true⟩ _ _ .forward false 0 100 100 plainData path _ rfl).2 rfl rfl⟩

end Whole

end Shh.Channels
