import Shh.Pairs

/-!
# Flow control between two ends

Between two ends of this code nothing of a window is ever lost or made up. What an
end may still send, what it has queued, what is on the way, what the other end's task
has yet to deal with, what that task has reported and what its loop has noted, and the
adjusts on their way back, always add up to the one window both started with.

Two things have to be shown for this. Neither semaphore nor window is ever clamped,
which follows from the sum itself. And no data goes where a task passes it over: a
forwarded stream sends no extended data, and a session's server sends nothing before
the reply its client waits for.
-/

namespace Shh.Channels

open Wire Semaphores Runs

section Ends

variable {platform : Platform} {chan kept : Chan} {line : Line} {turn : Turn} {message : Message} {stay next : End}
  {label : End.Label}

/-- Credit, queue and what was sent are exactly what was granted. -/
def Exact (stay : End) : Prop :=
  stay.line.credit.permits + stay.line.outgoing + sizes stay.sent = localWindow + grants stay.heard

/-- A message other than CLOSE that keeps the rules. -/
def Fair (platform : Platform) (stay : End) (message : Message) : Prop :=
  message ≠ .close ∧ (∀ chan, stay.chan = some chan → ∃ turn, chan.deliver platform stay.line message = .ok turn) ∧
    ∀ add, message = .adjust add → stay.line.credit.permits + add ≤ min windowMax platform.maxPermits

/-- Nothing of the channel is closed, and nothing is about to be. -/
structure Unclosed (stay : End) : Prop where
  there : stay.chan ≠ none
  recorded : ∀ chan, stay.chan = some chan → chan.sentClose = false
  queued : .close ∉ stay.line.cmds
  sent : .close ∉ stay.sent

theorem deliver_unclosed (other : message ≠ .close) (ok : chan.deliver platform line message = .ok turn) :
    ∃ kept, turn.chan = some kept ∧ kept.sentClose = chan.sentClose ∧ .close ∉ turn.sent ∧ turn.done = false := by
  cases message <;> grind

theorem command_unclosed {cmd} (other : cmd ≠ .close) :
    ∃ kept, (chan.command line cmd).chan = some kept ∧ kept.sentClose = chan.sentClose ∧
      .close ∉ (chan.command line cmd).sent ∧ (chan.command line cmd).done = false ∧
      (chan.command line cmd).line = line := by
  generalize turned : chan.command line cmd = turn
  cases cmd <;> grind

/-- A turn that keeps the channel. -/
theorem take_going (going : turn.done = false) :
    stay.take turn = { stay with chan := turn.chan, line := turn.line, sent := stay.sent ++ turn.sent } := by
  simp only [End.take, going, Bool.false_eq_true, if_false]

/-- While its task runs and nothing ends the connection, an end that hears fair
messages stays open, and its account stays exact. -/
theorem unclosed_step (linked : Linked stay) (unclosed : Unclosed stay) (exact : Exact stay)
    (ran : stay.step platform label = some next) (up : label ≠ .fall)
    (fair : ∀ message, label = .hear message → Fair platform stay message) (running : next.task.running = true) :
    Unclosed next ∧ Exact next := by
  cases End.step_happens ran with
  | unheard dropped => exact absurd dropped unclosed.there
  | @heard message chan turn before ok =>
    obtain ⟨other, _, unclamped⟩ := fair message rfl
    obtain ⟨kept, now, sentClose, plain, going⟩ := deliver_unclosed other ok
    have grant := deliver_grants ok
    rw [take_going going]
    refine ⟨⟨?_, ?_, ?_, ?_⟩, ?_⟩
    · rw [now]
      intro clash
      cases clash
    · intro record same
      cases now.symm.trans same
      exact sentClose.trans (unclosed.recorded _ before)
    · rw [grant.cmds]
      exact unclosed.queued
    · rw [List.mem_append, not_or]
      exact ⟨unclosed.sent, plain⟩
    · have whole : _ = _ := exact
      have added : grants [message] = message.granted := Nat.add_zero _
      have room : min message.granted (min windowMax platform.maxPermits - stay.line.credit.available) =
          message.granted := by
        cases message with
        | adjust add =>
          have most := unclamped add rfl
          simp only [Message.granted, Semaphore.available]
          omega
        | _ => exact Nat.zero_min _
      simp only [Exact, Line.outgoing, grant.cmds, grant.permits, grant.size, room, sizes_append, grants_append,
        added] at whole ⊢
      omega
  | @broken message chan error before refused =>
    obtain ⟨_, accepted, _⟩ := fair message rfl
    obtain ⟨turn, ok⟩ := accepted _ before
    cases ok.symm.trans refused
  | skipped _ dropped => exact absurd dropped unclosed.there
  | @processed cmd rest chan queued before =>
    have other : cmd ≠ .close := by
      rintro rfl
      exact unclosed.queued (queued ▸ List.mem_cons_self)
    obtain ⟨kept, now, sentClose, plain, going, same⟩ :=
      @command_unclosed chan { stay.line with cmds := rest } cmd other
    have carries := command_carries chan { stay.line with cmds := rest } stay.remoteMax cmd
    rw [take_going going]
    refine ⟨⟨?_, ?_, ?_, ?_⟩, ?_⟩
    · rw [now]
      intro clash
      cases clash
    · intro record there
      cases now.symm.trans there
      exact sentClose.trans (unclosed.recorded _ before)
    · rw [same]
      exact fun member => unclosed.queued (queued ▸ List.mem_cons_of_mem _ member)
    · rw [List.mem_append, not_or]
      exact ⟨unclosed.sent, plain⟩
    · have whole : _ = _ := exact
      simp only [Line.outgoing, queued, List.map_cons, List.sum_cons] at whole
      simp only [Exact, Line.outgoing, same, sizes_append, carries.size]
      omega
  | fell => exact absurd rfl up
  | acted moved =>
    have pays := (Task.step_does linked.sound moved).pays
    refine ⟨⟨unclosed.there, unclosed.recorded, ?_, unclosed.sent⟩, ?_⟩
    · intro member
      rcases Task.step_closes moved member with old | ended
      · exact unclosed.queued old
      · cases ended.symm.trans running
    · have whole : _ = _ := exact
      have paid := pays.exactly (linked.alive unclosed.there)
      simp only [Exact] at whole ⊢
      omega

end Ends

namespace Pair

variable {platform : Side → Platform} {pair next : Pair} {mover : Side} {label : End.Label}

/-- Both tasks run. -/
def Running (pair : Pair) : Prop := ∀ side, (pair side).task.running = true

/-- Both ends are open and every byte is accounted for. -/
structure Flowing (pair : Pair) : Prop where
  unclosed : ∀ side, Unclosed (pair side)
  exact : ∀ side, Exact (pair side)
  metered : ∀ side, Metered (pair side)
  balanced : ∀ side, Balanced (pair side)

/-- An end's window is what the other may still send, has queued or sent, and what
is on its way to be granted. -/
theorem Flowing.window (flowing : pair.Flowing) (carried : pair.Carried) {side : Side} {chan : Chan}
    (there : (pair side).chan = some chan) :
    chan.localWindow = (pair side.other).line.credit.permits + (pair side.other).line.outgoing +
      sizes (pair.flight side) + grants (pair.flight side.other) := by
  have sender : _ = _ := flowing.exact side.other
  have receiver := (flowing.metered side chan there).1
  have toSide := carried.sent_eq side
  have toOther := carried.sent_eq side.other
  rw [Side.other_other] at toOther
  rw [toSide, sizes_append] at sender
  rw [toOther, grants_append] at receiver
  omega

/-- The next message on its way keeps the rules. -/
theorem Flowing.fair (flowing : pair.Flowing) (carried : pair.Carried) {side : Side} {message : Message}
    (allowed : pair.allows side (.hear message) = true) : Fair (platform side) (pair side) message := by
  obtain ⟨rest, flight⟩ := allows_hear allowed
  obtain ⟨chan, there⟩ := Option.ne_none_iff_exists'.mp (flowing.unclosed side).there
  obtain ⟨far, farThere⟩ := Option.ne_none_iff_exists'.mp (flowing.unclosed side.other).there
  have narrow : localWindow < 2 ^ 29 - 1 := by decide
  refine ⟨?_, ?_, ?_⟩
  · rintro rfl
    have sent : Message.close ∈ (pair side.other).sent := by
      rw [carried.sent_eq side, flight]
      simp
    exact (flowing.unclosed side.other).sent sent
  · intro record same
    cases there.symm.trans same
    have window := flowing.window carried there
    have whole := flowing.balanced side chan there
    simp only [End.total, Chan.account] at whole
    have arrives {size} (event : ToTask) (part : size ≤ sizes (pair.flight side)) :
        ∃ turn, chan.onData (pair side).line size event = .ok turn := by
      unfold Chan.onData
      rw [if_neg (by omega), if_neg (by omega)]
      exact ⟨_, rfl⟩
    cases message with
    | data bytes | extData kind bytes =>
      apply arrives
      rw [flight]
      exact Nat.le_add_right _ _
    | _ => exact ⟨_, rfl⟩
  · rintro add rfl
    have window := flowing.window carried farThere
    have whole := flowing.balanced side.other far farThere
    rw [Side.other_other] at window
    have part : add ≤ grants (pair.flight side) := by
      rw [flight]
      exact Nat.le_add_right _ _
    have ceiling : 2 ^ 29 - 1 ≤ min windowMax (platform side).maxPermits := by
      unfold Platform.maxPermits
      split <;> decide
    simp only [End.total, Chan.account] at whole
    omega

/-- A step that leaks nothing keeps the flow, as long as both tasks run. -/
theorem flowing_step (carried : pair.Carried) (linked : ∀ side, Linked (pair side)) (flowing : pair.Flowing)
    (ran : pair.step platform (mover, label) = some next) (up : label ≠ .fall)
    (tight : (pair mover).leaks label = false) (running : next.Running) : next.Flowing := by
  obtain ⟨stay, moved, rfl, allowed⟩ := step_cases ran
  have runs := running mover
  rw [Function.update_self] at runs
  obtain ⟨unclosed, exact⟩ := unclosed_step (linked mover) (flowing.unclosed mover) (flowing.exact mover) moved up
    (by
      rintro message rfl
      exact flowing.fair carried allowed) runs
  have metered := metered_step (flowing.balanced mover).within (flowing.metered mover) moved
  have balanced := balanced_step (linked mover) (flowing.balanced mover) tight moved
  exact ⟨fun side => after_move Unclosed (flowing.unclosed side) fun _ => unclosed,
    fun side => after_move Exact (flowing.exact side) fun _ => exact,
    fun side => after_move Metered (flowing.metered side) fun _ => metered,
    fun side => after_move Balanced (flowing.balanced side) fun _ => balanced⟩

/-- A task that runs has been running. -/
theorem running_before (ran : pair.step platform (mover, label) = some next) (running : next.Running) :
    pair.Running := by
  obtain ⟨stay, moved, rfl, _⟩ := step_cases ran
  intro side
  have runs := running side
  by_cases same : side = mover
  · rw [same, Function.update_self] at runs
    rw [same]
    rcases step_task moved with ⟨cause, _, took⟩ | ⟨_, task⟩
    · exact Task.step_running took
    · exact task ▸ runs
  · rw [Function.update_of_ne same] at runs
    exact runs

end Pair

end Shh.Channels
