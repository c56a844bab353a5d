import Shh.Windows

/-!
# The two ends of a channel

Both ends of a channel run this code and are joined by a reliable stream in each
direction: what one has sent the other hears in the same order, each message at any
later time. The end that accepted the channel exists before the one that opened it
hears of it, which is the case of an end that has not moved yet.
-/

namespace Shh.Channels

open Wire Semaphores Runs

inductive Side where
  | opener
  | acceptor
deriving DecidableEq, Repr

def Side.other : Side → Side
  | .opener => .acceptor
  | .acceptor => .opener

@[simp] theorem Side.other_other (side : Side) : side.other.other = side := by
  cases side <;> rfl

theorem Side.other_ne (side : Side) : side.other ≠ side := by
  cases side <;> exact nofun

theorem Side.eq_or_other (side mover : Side) : side = mover ∨ side = mover.other := by
  cases side <;> cases mover <;> simp [Side.other]

abbrev Pair := Side → End

namespace Pair

/-- Messages on their way to an end. -/
def flight (pair : Pair) (side : Side) : List Message := (pair side.other).sent.drop (pair side).heard.length

/-- An end hears the next message on its way to it, and nothing else. -/
def allows (pair : Pair) (side : Side) : End.Label → Bool
  | .hear message => (pair.flight side).head? = some message
  | _ => true

def step (platform : Side → Platform) (pair : Pair) (event : Side × End.Label) : Option Pair :=
  if pair.allows event.1 event.2 then
    ((pair event.1).step (platform event.1) event.2).map (Function.update pair event.1)
  else none

variable {platform : Side → Platform} {pair next start : Pair} {side mover : Side} {label : End.Label}
  {events : List (Side × End.Label)}

theorem step_cases (ran : pair.step platform (mover, label) = some next) :
    ∃ stay, (pair mover).step (platform mover) label = some stay ∧ next = Function.update pair mover stay ∧
      pair.allows mover label = true := by
  unfold step at ran
  split at ran
  · rename_i allowed
    obtain ⟨stay, moved, rfl⟩ := Option.map_eq_some_iff.mp ran
    exact ⟨stay, moved, rfl, allowed⟩
  · cases ran

/-- What holds of an end after one of the two has moved. -/
theorem after_move (Inv : End → Prop) {stay : End} (before : Inv (pair side)) (moved : side = mover → Inv stay) :
    Inv (Function.update pair mover stay side) := by
  by_cases same : side = mover
  · rw [same, Function.update_self]
    exact moved same
  · rw [Function.update_of_ne same]
    exact before

end Pair

section Logs

variable {platform : Platform} {stay next : End} {label : End.Label}

theorem take_logs (stay : End) (turn : Turn) :
    (stay.take turn).sent = stay.sent ++ turn.sent ∧ (stay.take turn).heard = stay.heard := by
  unfold End.take
  dsimp only
  split <;> exact ⟨rfl, rfl⟩

/-- An end only adds to what it has sent. -/
theorem step_sent (ran : stay.step platform label = some next) : stay.sent <+: next.sent := by
  cases End.step_happens ran with
  | unheard | broken | skipped | fell | acted => exact List.prefix_rfl
  | heard _ _ | processed _ _ =>
    rw [(take_logs _ _).1]
    exact List.prefix_append _ _

/-- An end adds to what it has heard the message it hears. -/
theorem step_heard (ran : stay.step platform label = some next) :
    (∃ message, label = .hear message ∧ next.heard = stay.heard ++ [message]) ∨
      ((∀ message, label ≠ .hear message) ∧ next.heard = stay.heard) := by
  cases End.step_happens ran with
  | @unheard message | @broken message => exact .inl ⟨message, rfl, rfl⟩
  | @heard message => exact .inl ⟨message, rfl, (take_logs _ _).2⟩
  | skipped | fell | acted => exact .inr ⟨nofun, rfl⟩
  | processed => exact .inr ⟨nofun, (take_logs _ _).2⟩

theorem take_task (stay : End) (turn : Turn) : (stay.take turn).task = stay.task := by
  unfold End.take
  dsimp only
  split <;> rfl

/-- An end's task moves by its own steps only. -/
theorem step_task (ran : stay.step platform label = some next) :
    (∃ cause, label = .act cause ∧
        stay.task.step stay.remoteMax stay.line cause = some (next.task, next.line)) ∨
      ((∀ cause, label ≠ .act cause) ∧ next.task = stay.task) := by
  cases End.step_happens ran with
  | unheard | broken | skipped | fell => exact .inr ⟨nofun, rfl⟩
  | heard _ _ | processed _ _ => exact .inr ⟨nofun, take_task _ _⟩
  | @acted cause _ _ moved => exact .inl ⟨cause, rfl, moved⟩

end Logs

namespace Pair

variable {platform : Side → Platform} {pair next start : Pair} {side mover : Side} {label : End.Label}
  {events : List (Side × End.Label)}

/-- An end has heard a first part of what the other has sent. -/
def Carried (pair : Pair) : Prop := ∀ side, (pair side).heard <+: (pair side.other).sent

theorem Carried.sent_eq (carried : pair.Carried) (side : Side) :
    (pair side.other).sent = (pair side).heard ++ pair.flight side := by
  obtain ⟨rest, whole⟩ := carried side
  rw [flight, ← whole, List.drop_left]

theorem allows_hear {message} (allowed : pair.allows side (.hear message) = true) :
    ∃ rest, pair.flight side = message :: rest := by
  obtain ⟨rest, there⟩ := List.head?_eq_some_iff.mp (of_decide_eq_true allowed)
  exact ⟨rest, there⟩

theorem carried_step (carried : pair.Carried) (ran : pair.step platform (mover, label) = some next) :
    next.Carried := by
  obtain ⟨stay, moved, rfl, allowed⟩ := step_cases ran
  intro side
  rcases Side.eq_or_other side mover with rfl | rfl
  · rw [Function.update_self, Function.update_of_ne side.other_ne]
    rcases step_heard moved with ⟨message, rfl, heard⟩ | ⟨_, heard⟩
    · obtain ⟨rest, there⟩ := allows_hear allowed
      rw [heard, carried.sent_eq side, there]
      exact ⟨rest, by simp⟩
    · rw [heard]
      exact carried side
  · rw [Function.update_of_ne mover.other_ne, Side.other_other, Function.update_self]
    have before := carried mover.other
    rw [Side.other_other] at before
    exact before.trans (step_sent moved)

end Pair

end Shh.Channels
