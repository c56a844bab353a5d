import Mathlib

/-!
# Rules for computations that carry a state and may fail

Two shapes of imperative code recur. A parser threads the unread input and
forgets it when it fails; a protocol routine keeps whatever it changed before it
failed. The first is `StateT σ (Except ε)`, the second `EStateM ε σ`.

The rules here take such a computation apart at a bind: a successful run of the
whole is a successful run of each part, and the state after a run, failed or
not, is the state after the last part that ran. A property of the states before
and after is proved for each primitive operation and then carried through every
composition, so a routine is never unfolded by its callers.
-/

namespace Shh.Computations

universe u
variable {σ ε α β : Type u}

/-- A successful result of a parser bind splits into its two parts. -/
theorem bind_ok {first : StateT σ (Except ε) α} {next : α → StateT σ (Except ε) β} {before result} :
    (first >>= next) before = .ok result ↔
      ∃ value between, first before = .ok (value, between) ∧ next value between = .ok result := by
  simp only [bind, StateT.bind, Except.bind]
  cases first before with
  | error reason => simp
  | ok pair =>
    obtain ⟨value, between⟩ := pair
    simp

/-- The first part's success hands its value and state to the rest. -/
theorem bind_of_ok {first : StateT σ (Except ε) α} {next : α → StateT σ (Except ε) β}
    {before between value} (ran : first before = .ok (value, between)) :
    (first >>= next) before = next value between := by
  simp only [bind, StateT.bind, Except.bind, ran]

/-- The first part's failure is the failure of the whole. -/
theorem bind_of_error {first : StateT σ (Except ε) α} {next : α → StateT σ (Except ε) β}
    {before reason} (failed : first before = .error reason) :
    (first >>= next) before = .error reason := by
  simp only [bind, StateT.bind, Except.bind, failed]

/-- A successful result splits in the same way where there is no state. -/
theorem except_bind_ok {first : Except ε α} {next : α → Except ε β} {result} :
    (first >>= next) = .ok result ↔ ∃ value, first = .ok value ∧ next value = .ok result := by
  cases first with
  | error | ok => simp [bind, Except.bind]

/-- Returning a value succeeds with the state untouched, and in no other way. -/
theorem pure_ok {value before result} :
    (pure value : StateT σ (Except ε) α) before = .ok result ↔ result = (value, before) := by
  simp only [pure, StateT.pure, Except.pure, Except.ok.injEq]
  exact eq_comm

/-- A refusal never succeeds. -/
theorem throw_ok {reason before result} :
    (throw reason : StateT σ (Except ε) α) before = .ok result ↔ False := by
  simp [throw, throwThe, MonadExceptOf.throw, StateT.lift, bind, Except.bind]

section Routines

variable {post : α → σ → Prop} {last : β → σ → Prop} {fail : ε → σ → Prop}

/-- The weakest precondition of a routine that keeps its state when it fails: it
returns a value with `post`, or fails and leaves `fail` of its reason. -/
def wp (routine : EStateM ε σ α) (post : α → σ → Prop) (fail : ε → σ → Prop) (before : σ) : Prop :=
  match routine before with
  | .ok value after => post value after
  | .error reason after => fail reason after

/-- Sequencing: what the rest needs is the first part's postcondition. -/
theorem wp_bind (first : EStateM ε σ α) (next : α → EStateM ε σ β) (before : σ) :
    wp (first >>= next) last fail before = wp first (fun value => wp (next value) last fail) fail before := by
  change wp (EStateM.bind first next) last fail before = _
  unfold wp EStateM.bind
  cases first before with
  | error | ok => rfl

/-- A branch: each side has its condition. -/
theorem wp_ite {condition} [Decidable condition] {whenTrue whenFalse : EStateM ε σ α} {before : σ}
    (positive : condition → wp whenTrue post fail before)
    (negative : ¬ condition → wp whenFalse post fail before) :
    wp (if condition then whenTrue else whenFalse) post fail before := by
  by_cases holds : condition
  · rw [if_pos holds]
    exact positive holds
  · rw [if_neg holds]
    exact negative holds

end Routines

end Shh.Computations
