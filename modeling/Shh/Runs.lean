import Mathlib

/-!
# Runs of transition systems

Three kinds of system appear. An event-driven one is a function from a state and
an event to the next state, and its runs are event lists; an invariant of such a
system may mention the events that led to the state. A concurrent one is a
relation between states, and its runs are the reflexive and transitive closure
from an initial state. A guarded one is a partial function of a state and an event:
a run is a list of events each of which was possible.

Each invariant is proved for the initial state and for one step, and carried to
every run by the rules here.

A trace is judged entry by entry, each against what came before it.
-/

namespace Shh.Runs

open List

variable {σ ε : Type*}

variable {step : σ → ε → Option σ} {allowed : List ε → ε → Prop} {start middle finish : σ}
  {first second events trace : List ε} {event : ε}

/-- The state after a list of events, oldest first. -/
def run (step : σ → ε → σ) (start : σ) (events : List ε) : σ := events.foldl step start

section

variable (step : σ → ε → σ) (start : σ)

@[simp] theorem run_nil : run step start [] = start := rfl

@[simp] theorem run_snoc (past : List ε) (event : ε) :
    run step start (past ++ [event]) = step (run step start past) event := by
  simp [run]

/-- An invariant of states and their histories holds after every run when it
holds at the start and each event extends it. -/
theorem run_invariant (Inv : List ε → σ → Prop) (initial : Inv [] start)
    (preserved : ∀ past state event, Inv past state → Inv (past ++ [event]) (step state event))
    (events : List ε) : Inv events (run step start events) := by
  induction events using List.reverseRecOn with
  | nil => exact initial
  | append_singleton past event ih =>
    rw [run_snoc]
    exact preserved past _ event ih

end

/-- An invariant of a relation's steps is an invariant of its runs. -/
theorem reaches_invariant {steps : σ → σ → Prop} {Inv : σ → Prop}
    (preserved : ∀ before after, steps before after → Inv before → Inv after)
    (reaches : Relation.ReflTransGen steps start finish) (initial : Inv start) : Inv finish := by
  induction reaches with
  | refl => exact initial
  | tail _ step ih => exact preserved _ _ step ih

/-- The events lead from one state to another, each of them possible when it comes. -/
inductive Path (step : σ → ε → Option σ) (start : σ) : List ε → σ → Prop where
  | nil : Path step start [] start
  | snoc {past : List ε} {state next : σ} {event : ε} (earlier : Path step start past state)
      (last : step state event = some next) : Path step start (past ++ [event]) next

theorem Path.trans (before : Path step start first middle) (after : Path step middle second finish) :
    Path step start (first ++ second) finish := by
  induction after with
  | nil =>
    rw [append_nil]
    exact before
  | snoc _ last ih =>
    rw [← append_assoc]
    exact .snoc ih last

theorem Path.cons (first : step start event = some middle) (after : Path step middle events finish) :
    Path step start (event :: events) finish :=
  (Path.snoc .nil first).trans after

/-- A list of events that can all be carried out is a path. -/
theorem path_of_foldlM (events : List ε)
    (ran : events.foldlM step start = some finish) : Path step start events finish := by
  induction events using List.reverseRecOn generalizing finish with
  | nil =>
    cases ran
    exact .nil
  | append_singleton past event ih =>
    rw [foldlM_append] at ran
    obtain ⟨state, earlier, last⟩ := Option.bind_eq_some_iff.mp ran
    rw [foldlM_cons] at last
    obtain ⟨next, moved, done⟩ := Option.bind_eq_some_iff.mp last
    cases done
    exact .snoc (ih earlier) moved

theorem path_of_some (events : List ε) (ran : (events.foldlM step start).isSome = true) :
    Path step start events ((events.foldlM step start).get ran) :=
  path_of_foldlM events (Option.some_get ran).symm

/-- Only the steps that meet a condition on the state before them. -/
def guarded (step : σ → ε → Option σ) (allowed : σ → ε → Bool) (state : σ) (event : ε) : Option σ :=
  if allowed state event then step state event else none

theorem guarded_eq_some {allowed : σ → ε → Bool} {state next} :
    guarded step allowed state event = some next ↔ allowed state event = true ∧ step state event = some next := by
  unfold guarded
  split
  · rename_i met
    exact ⟨fun ran => ⟨met, ran⟩, fun both => both.2⟩
  · rename_i unmet
    exact ⟨nofun, fun both => absurd both.1 unmet⟩

/-- A path of guarded steps is a path. -/
theorem Path.unguarded {allowed : σ → ε → Bool}
    (path : Path (guarded step allowed) start events finish) : Path step start events finish := by
  induction path with
  | nil => exact .nil
  | snoc _ last ih => exact .snoc ih (guarded_eq_some.mp last).2

/-- An invariant of states and their histories holds along every path. -/
theorem path_invariant (Inv : List ε → σ → Prop) (initial : Inv [] start)
    (preserved : ∀ past state event next, Path step start past state → step state event = some next →
      Inv past state → Inv (past ++ [event]) next)
    (path : Path step start events finish) : Inv events finish := by
  induction path with
  | nil => exact initial
  | snoc earlier last ih => exact preserved _ _ _ _ earlier last ih

/-- A condition on a state and the event that comes to it holds at every step of a run. -/
def Throughout (step : σ → ε → Option σ) (start : σ) (holds : σ → ε → Prop) (events : List ε) : Prop :=
  ∀ past event rest state, events = past ++ event :: rest → Path step start past state → holds state event

theorem Throughout.earlier {holds : σ → ε → Prop} {past rest : List ε}
    (throughout : Throughout step start holds (past ++ rest)) : Throughout step start holds past := by
  intro before event after state split path
  exact throughout before event (after ++ rest) state (by rw [split, append_assoc, cons_append]) path

/-- Every entry of a trace is allowed after what precedes it. -/
def Licensed (allowed : List ε → ε → Prop) (trace : List ε) : Prop :=
  ∀ before entry after, trace = before ++ entry :: after → allowed before entry

theorem licensed_nil (allowed : List ε → ε → Prop) : Licensed allowed [] := by
  intro before entry after split
  simp at split

theorem licensed_snoc {entry}
    (licensed : Licensed allowed trace) (last : allowed trace entry) : Licensed allowed (trace ++ [entry]) := by
  intro before other after split
  rcases eq_nil_or_concat' after with rfl | ⟨front, final, rfl⟩
  · obtain ⟨same, ends⟩ := append_inj' split rfl
    rw [← same, ← (List.cons.inj ends).1]
    exact last
  · rw [← cons_append, ← append_assoc] at split
    exact licensed _ _ _ (append_inj' split rfl).1

theorem Licensed.earlier (licensed : Licensed allowed (first ++ second)) :
    Licensed allowed first := by
  intro before entry after split
  exact licensed before entry (after ++ second) (by rw [split, append_assoc, cons_append])

/-- Entry by entry, so that a finite trace can be checked. -/
theorem licensed_iff_get :
    Licensed allowed trace ↔ ∀ index : Fin trace.length, allowed (trace.take index) (trace.get index) := by
  constructor
  · intro licensed index
    refine licensed _ _ (trace.drop (index + 1)) ?_
    rw [get_eq_getElem, getElem_cons_drop, take_append_drop]
  · intro each before entry after split
    have inside : before.length < trace.length := by
      rw [split, length_append, length_cons]
      omega
    have entryAt := each ⟨before.length, inside⟩
    simpa [split] using entryAt

instance {allowed : List ε → ε → Prop} [∀ before entry, Decidable (allowed before entry)] (trace : List ε) :
    Decidable (Licensed allowed trace) := decidable_of_iff _ licensed_iff_get.symm

/-- A trace goes on with entries that are allowed after it. -/
theorem licensed_append (licensed : Licensed allowed first)
    (later : ∀ before entry after, second = before ++ entry :: after → allowed (first ++ before) entry) :
    Licensed allowed (first ++ second) := by
  induction second using List.reverseRecOn with
  | nil =>
    rw [append_nil]
    exact licensed
  | append_singleton past entry ih =>
    rw [← append_assoc]
    refine licensed_snoc (ih fun before other after split => ?_) (later past entry [] rfl)
    exact later before other (after ++ [entry]) (by rw [split, append_assoc, cons_append])

end Shh.Runs
