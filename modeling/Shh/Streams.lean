import Shh.Runs

/-!
# Messages under changing keys

A sender and a receiver each hold a key that advances with every message, and a
list of keys to come. Some messages switch: after one of them the next key of the
list is used. Both ends compute the key of a message from the messages before it,
so they agree as long as the receiver has seen what was sent and its keys are the
first of the sender's.
-/

namespace Shh.Streams

open List Runs

variable {κ μ ε : Type*} (advance : κ → κ) (switches : μ → Bool)

/-- The key after one message, and the keys still to come. -/
def step (state : κ × List κ) (message : μ) : κ × List κ :=
  match switches message, state.2 with
  | true, next :: rest => (next, rest)
  | _, left => (advance state.1, left)

/-- The key after some messages. -/
def track (start : κ) (keys : List κ) (messages : List μ) : κ × List κ :=
  messages.foldl (step advance switches) (start, keys)

variable {advance switches} {start : κ} {keys more : List κ} {messages : List μ} {message : μ}

theorem track_snoc : track advance switches start keys (messages ++ [message]) =
    step advance switches (track advance switches start keys messages) message := by
  simp [track]

/-- The keys still to come are those not switched to. -/
theorem track_left : (track advance switches start keys messages).2 =
    keys.drop (messages.countP switches) := by
  induction messages using List.reverseRecOn with
  | nil => rfl
  | append_singleton messages message ih =>
    rw [track_snoc, countP_append, countP_singleton, step]
    cases switching : switches message with
    | false => simpa using ih
    | true =>
      rw [if_pos rfl, ← drop_drop, ← ih]
      cases (track advance switches start keys messages).2 with
      | nil | cons => rfl

/-- A switch when the keys are used up only advances. -/
theorem track_exhausted (used : keys.length ≤ messages.countP switches) :
    (track advance switches start keys (messages ++ [message])).1 =
      advance (track advance switches start keys messages).1 := by
  have left : (track advance switches start keys messages).2 = [] := by
    rw [track_left]
    exact drop_eq_nil_of_le used
  rw [track_snoc, step, left]
  cases switches message with
  | false | true => rfl

/-- Keys that come later do not matter to earlier messages. -/
theorem track_extend (enough : messages.countP switches ≤ keys.length) :
    (track advance switches start (keys ++ more) messages).1 =
      (track advance switches start keys messages).1 := by
  induction messages using List.reverseRecOn with
  | nil => rfl
  | append_singleton messages message ih =>
    rw [countP_append, countP_singleton] at enough
    have earlier := ih (by omega)
    rw [track_snoc, track_snoc, step, step, track_left, track_left]
    cases switching : switches message with
    | false => simpa using congrArg advance earlier
    | true =>
      rw [switching, if_pos rfl] at enough
      have inside : messages.countP switches < keys.length := by omega
      have longer : messages.countP switches < (keys ++ more).length := by
        rw [length_append]
        omega
      have head : (keys ++ more)[messages.countP switches] = keys[messages.countP switches] :=
        getElem_append_left inside
      simp only [drop_eq_getElem_cons inside, drop_eq_getElem_cons longer, head]

/-- A key added for a switch that has just happened is the key from then on. -/
theorem track_switch {next} (exact : messages.countP switches = keys.length)
    (switching : switches message = true) :
    (track advance switches start (keys ++ [next]) (messages ++ [message])).1 = next := by
  rw [track_snoc, step, track_left, switching, exact, drop_left]

/-- Each entry of a sender's log was made under the key that the messages before
it give. -/
def Keyed (advance : κ → κ) (switches : μ → Bool) (key : ε → κ) (message : ε → μ) (start : κ) (keys : List κ)
    (log : List ε) : Prop :=
  Licensed (fun before entry =>
    (before.map message).countP switches ≤ keys.length ∧
      key entry = (track advance switches start keys (before.map message)).1) log

variable {key : ε → κ} {body : ε → μ} {log : List ε}

section

variable (keyed : Keyed advance switches key body start keys log)

include keyed

theorem Keyed.snoc {entry} (enough : (log.map body).countP switches ≤ keys.length)
    (current : key entry = (track advance switches start keys (log.map body)).1) :
    Keyed advance switches key body start keys (log ++ [entry]) :=
  licensed_snoc keyed ⟨enough, current⟩

theorem Keyed.extend : Keyed advance switches key body start (keys ++ more) log := by
  intro before entry after split
  obtain ⟨enough, current⟩ := keyed before entry after split
  refine ⟨?_, ?_⟩
  · rw [length_append]
    omega
  · rw [track_extend enough]
    exact current

/-- The receiver's key is the key of the entry it has yet to see. -/
theorem Keyed.receiver {received : List κ} {before after : List ε} {entry}
    (split : log = before ++ entry :: after) (agreed : received <+: keys)
    (enough : (before.map body).countP switches ≤ received.length) :
    key entry = (track advance switches start received (before.map body)).1 := by
  obtain ⟨rest, rfl⟩ := agreed
  rw [(keyed before entry after split).2, track_extend enough]

end

end Shh.Streams
