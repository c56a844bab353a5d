import Mathlib

/-!
# Counting semaphores

A request is for several permits at once: it is granted when they are all there,
refused when the semaphore is closed, and waits otherwise. A granted request spends
its permits for good; permits come back only by being added.

There is one requester, so at most one request waits. Permits are set aside for it as
long as it lacks some, and only what it does not need is available: a request that
waits for more than there is leaves none. The permits set aside are spent when the
requester comes back to a request that has become complete. When it finds the semaphore
closed, it gives up the request and they are available again.
-/

namespace Shh.Semaphores

structure Semaphore where
  /-- The permits that are not spent, available or set aside. -/
  permits : Nat
  /-- The size of the request that waits, zero if there is none. -/
  waiting : Nat
  closed : Bool
deriving DecidableEq, Repr

/-- The answer to a request. -/
inductive Answer where
  | granted
  | waiting
  | refused
deriving DecidableEq, Repr

namespace Semaphore

def make (permits : Nat) : Semaphore := ⟨permits, 0, false⟩

/-- The permits that are not set aside for the request that waits. -/
def available (semaphore : Semaphore) : Nat := semaphore.permits - semaphore.waiting

/-- Ask for some permits, for the first time or again after waiting. -/
def acquire (semaphore : Semaphore) (wanted : Nat) : Answer × Semaphore :=
  if semaphore.closed then (.refused, { semaphore with waiting := 0 })
  else if wanted ≤ semaphore.permits then
    (.granted, { semaphore with permits := semaphore.permits - wanted, waiting := 0 })
  else (.waiting, { semaphore with waiting := wanted })

def add (semaphore : Semaphore) (count : Nat) : Semaphore :=
  { semaphore with permits := semaphore.permits + count }

def close (semaphore : Semaphore) : Semaphore := { semaphore with closed := true }

variable {semaphore : Semaphore} {wanted count : Nat}

@[simp] theorem make_permits (permits : Nat) : (make permits).permits = permits := rfl

@[simp] theorem close_permits : semaphore.close.permits = semaphore.permits := rfl

@[simp] theorem close_closed : semaphore.close.closed = true := rfl

@[simp] theorem add_permits : (semaphore.add count).permits = semaphore.permits + count := rfl

@[simp] theorem add_closed : (semaphore.add count).closed = semaphore.closed := rfl

@[simp] theorem acquire_closed : (semaphore.acquire wanted).2.closed = semaphore.closed := by
  unfold acquire
  split
  · rfl
  · split <;> rfl

/-- How a request can be answered, and what is left. -/
theorem acquire_cases (semaphore : Semaphore) (wanted : Nat) :
    (semaphore.closed = true ∧
        semaphore.acquire wanted = (.refused, { semaphore with waiting := 0 })) ∨
      (semaphore.closed = false ∧ wanted ≤ semaphore.permits ∧ semaphore.acquire wanted =
        (.granted, { semaphore with permits := semaphore.permits - wanted, waiting := 0 })) ∨
      (semaphore.closed = false ∧ semaphore.permits < wanted ∧
        semaphore.acquire wanted = (.waiting, { semaphore with waiting := wanted })) := by
  unfold acquire
  cases shut : semaphore.closed with
  | true => exact .inl ⟨rfl, rfl⟩
  | false =>
    right
    by_cases enough : wanted ≤ semaphore.permits
    · exact .inl ⟨rfl, enough, by simp [enough]⟩
    · exact .inr ⟨rfl, Nat.lt_of_not_le enough, by simp [enough]⟩

end Semaphore

end Shh.Semaphores
