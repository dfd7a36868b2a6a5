import RtuStation.Error

/-!
# Guard policy and health

A guard counts contention (`guard.HealthCounter`). Each failure to acquire raises the score by one
amount, each success lowers it by another, and the score stays between zero and a maximum. A score
that has reached the maximum stays there. Scores are words of 32 bits, and a sum that does not fit
into one is cut to the largest of them.
-/

namespace RtuStation

/-- How long a guard waits and how it keeps its score (`guard.GuardPolicy`). -/
structure GuardPolicy where
  timeoutMs : Nat := 100
  failIncrement : Nat := 10
  successDecrement : Nat := 1
  maximum : Nat := 1000
  deriving DecidableEq, Repr

/-- A policy must be able to reach its maximum, and the maximum must not be the start. -/
def GuardPolicy.check (p : GuardPolicy) : Except Error Unit :=
  if p.maximum = 0 ∨ p.failIncrement = 0 then .error (.invalidArgument .guardPolicy) else .ok ()

inductive HealthState where
  | healthy
  | degraded
  | fatal
  deriving DecidableEq, Repr

/-- A score with the amounts by which it moves. -/
structure Health where
  value : Nat
  failIncrement : Nat
  successDecrement : Nat
  maximum : Nat
  deriving DecidableEq, Repr

namespace Health

/-- The largest score that fits into a word. -/
def limit : Nat := Nat.pow 2 32 - 1

def ofPolicy (p : GuardPolicy) : Health := ⟨0, p.failIncrement, p.successDecrement, p.maximum⟩

def state (h : Health) : HealthState :=
  if h.value = 0 then .healthy else if h.maximum ≤ h.value then .fatal else .degraded

theorem state_eq_healthy_iff (h : Health) : h.state = .healthy ↔ h.value = 0 := by
  unfold state
  split
  · next hzero => simp only [hzero]
  · next hpos => split <;> simp only [hpos, reduceCtorEq]

theorem state_eq_fatal_iff (h : Health) :
    h.state = .fatal ↔ h.value ≠ 0 ∧ h.maximum ≤ h.value := by
  unfold state
  split
  · next hzero => simp only [hzero, reduceCtorEq, ne_eq, not_true, false_and]
  · next hpos =>
    split
    · next hle => simp only [hpos, hle, ne_eq, not_false_iff, true_and]
    · next hlt => simp only [hlt, reduceCtorEq, and_false]

def succeed (h : Health) : Health :=
  if h.state = .fatal then h else { h with value := h.value - h.successDecrement }

def fail (h : Health) : Health :=
  { h with value := min (min (h.value + h.failIncrement) limit) h.maximum }

end Health

inductive HealthEvent where
  | failure
  | success
  deriving DecidableEq, Repr

def Health.record (h : Health) : HealthEvent → Health
  | .failure => h.fail
  | .success => h.succeed

end RtuStation
