import RtuStation.Health
import RtuStation.Semaphore

/-!
# Guards

A guard (`guard.AccessGuard`) excludes other users of the banks while a request is answered. It
takes a semaphore that has one token, waits for it no longer than its policy says, and gives up for
good once the health score has reached its maximum.
-/

namespace RtuStation

structure Guard where
  semaphore : Semaphore
  policy : GuardPolicy
  health : Health
  held : Bool := false
  deriving DecidableEq, Repr

inductive Acquisition where
  | acquired
  | timedOut
  deriving DecidableEq, Repr

namespace Guard

def ofSemaphore (semaphore : Semaphore) (policy : GuardPolicy) : Guard :=
  { semaphore, policy, health := .ofPolicy policy }

def create (name : String) (force : Bool) (policy : GuardPolicy) : Op Guard := do
  Op.ofExcept policy.check
  let semaphore ← Semaphore.create name 1 force
  report (.semaphoreCreated name)
  return ofSemaphore semaphore policy

def join (name : String) (policy : GuardPolicy) : Op Guard := do
  Op.ofExcept policy.check
  return ofSemaphore (← Semaphore.openExisting name) policy

def name (g : Guard) : String := g.semaphore.name

def state (g : Guard) : HealthState := g.health.state

/-- Takes the token (`AccessGuard.try_acquire`), waiting no longer than the policy says. A guard
that holds it already has nothing to do, and one that has given up does not try. -/
def tryAcquire (g : Guard) : Deed (Except Error Acquisition × Guard) := do
  if g.state = .fatal then return (.error (.guardEscalated g.name), g)
  if g.held then return (.ok .acquired, g)
  match ← g.semaphore.wait.run with
  | .error e => return (.error e, g)
  | .ok true => return (.ok .acquired, { g with held := true, health := g.health.succeed })
  | .ok false =>
    report (.notAcquired g.name g.policy.timeoutMs)
    let g := { g with health := g.health.fail }
    if g.state = .fatal then return (.error (.guardEscalated g.name), g)
    return (.ok .timedOut, g)

def release (g : Guard) : Deed (Except Error Unit × Guard) := do
  if !g.held then return (.ok (), g)
  let outcome ← g.semaphore.post.run
  return (outcome, { g with held := false })

def drop (g : Guard) : Deed Unit := do
  if let (.error e, _) ← g.release then report (.setback .semaphore e)
  g.semaphore.drop

end Guard
end RtuStation
