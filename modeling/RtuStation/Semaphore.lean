import RtuStation.World.Basic

/-!
# Semaphores

Named counters (`semaphore.IpcSemaphore`). A wait takes one off the count unless it is zero, a post
adds one. The handle that created a semaphore removes the name when it is dropped; the count lives
on in the other handles.
-/

namespace RtuStation

def maxCount : Nat := Nat.pow 2 31 - 1

/-- The longest name of a semaphore in octets, without the slash. -/
def maxSemaphoreName : Nat := 251

/-- A handle to a semaphore, under the text by which it was created or opened. -/
structure Semaphore where
  object : Nat
  name : String
  objectName : ObjectName
  creator : Bool
  deriving DecidableEq, Repr

namespace Semaphore

def make (name : ObjectName) (value : Nat) : Deed (Except Fault Nat) := do
  if maxCount < value then return .error (.system .invalid)
  if let some e ← meetDescriptor then return .error (.system e)
  if maxSemaphoreName < name.bodySize then return .error (.system .nameTooLong)
  let w ← get
  if (w.semaphores.find? name).isSome then return .error (.system .alreadyExists)
  set { w with semaphores := w.semaphores.add name value }
  return .ok w.semaphores.next

def locate (name : ObjectName) : Deed (Except Fault Nat) := do
  if let some e ← meetDescriptor then return .error (.system e)
  if maxSemaphoreName < name.bodySize then return .error (.system .nameTooLong)
  match (← get).semaphores.find? name with
  | none => return .error (.system .noEntry)
  | some number => return .ok number

def unlink (name : ObjectName) : Deed Unit :=
  modify fun w => { w with semaphores := w.semaphores.remove name }

def reclaim (text : String) (name : ObjectName) (value : Nat) : Deed (Except Fault Nat) := do
  match ← make name value with
  | .error fault =>
    if fault.errno? = some .alreadyExists then
      report (.reclaiming .semaphore text)
      unlink name
      make name value
    else return .error fault
  | .ok number => return .ok number

def create (text : String) (value : Nat) (force : Bool) : Op Semaphore := do
  let name ← Op.ofExcept (ObjectName.check text)
  match ← if force then reclaim text name value else make name value with
  | .error fault => throw (.ofObject text fault)
  | .ok number => return ⟨number, text, name, true⟩

def openExisting (text : String) : Op Semaphore := do
  let name ← Op.ofExcept (ObjectName.check text)
  match ← locate name with
  | .error fault => throw (.ofObject text fault)
  | .ok number => return ⟨number, text, name, false⟩

def count (s : Semaphore) (w : World) : Nat := (w.semaphores.get? s.object).getD 0

/-- Takes one off the count; the answer is whether there was one to take. A wait with a time limit
and one without any (`wait_timeout` and `try_wait` of `platform.posix.PlatformSemaphore`) differ
only in the name of the call. -/
def take (s : Semaphore) (call : String) : Op Bool := do
  if let some e ← meet then
    enter (.wait s.object false)
    throw (.system (call ++ " " ++ quoted s.name) (.system e))
  let taken := s.count (← get) ≠ 0
  enter (.wait s.object taken)
  if !taken then return false
  modify fun w => { w with semaphores := w.semaphores.modify s.object fun n => n - 1 }
  return true

/-- Waits for the count to be positive, for a limited time, and takes one off it. -/
def wait (s : Semaphore) : Op Bool := s.take "sem_timedwait"

def tryWait (s : Semaphore) : Op Bool := s.take "sem_trywait"

def post (s : Semaphore) : Op Unit := do
  let context := "sem_post " ++ quoted s.name
  enter (.post s.object)
  if let some e ← meet then throw (.system context (.system e))
  if maxCount ≤ s.count (← get) then throw (.system context (.system .overflow))
  modify fun w => { w with semaphores := w.semaphores.modify s.object fun n => n + 1 }

def drop (s : Semaphore) : Deed Unit := do
  if s.creator then unlink s.objectName

def clear (text : String) : Deed Unit := do
  match ObjectName.ofText text with
  | .error _ => return
  | .ok name => unlink name

end Semaphore
end RtuStation
