import RtuStation.World.Basic

/-!
# Segments

Named memory as programs acquire it (`shm.ShmHandle.acquire`): created under a name that must be
free, created in place of whatever had the name, or attached to as it is. Creating goes through
several calls to the system; if one of them fails, the name is removed again. A mapping gives access
to the octets of a segment and outlives the name. The names of directories are taken, and cannot be
attached to.
-/

namespace RtuStation

inductive OpenMode where
  | create
  /-- A segment that has the name loses it. -/
  | force
  | attach
  deriving DecidableEq, Repr

/-- Access to a segment, under the text by which it was acquired. -/
structure Mapping where
  object : Nat
  size : Nat
  name : String
  objectName : ObjectName
  deriving DecidableEq, Repr

namespace Segment

/-- Sizes from here on are no file sizes. -/
def sizeLimit : Nat := Nat.pow 2 63

/-- No more octets than these can be mapped: programs are loaded above them. -/
def mapLimit : Nat := 0x555555544000

/-- The permission bits by which its owner may read and write an object. -/
def ownerAccess : Nat := 0o600

def modeBits : Nat := 0o7777

/-- The mode of an object after its size was set: it no longer lends the rights of its owner, nor
those of its group if the group may execute it. -/
def sizedMode (mode : Nat) : Nat :=
  if mode &&& 0o10 = 0 then mode &&& 0o3777 else mode &&& 0o1777

theorem sizedMode_of_le {mode : Nat} (h : mode ≤ 0o777) : sizedMode (mode &&& modeBits) = mode := by
  have all : ∀ m : Fin 0o1000, sizedMode (m.val &&& modeBits) = m.val := by
    decide +kernel
  exact all ⟨mode, by omega⟩

def bind (name : ObjectName) (mode : Nat) : Deed Nat := do
  let w ← get
  set { w with segments := w.segments.add name { mode := mode } }
  return w.segments.next

def unlink (name : ObjectName) : Deed (Except Fault Unit) := do
  let w ← get
  match w.segments.find? name with
  | none => return .error (.system .noEntry)
  | some _ =>
    set { w with segments := w.segments.remove name }
    return .ok ()

/-- Gives a new segment its mode, its size and a place in memory; the answer is the number that one
of these calls failed with (`PlatformShm.prepare_created` and `map` of `platform.posix`). -/
def prepare (number size mode : Nat) : Deed (Option Errno) := do
  if let some e ← meet then return some e
  modify fun w => { w with
    segments := w.segments.modify number fun s => { s with mode := mode &&& modeBits } }
  if sizeLimit ≤ size then return some .invalid
  if let some e ← meet then return some e
  modify fun w => { w with
    segments := w.segments.modify number fun s =>
      { s with memory := .zeros size, mode := sizedMode s.mode } }
  if mapLimit < size then return some .noMemory
  if size = 0 then return none
  meet

def create (name : ObjectName) (size mode : Nat) : Deed (Except Fault Nat) := do
  if let some e ← meetDescriptor then return .error (.system e)
  if name.isDirectory || ((← get).segments.find? name).isSome then
    return .error (.system .alreadyExists)
  let number ← bind name mode
  match ← prepare number size mode with
  | none => return .ok number
  | some e =>
    let _ ← unlink name
    return .error (.system e)

def attach (name : ObjectName) (size : Nat) : Deed (Except Fault Nat) := do
  if let some e ← meetDescriptor then return .error (.system e)
  if name.isDirectory then return .error (.system .invalid)
  let w ← get
  match w.segments.find? name with
  | none => return .error (.system .noEntry)
  | some number =>
    let segment := (w.segments.get? number).getD { mode := 0 }
    if segment.mode &&& ownerAccess ≠ ownerAccess then return .error (.system .accessDenied)
    if let some e ← meet then return .error (.system e)
    if segment.memory.size < size then
      return .error (.worded .other ("segment holds " ++ toString segment.memory.size ++
        " bytes, " ++ toString size ++ " requested"))
    if size = 0 then return .ok number
    if let some e ← meet then return .error (.system e)
    return .ok number

/-- Creates a segment under a name that another segment may have to give up. -/
def reclaim (text : String) (name : ObjectName) (size mode : Nat) : Deed (Except Fault Nat) := do
  match ← create name size mode with
  | .error fault =>
    if fault.errno? = some .alreadyExists then
      report (.reclaiming .segment text)
      let _ ← unlink name
      create name size mode
    else return .error fault
  | .ok number => return .ok number

/-- Acquires the segment that a text denotes. The permission bits count only if it is created. -/
def acquire (text : String) (size : Nat) (mode : OpenMode) (permissions : Nat) : Op Mapping := do
  let name ← Op.ofExcept (ObjectName.check text)
  let acquired ← match mode with
    | .create => create name size permissions
    | .force => reclaim text name size permissions
    | .attach => attach name size
  match acquired with
  | .error fault => throw (.ofObject text fault)
  | .ok number => return ⟨number, size, text, name⟩

def unlinkText (text : String) : Deed Unit := do
  match ObjectName.ofText text with
  | .error _ => return
  | .ok name =>
    let _ ← unlink name
    return

def isThere (text : String) : Deed Bool := do
  match ← (acquire text 0 .attach 0).run with
  | .ok _ => return true
  | .error _ => return false

def lookUp (text : String) : Op (Option Segment) := do
  let name ← Op.ofExcept (ObjectName.check text)
  let w ← get
  return (w.segments.find? name).bind w.segments.get?

end Segment

namespace Mapping

def unlink (m : Mapping) : Op Unit := do
  match ← Segment.unlink m.objectName with
  | .error fault => throw (.system ("shm_unlink " ++ quoted m.name) fault)
  | .ok () => return

def memory (m : Mapping) (w : World) : Memory :=
  ((w.segments.get? m.object).map (·.memory)).getD (.zeros 0)

/-- The octets at the start of a mapped segment, as far as a bank can reach. -/
def cells (m : Mapping) (w : World) : Array UInt8 := (m.memory w).near

def setCells (m : Mapping) (cells : Array UInt8) : Deed Unit :=
  modify fun w => { w with
    segments := w.segments.modify m.object fun s =>
      { s with memory := { s.memory with near := cells } } }

def peek (m : Mapping) (start count : Nat) : Deed Octets :=
  return (m.memory (← get)).read start count

def poke (m : Mapping) (start : Nat) (bytes : Octets) : Deed Unit :=
  modify fun w => { w with
    segments := w.segments.modify m.object fun s =>
      { s with memory := s.memory.write start bytes } }

end Mapping
end RtuStation
