import RtuStation.World.Device
import RtuStation.World.Line
import RtuStation.World.Memory
import RtuStation.World.Notice
import RtuStation.World.Registry

/-!
# The world

Everything a station shares with its surroundings: segments of memory and semaphores under names,
lines and devices, cancellation flags (`cancel.Cancellation`), and what has been reported. A `Deed`
changes the world and always answers; an `Op` may fail with an error.

The *agenda* tells what the surroundings do at the next calls to the system: let them pass, make
them fail, raise a cancellation flag while they last, or take and post a semaphore that they share.
An empty agenda lets all calls pass. The *journal* tells what servers and their guards did in which
order; no answer depends on it.
-/

namespace RtuStation

/-- A named piece of memory with its permission bits. -/
structure Segment where
  memory : Memory := .zeros 0
  mode : Nat
  deriving DecidableEq, Repr, Inhabited

structure Happening where
  fault : Option Errno := none
  raises : Option Nat := none
  /-- Others who use a semaphore bring it to a count. -/
  brings : Option (Nat × Nat) := none
  deriving DecidableEq, Repr

/-- An entry of the journal: a step of those who use the lines and the semaphores. -/
inductive Entry where
  /-- A wait for a semaphore was over; the flag tells whether it took one off the count. -/
  | wait (semaphore : Nat) (taken : Bool)
  | post (semaphore : Nat)
  /-- A server receives; here and below the flag tells whether its guard holds the semaphore. -/
  | receive (held : Bool)
  | answer (held : Bool) (frame : Octets)
  | send (held : Bool) (frame : Octets)
  deriving DecidableEq, Repr

structure World where
  segments : Registry Segment := .empty
  /-- Semaphores are their counts. -/
  semaphores : Registry Nat := .empty
  lines : Array Line := #[]
  devices : Devices := Devices.standard
  flags : Flags := #[]
  /-- No new descriptor can be had. -/
  exhausted : Bool := false
  agenda : List Happening := []
  /-- What was done, the latest entry first. -/
  journal : List Entry := []
  notices : Array Notice := #[]
  output : Array String := #[]
  deriving Inhabited

abbrev Deed (α : Type) : Type := StateM World α

abbrev Op (α : Type) : Type := ExceptT Error (StateM World) α

def Op.ofExcept {α : Type} (outcome : Except Error α) : Op α := ExceptT.mk (pure outcome)

theorem eq_ok_of_toOption {α : Type} {result : Except Error α} {a : α}
    (h : result.toOption = some a) : result = .ok a := by
  cases result with
  | error _ => cases h
  | ok _ => exact congrArg Except.ok (Option.some.inj h)

theorem Deed.run_bind {α β : Type} {d : Deed α} {f : α → Deed β} {w after : World} {a : α}
    (h : d.run w = (a, after)) : (d >>= f).run w = (f a).run after := by
  rw [StateT.run_bind, h]
  rfl

theorem Op.run_bind {α β : Type} {d : Op α} {f : α → Op β} {w after : World} {a : α}
    (h : d.run.run w = (.ok a, after)) : (d >>= f).run.run w = (f a).run.run after := by
  rw [ExceptT.run_bind, Deed.run_bind h]

theorem Op.run_lift {α : Type} {d : Deed α} {w after : World} {a : α} (h : d.run w = (a, after)) :
    (liftM d : Op α).run.run w = (.ok a, after) := by
  have hrun : (liftM d : Op α).run.run w = (.ok (d.run w).1, (d.run w).2) := rfl
  rw [hrun, h]

theorem Deed.of_run_bind {α β : Type} {d : Deed α} {f : α → Deed β} {w after : World} {b : β}
    (h : (d >>= f).run w = (b, after)) :
    ∃ a mid, d.run w = (a, mid) ∧ (f a).run mid = (b, after) := by
  rw [StateT.run_bind] at h
  exact ⟨_, _, rfl, h⟩

theorem Op.of_run_bind {α β : Type} {d : Op α} {f : α → Op β} {w after : World} {b : β}
    (h : (d >>= f).run.run w = (.ok b, after)) :
    ∃ a mid, d.run.run w = (.ok a, mid) ∧ (f a).run.run mid = (.ok b, after) := by
  rw [ExceptT.run_bind] at h
  obtain ⟨result, mid, hd, hf⟩ := Deed.of_run_bind h
  cases result with
  | error e => cases hf
  | ok a => exact ⟨a, mid, hd, hf⟩

theorem Op.of_run_lift {α : Type} {d : Deed α} {w after : World} {a : α}
    (h : (liftM d : Op α).run.run w = (.ok a, after)) : d.run w = (a, after) := by
  have hrun : (liftM d : Op α).run.run w = (.ok (d.run w).1, (d.run w).2) := rfl
  rw [hrun] at h
  cases h
  rfl

theorem Op.of_run_ofExcept {α : Type} {outcome : Except Error α} {w after : World} {a : α}
    (h : (Op.ofExcept outcome).run.run w = (.ok a, after)) : outcome = .ok a ∧ after = w := by
  have hrun : (outcome, w) = (.ok a, after) := h
  cases hrun
  exact ⟨rfl, rfl⟩

/-- Undoes what was done before if what follows fails. -/
def undoing {α : Type} (undo : Deed Unit) (following : Op α) : Op α :=
  tryCatch following fun e => do
    undo
    throw e

def report (notice : Notice) : Deed Unit :=
  modify fun w => { w with notices := w.notices.push notice }

def enter (entry : Entry) : Deed Unit := modify fun w => { w with journal := entry :: w.journal }

def write (text : String) : Deed Unit :=
  modify fun w => { w with output := w.output.push text }

def Registry.bring? (semaphores : Registry Nat) : Option (Nat × Nat) → Registry Nat
  | none => semaphores
  | some (number, count) => semaphores.modify number fun _ => count

def World.pass (w : World) (happening : Happening) (later : List Happening) : World :=
  { w with
    agenda := later
    flags := w.flags.raise? happening.raises
    semaphores := w.semaphores.bring? happening.brings }

/-- One call to the system meets what is next on the agenda; the answer is the number it fails with
on that account. -/
def meet : Deed (Option Errno) := do
  match (← get).agenda with
  | [] => return none
  | happening :: later =>
    modify fun w => w.pass happening later
    return happening.fault

def meetDescriptor : Deed (Option Errno) := do
  if (← get).exhausted then return some .tooManyFiles
  meet

def World.waitFault (w : World) : Option Fault :=
  if w.exhausted then some (.system .invalid) else none

/-! ### Cancellation -/

def makeFlag : Op Nat := do
  if let some e ← meetDescriptor then throw (.system "pipe" (.system e))
  let w ← get
  set { w with flags := w.flags.push false }
  return w.flags.size

def raiseFlag (number : Nat) : Deed Unit :=
  modify fun w => { w with flags := w.flags.raise number }

def isRaised (number : Nat) : Deed Bool := return (← get).flags.raised number

/-- Whether a look at the descriptor of a cancellation flag finds it raised; with no descriptors to
spare, looks are refused like waits. -/
def isSignalled (number : Nat) : Deed Bool := do
  let w ← get
  return w.waitFault.isNone && w.flags.raised number

/-! ### Lines -/

def makeLine (line : Line) : Deed Nat := do
  let w ← get
  set { w with lines := w.lines.push line }
  return w.lines.size

def changeLine (number : Nat) (f : Line → Line) : Deed Unit :=
  modify fun w => { w with lines := w.lines.modify number f }

end RtuStation
