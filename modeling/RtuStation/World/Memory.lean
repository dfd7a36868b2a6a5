import RtuStation.Octets
import RtuStation.Bank.Kind

/-!
# Memory

The octets of a named piece of memory, all zero at first. A piece can be far larger than what is
ever written to it, so only its start, as far as a bank can reach, is kept octet by octet; of the
rest, what was written is kept.
-/

namespace RtuStation

/-- Octets that were written from a place on. -/
structure Patch where
  start : Nat
  octets : Array UInt8
  deriving DecidableEq, Repr

def Patch.octet? (p : Patch) (i : Nat) : Option UInt8 :=
  if p.start ≤ i then p.octets[i - p.start]? else none

structure Memory where
  size : Nat
  near : Array UInt8
  far : List Patch := []
  deriving DecidableEq, Repr, Inhabited

namespace Memory

/-- How many octets at the start are kept one by one: those of the largest bank. -/
def reach : Nat := 2 * maxBankSize

def zeros (size : Nat) : Memory := { size, near := Array.replicate (min size reach) 0 }

def octet (m : Memory) (i : Nat) : UInt8 :=
  match m.near[i]? with
  | some b => b
  | none => (m.far.findSome? (·.octet? i)).getD 0

def read (m : Memory) (start count : Nat) : Octets :=
  (List.range' start (min count (m.size - start))).map m.octet

/-- Octets replaced from a position on. -/
def overwrite : Array UInt8 → Nat → Octets → Array UInt8
  | cells, _, [] => cells
  | cells, i, b :: later => overwrite (cells.setIfInBounds i b) (i + 1) later

def write (m : Memory) (start : Nat) (bytes : Octets) : Memory :=
  let bytes := bytes.take (m.size - start)
  let within := m.near.size - start
  { m with
    near := overwrite m.near start (bytes.take within)
    far :=
      if bytes.length ≤ within then m.far
      else ⟨max start m.near.size, (bytes.drop within).toArray⟩ :: m.far }

theorem octet_of_lt {m : Memory} {i : Nat} (h : i < m.near.size) :
    m.octet i = m.near.getD i 0 := by
  simp [octet, h]

end Memory
end RtuStation
