import RtuStation.Octets
import RtuStation.Bank.Kind

/-!
# Bank views

A bank is an array of elements laid over the start of a memory segment. One definition with the
width as a parameter stands for `BitBank` and `WordBank` of `store`. A bit takes one octet, zero
for clear and anything else for set, and is written as 0 or 1; a word takes two octets, the low one
first. Octets of the segment past the last element do not belong to the bank.

Accesses outside the bank answer `none` and change nothing.
-/

namespace RtuStation

/-- A bank of `length` elements over the octets of a segment. -/
structure Bank (w : Width) where
  cells : Array UInt8
  length : Nat
  fits : length * w.octets ≤ cells.size

namespace Bank

def load : (w : Width) → Array UInt8 → Nat → w.Value
  | .bit, cells, i => cells.getD i 0 != 0
  | .word, cells, i => word (cells.getD (2 * i + 1) 0) (cells.getD (2 * i) 0)

def store : (w : Width) → Array UInt8 → Nat → w.Value → Array UInt8
  | .bit, cells, i, v => cells.setIfInBounds i (if v then 1 else 0)
  | .word, cells, i, v =>
    (cells.setIfInBounds (2 * i) (lowOctet v)).setIfInBounds (2 * i + 1) (highOctet v)

/-- The memory with the elements from position `i` on replaced. -/
def storeAll (w : Width) : Array UInt8 → Nat → List w.Value → Array UInt8
  | cells, _, [] => cells
  | cells, i, v :: vs => storeAll w (store w cells i v) (i + 1) vs

theorem size_store (w : Width) (cells : Array UInt8) (i : Nat) (v : w.Value) :
    (store w cells i v).size = cells.size := by
  cases w <;> simp [store]

theorem size_storeAll (w : Width) (cells : Array UInt8) (i : Nat) (vs : List w.Value) :
    (storeAll w cells i vs).size = cells.size := by
  induction vs generalizing cells i with
  | nil => rfl
  | cons v vs ih => rw [storeAll, ih, size_store]

variable {w : Width}

/-- The bank that covers as much of a segment's first `size` octets as addresses reach. -/
def ofCells (w : Width) (cells : Array UInt8) (size : Nat) : Bank w where
  cells := cells
  length := min (min size cells.size / w.octets) maxBankSize
  fits := by
    have h : min size cells.size / w.octets * w.octets ≤ min size cells.size :=
      Nat.div_mul_le_self ..
    have h' : min (min size cells.size / w.octets) maxBankSize * w.octets
        ≤ min size cells.size / w.octets * w.octets :=
      Nat.mul_le_mul_right _ (Nat.min_le_left ..)
    omega

def zeros (w : Width) (length : Nat) : Bank w where
  cells := Array.replicate (length * w.octets) 0
  length := length
  fits := by simp

def contains (b : Bank w) (start count : Nat) : Bool := start + count ≤ b.length

def get? (b : Bank w) (i : Nat) : Option w.Value :=
  if i < b.length then some (load w b.cells i) else none

def set? (b : Bank w) (i : Nat) (v : w.Value) : Option (Bank w) :=
  if i < b.length then
    some { b with cells := store w b.cells i v, fits := by simpa [size_store] using b.fits }
  else none

def read? (b : Bank w) (start count : Nat) : Option (List w.Value) :=
  if b.contains start count then some ((List.range' start count).map (load w b.cells)) else none

def write? (b : Bank w) (start : Nat) (vs : List w.Value) : Option (Bank w) :=
  if b.contains start vs.length then
    some { b with
      cells := storeAll w b.cells start vs, fits := by simpa [size_storeAll] using b.fits }
  else none

end Bank

structure Banks where
  coils : Bank .bit
  discreteInputs : Bank .bit
  holdingRegisters : Bank .word
  inputRegisters : Bank .word

namespace Banks

def zeros (sizes : Sizes) : Banks where
  coils := Bank.zeros .bit sizes.coils
  discreteInputs := Bank.zeros .bit sizes.discreteInputs
  holdingRegisters := Bank.zeros .word sizes.holdingRegisters
  inputRegisters := Bank.zeros .word sizes.inputRegisters

def get (b : Banks) : (k : BankKind) → Bank k.width
  | .coils => b.coils
  | .discreteInputs => b.discreteInputs
  | .holdingRegisters => b.holdingRegisters
  | .inputRegisters => b.inputRegisters

def put (b : Banks) : (k : BankKind) → Bank k.width → Banks
  | .coils, x => { b with coils := x }
  | .discreteInputs, x => { b with discreteInputs := x }
  | .holdingRegisters, x => { b with holdingRegisters := x }
  | .inputRegisters, x => { b with inputRegisters := x }

end Banks
end RtuStation
