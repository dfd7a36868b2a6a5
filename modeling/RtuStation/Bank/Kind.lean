/-!
# The four banks

A station keeps four banks (`store.BankKind`): coils and holding registers, which the bus master
reads and writes, and discrete inputs and input registers, which it only reads. `PerBank` holds one
thing for each bank.
-/

namespace RtuStation

/-- What the elements of a bank are: bits or words. -/
inductive Width where
  | bit
  | word
  deriving DecidableEq, Repr

def Width.octets : Width → Nat
  | bit => 1
  | word => 2

abbrev Width.Value : Width → Type
  | bit => Bool
  | word => UInt16

inductive BankKind where
  | coils
  | discreteInputs
  | holdingRegisters
  | inputRegisters
  deriving DecidableEq, Repr

namespace BankKind

def all : List BankKind := [coils, discreteInputs, holdingRegisters, inputRegisters]

def suffix : BankKind → String
  | coils => "DO"
  | discreteInputs => "DI"
  | holdingRegisters => "AO"
  | inputRegisters => "AI"

/-- Coils and discrete inputs are bits, registers are words. -/
def width : BankKind → Width
  | coils | discreteInputs => .bit
  | holdingRegisters | inputRegisters => .word

def elementSize (k : BankKind) : Nat := k.width.octets

end BankKind

structure PerBank (α : Type) where
  coils : α
  discreteInputs : α
  holdingRegisters : α
  inputRegisters : α
  deriving DecidableEq, Repr

namespace PerBank

variable {α β : Type}

def get (p : PerBank α) : BankKind → α
  | .coils => p.coils
  | .discreteInputs => p.discreteInputs
  | .holdingRegisters => p.holdingRegisters
  | .inputRegisters => p.inputRegisters

def ofFn (f : BankKind → α) : PerBank α :=
  ⟨f .coils, f .discreteInputs, f .holdingRegisters, f .inputRegisters⟩

def toList (p : PerBank α) : List α := BankKind.all.map p.get

@[simp] theorem get_ofFn (f : BankKind → α) (k : BankKind) : (ofFn f).get k = f k := by
  cases k <;> rfl

end PerBank

abbrev Sizes := PerBank Nat

def maxBankSize : Nat := 0x10000

def Sizes.full : Sizes := PerBank.ofFn fun _ => maxBankSize

/-- The first bank that is larger than its addresses reach, if there is one. -/
def Sizes.oversized? (sizes : Sizes) : Option BankKind :=
  BankKind.all.find? fun k => maxBankSize < sizes.get k

end RtuStation
