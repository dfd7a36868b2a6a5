import RtuStation.Segment

/-!
# Stores

A store (`store.RegisterStore`) keeps the four banks in four segments whose names share a stem. It
is created as a whole or not at all, or attached to segments that exist. Only a store that created
its segments removes their names.
-/

namespace RtuStation

inductive Ownership where
  | owned
  | attached
  deriving DecidableEq, Repr

structure Store where
  mappings : PerBank Mapping
  ownership : Ownership
  destroyed : Bool := false
  deriving DecidableEq, Repr

namespace Store

/-- The permission bits of segments where nothing else is asked for. -/
def standardPermissions : Nat := 0o660

/-- Octets that a table of the four banks takes, in the account of a store's size. -/
def tableSize : Nat := 96

def orUnlink {α : Type} (mapping : Mapping) (following : Op α) : Op α :=
  undoing (Segment.unlinkText mapping.name) following

/-- Acquires the segments of the four banks; if one fails, those before it lose their names
(`store.Rollback`). -/
def acquireAll (acquire : BankKind → Op Mapping) : Op (PerBank Mapping) := do
  let coils ← acquire .coils
  orUnlink coils do
    let discreteInputs ← acquire .discreteInputs
    orUnlink discreteInputs do
      let holdingRegisters ← acquire .holdingRegisters
      orUnlink holdingRegisters do
        let inputRegisters ← acquire .inputRegisters
        return ⟨coils, discreteInputs, holdingRegisters, inputRegisters⟩

def create (sizes : Sizes) (stem : String) (force : Bool) (permissions : Nat) : Op Store := do
  Op.ofExcept sizes.check
  let mode : OpenMode := if force then .force else .create
  let mappings ← acquireAll fun k =>
    Segment.acquire (bankName stem k.suffix) (sizes.get k * k.elementSize) mode permissions
  report (.banksCreated stem sizes)
  return ⟨mappings, .owned, false⟩

def attach (mappings : PerBank Mapping) : Store := ⟨mappings, .attached, false⟩

def openExisting (sizes : Sizes) (stem : String) : Op Store := do
  Op.ofExcept sizes.check
  let acquire (k : BankKind) : Op Mapping :=
    Segment.acquire (bankName stem k.suffix) (sizes.get k * k.elementSize) .attach
      standardPermissions
  let coils ← acquire .coils
  let discreteInputs ← acquire .discreteInputs
  let holdingRegisters ← acquire .holdingRegisters
  let inputRegisters ← acquire .inputRegisters
  return attach ⟨coils, discreteInputs, holdingRegisters, inputRegisters⟩

def length (s : Store) (k : BankKind) : Nat :=
  min ((s.mappings.get k).size / k.elementSize) maxBankSize

def sizes (s : Store) : Sizes := PerBank.ofFn s.length

def footprint (s : Store) : Nat :=
  BankKind.all.foldr (fun k sum => s.length k * k.elementSize + sum) tableSize

def bank (s : Store) (w : World) (k : BankKind) : Bank k.width :=
  let m := s.mappings.get k
  Bank.ofCells k.width (m.cells w) m.size

def banks (s : Store) (w : World) : Banks where
  coils := s.bank w .coils
  discreteInputs := s.bank w .discreteInputs
  holdingRegisters := s.bank w .holdingRegisters
  inputRegisters := s.bank w .inputRegisters

def putBank {width : Width} (s : Store) (k : BankKind) (bank : Bank width) : Deed Unit :=
  (s.mappings.get k).setCells bank.cells

def apply (s : Store) : Change → Deed Unit
  | .nothing => return
  | .coils bank => s.putBank .coils bank
  | .holdingRegisters bank => s.putBank .holdingRegisters bank

def setElement (s : Store) (k : BankKind) (i : Nat) (v : k.width.Value) : Deed Bool := do
  match (s.bank (← get) k).set? i v with
  | none => return false
  | some bank =>
    s.putBank k bank
    return true

/-- Replaces a range of a bank; the answer is whether the bank has it. -/
def writeElements (s : Store) (k : BankKind) (start : Nat) (vs : List k.width.Value) :
    Deed Bool := do
  match (s.bank (← get) k).write? start vs with
  | none => return false
  | some bank =>
    s.putBank k bank
    return true

/-- Removes the names of segments; one that cannot be removed is reported. -/
def unlinkAll : List Mapping → Deed Unit
  | [] => return
  | mapping :: later => do
    if let .error e ← mapping.unlink.run then report (.setback .segment e)
    unlinkAll later

/-- Removes the names of the segments if the store owns them, once. The segments stay for those who
have mapped them. -/
def destroy (s : Store) : Deed Store := do
  if s.destroyed then return s
  if s.ownership = .owned then unlinkAll s.mappings.toList
  return { s with destroyed := true }

def drop (s : Store) : Deed Unit := do
  let _ ← s.destroy

end Store
end RtuStation
