import RtuStation.Frame
import RtuStation.Bank.View
import RtuStation.Name

/-!
# Requests

A request is what a frame asks of a station. `Request.decode` reads it from the function code and
its data, and `Request.perform?` carries it out on the banks; the two together are what
`RtuEngine.execute` of `rtu.responder` does function by function. A request can be refused while it
is read, for an unknown function or impossible data, or when it is carried out, for addresses
outside the bank.
-/

namespace RtuStation

inductive Exception where
  | illegalFunction
  | illegalDataAddress
  | illegalDataValue
  deriving DecidableEq, Repr

namespace Exception

def code : Exception → UInt8
  | illegalFunction => 1
  | illegalDataAddress => 2
  | illegalDataValue => 3

def name : Exception → String
  | illegalFunction => "IllegalFunction"
  | illegalDataAddress => "IllegalDataAddress"
  | illegalDataValue => "IllegalDataValue"

end Exception

def maxReadBits : Nat := 2000

def maxReadWords : Nat := 125

def maxWriteBits : Nat := 1968

def maxWriteWords : Nat := 123

def maxExchangeWords : Nat := 121

inductive Request where
  | readCoils (start count : UInt16)
  | readDiscreteInputs (start count : UInt16)
  | readHoldingRegisters (start count : UInt16)
  | readInputRegisters (start count : UInt16)
  | writeCoil (address : UInt16) (on : Bool)
  | writeRegister (address value : UInt16)
  | writeCoils (start : UInt16) (values : List Bool)
  | writeRegisters (start : UInt16) (values : List UInt16)
  | reportServerId
  | maskWriteRegister (address andMask orMask : UInt16)
  | writeReadRegisters (readStart readCount writeStart : UInt16) (values : List UInt16)
  deriving DecidableEq, Repr

namespace Request

def function : Request → FunctionCode
  | readCoils .. => .readCoils
  | readDiscreteInputs .. => .readDiscreteInputs
  | readHoldingRegisters .. => .readHoldingRegisters
  | readInputRegisters .. => .readInputRegisters
  | writeCoil .. => .writeCoil
  | writeRegister .. => .writeRegister
  | writeCoils .. => .writeCoils
  | writeRegisters .. => .writeRegisters
  | reportServerId => .reportServerId
  | maskWriteRegister .. => .maskWriteRegister
  | writeReadRegisters .. => .writeReadRegisters

/-! ### Reading -/

def range? (most : Nat) : Octets → Option (UInt16 × UInt16)
  | [a, b, c, d] =>
    let count := word c d
    if 1 ≤ count.toNat ∧ count.toNat ≤ most then some (word a b, count) else none
  | _ => none

/-- A start address, a count, and a payload of as many octets as the octet before it tells
(`rtu.responder.multiple_write`). -/
def block? : Octets → Option (UInt16 × UInt16 × Octets)
  | a :: b :: c :: d :: size :: payload =>
    if payload.length = size.toNat then some (word a b, word c d, payload) else none
  | _ => none

/-- A block of 1 to `most` words, two octets each. -/
def wordBlock? (most : Nat) (data : Octets) : Option (UInt16 × List UInt16) := do
  let (start, count, payload) ← block? data
  if 1 ≤ count.toNat ∧ count.toNat ≤ most ∧ payload.length = 2 * count.toNat then
    some (start, Octets.words payload)
  else none

def bitBlock? (most : Nat) (data : Octets) : Option (UInt16 × List Bool) := do
  let (start, count, payload) ← block? data
  if 1 ≤ count.toNat ∧ count.toNat ≤ most ∧ payload.length = Octets.ofBitCount count.toNat then
    some (start, Octets.unpackBits count.toNat payload)
  else none

/-- The request that a function makes of its data, unless the data are impossible. -/
def ofData? : FunctionCode → Octets → Option Request
  | .readCoils, data => (range? maxReadBits data).map fun (s, n) => readCoils s n
  | .readDiscreteInputs, data =>
    (range? maxReadBits data).map fun (s, n) => readDiscreteInputs s n
  | .readHoldingRegisters, data =>
    (range? maxReadWords data).map fun (s, n) => readHoldingRegisters s n
  | .readInputRegisters, data =>
    (range? maxReadWords data).map fun (s, n) => readInputRegisters s n
  | .writeCoil, [a, b, c, d] =>
    if word c d = 0xFF00 then some (writeCoil (word a b) true)
    else if word c d = 0 then some (writeCoil (word a b) false)
    else none
  | .writeRegister, [a, b, c, d] => some (writeRegister (word a b) (word c d))
  | .writeCoils, data => (bitBlock? maxWriteBits data).map fun (s, vs) => writeCoils s vs
  | .writeRegisters, data => (wordBlock? maxWriteWords data).map fun (s, vs) => writeRegisters s vs
  | .reportServerId, [] => some reportServerId
  | .maskWriteRegister, [a, b, c, d, e, f] =>
    some (maskWriteRegister (word a b) (word c d) (word e f))
  | .writeReadRegisters, a :: b :: c :: d :: rest => do
    let (readStart, readCount) ← range? maxReadWords [a, b, c, d]
    let (writeStart, values) ← wordBlock? maxExchangeWords rest
    some (writeReadRegisters readStart readCount writeStart values)
  | _, _ => none

def decode : Octets → Except Exception Request
  | [] => .error .illegalFunction
  | code :: data =>
    match FunctionCode.ofOctet? code with
    | none => .error .illegalFunction
    | some function =>
      match ofData? function data with
      | none => .error .illegalDataValue
      | some request => .ok request

/-! ### Data of answers -/

def countWord {α : Type} (values : List α) : UInt16 := UInt16.ofNat values.length

def coilWord (on : Bool) : UInt16 := if on then 0xFF00 else 0

def head : Request → Octets
  | readCoils s n | readDiscreteInputs s n | readHoldingRegisters s n | readInputRegisters s n =>
    Octets.ofWord s ++ Octets.ofWord n
  | writeCoil a on => Octets.ofWord a ++ Octets.ofWord (coilWord on)
  | writeRegister a v => Octets.ofWord a ++ Octets.ofWord v
  | writeCoils s vs => Octets.ofWord s ++ Octets.ofWord (countWord vs)
  | writeRegisters s vs => Octets.ofWord s ++ Octets.ofWord (countWord vs)
  | reportServerId => []
  | maskWriteRegister a m o => Octets.ofWord a ++ Octets.ofWord m ++ Octets.ofWord o
  | writeReadRegisters rs rn ws vs =>
    Octets.ofWord rs ++ Octets.ofWord rn ++ Octets.ofWord ws ++ Octets.ofWord (countWord vs)

def counted (payload : Octets) : Octets := UInt8.ofNat payload.length :: payload

end Request

/-! ### Carrying out -/

/-- What a request changes: at most one bank. -/
inductive Change where
  | nothing
  | coils (bank : Bank .bit)
  | holdingRegisters (bank : Bank .word)

def Banks.apply (b : Banks) : Change → Banks
  | .nothing => b
  | .coils bank => { b with coils := bank }
  | .holdingRegisters bank => { b with holdingRegisters := bank }

def serverId : String := "modbus-rtu-shm-0.1.0"

def runIndicator : UInt8 := 0xFF

namespace Request

def identity (unit : UInt8) : Octets := unit :: runIndicator :: textOctets serverId.toList

/-- The word under a mask: places set in the first mask keep the word's bits, the others take those
of the second. -/
def masked (value andMask orMask : UInt16) : UInt16 :=
  (value &&& andMask) ||| (orMask &&& ~~~andMask)

/-- The data of the answer to a request, and what carrying it out changes; nothing if an address
lies outside the bank. A block is written before anything is read. -/
def perform? (unit : UInt8) (banks : Banks) : Request → Option (Octets × Change)
  | readCoils s n => do
    let bits ← banks.coils.read? s.toNat n.toNat
    return (counted (Octets.packBits bits), .nothing)
  | readDiscreteInputs s n => do
    let bits ← banks.discreteInputs.read? s.toNat n.toNat
    return (counted (Octets.packBits bits), .nothing)
  | readHoldingRegisters s n => do
    let words ← banks.holdingRegisters.read? s.toNat n.toNat
    return (counted (Octets.ofWords words), .nothing)
  | readInputRegisters s n => do
    let words ← banks.inputRegisters.read? s.toNat n.toNat
    return (counted (Octets.ofWords words), .nothing)
  | writeCoil a on => do
    let bank ← banks.coils.set? a.toNat on
    return (head (writeCoil a on), .coils bank)
  | writeRegister a v => do
    let bank ← banks.holdingRegisters.set? a.toNat v
    return (head (writeRegister a v), .holdingRegisters bank)
  | writeCoils s vs => do
    let bank ← banks.coils.write? s.toNat vs
    return (head (writeCoils s vs), .coils bank)
  | writeRegisters s vs => do
    let bank ← banks.holdingRegisters.write? s.toNat vs
    return (head (writeRegisters s vs), .holdingRegisters bank)
  | reportServerId => some (counted (identity unit), .nothing)
  | maskWriteRegister a m o => do
    let value ← banks.holdingRegisters.get? a.toNat
    let bank ← banks.holdingRegisters.set? a.toNat (masked value m o)
    return (head (maskWriteRegister a m o), .holdingRegisters bank)
  | writeReadRegisters rs rn ws vs => do
    let bank ← banks.holdingRegisters.write? ws.toNat vs
    let words ← bank.read? rs.toNat rn.toNat
    return (counted (Octets.ofWords words), .holdingRegisters bank)

end Request
end RtuStation
