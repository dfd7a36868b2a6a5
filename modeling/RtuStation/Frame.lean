import RtuStation.Crc

/-!
# Frames

A frame is an address, a function code with its data, and a check. `FunctionCode` lists the
functions a station serves; `FrameLength.ofRequest` (`rtu.frame.request_length`) tells from the
start of a request how long it is, so that requests can be cut from a stream of octets.
-/

namespace RtuStation

/-- The longest frame: address, 253 octets of function and data, check. -/
def maxFrame : Nat := 256

/-- The shortest frame: address, function, check. -/
def minFrame : Nat := 4

inductive FunctionCode where
  | readCoils
  | readDiscreteInputs
  | readHoldingRegisters
  | readInputRegisters
  | writeCoil
  | writeRegister
  | writeCoils
  | writeRegisters
  | reportServerId
  | maskWriteRegister
  | writeReadRegisters
  deriving DecidableEq, Repr

namespace FunctionCode

def octet : FunctionCode → UInt8
  | readCoils => 0x01
  | readDiscreteInputs => 0x02
  | readHoldingRegisters => 0x03
  | readInputRegisters => 0x04
  | writeCoil => 0x05
  | writeRegister => 0x06
  | writeCoils => 0x0F
  | writeRegisters => 0x10
  | reportServerId => 0x11
  | maskWriteRegister => 0x16
  | writeReadRegisters => 0x17

def all : List FunctionCode :=
  [readCoils, readDiscreteInputs, readHoldingRegisters, readInputRegisters, writeCoil,
    writeRegister, writeCoils, writeRegisters, reportServerId, maskWriteRegister,
    writeReadRegisters]

def ofOctet? (b : UInt8) : Option FunctionCode := all.find? fun f => f.octet == b

theorem ofOctet?_octet (f : FunctionCode) : ofOctet? f.octet = some f := by
  cases f <;> decide

theorem octet_of_ofOctet? {b : UInt8} {f : FunctionCode} (h : ofOctet? b = some f) :
    f.octet = b := by
  have := List.find?_some h
  simpa using this

end FunctionCode

/-- What the start of a frame tells about its length. -/
inductive FrameLength where
  /-- This many octets are needed before the length can be told. -/
  | atLeast (n : Nat)
  | exactly (n : Nat)
  | untilSilence
  deriving DecidableEq, Repr

namespace FrameLength

/-- A length that follows from the byte count in the octet at `position`: `fixed` octets stand
around what is counted, and no frame exceeds `maxFrame`. -/
def counted (partialFrame : Octets) (position fixed : Nat) : FrameLength :=
  match partialFrame[position]? with
  | none => atLeast (position + 1)
  | some count => exactly (min (fixed + count.toNat) maxFrame)

/-- The length of a request that starts with the given octets. -/
def ofRequest (start : Octets) : FrameLength :=
  match start with
  | _ :: function :: _ =>
    match FunctionCode.ofOctet? function with
    | none => untilSilence
    | some .reportServerId => exactly minFrame
    | some .maskWriteRegister => exactly 10
    | some .writeCoils | some .writeRegisters => counted start 6 9
    | some .writeReadRegisters => counted start 10 13
    | some _ => exactly 8
  | _ => atLeast 2

end FrameLength

/-- The frame that asks a unit for what stands in `pdu` (`rtu.responder.build_request`). -/
def requestFrame (unit : UInt8) (pdu : Octets) : Octets := Crc.checked (unit :: pdu)

end RtuStation
