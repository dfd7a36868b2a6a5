import RtuStation.Error
import RtuStation.Station

/-!
# Notices

What a program reports while it works: each notice has a level of urgency and a text.
-/

namespace RtuStation

inductive Level where
  | error
  | warn
  | info
  | debug
  deriving DecidableEq, Repr

namespace Level

def name : Level → String
  | error => "ERROR"
  | warn => "WARN"
  | info => "INFO"
  | debug => "DEBUG"

def rank : Level → Nat
  | error => 1
  | warn => 2
  | info => 3
  | debug => 4

end Level

/-- Which side of the bus a server plays (`server.Role`). -/
inductive Role where
  | client
  | slave
  deriving DecidableEq, Repr

namespace Role

def label : Role → String
  | client => "client"
  | slave => "slave"

def peer : Role → String
  | client => "server"
  | slave => "master"

/-- The party on the other end, at the start of a sentence. -/
def peerTitle : Role → String
  | client => "Server"
  | slave => "Master"

end Role

inductive ObjectKind where
  | segment
  | semaphore
  deriving DecidableEq, Repr

def ObjectKind.word : ObjectKind → String
  | segment => "shared memory"
  | semaphore => "semaphore"

inductive Notice where
  | banksCreated (stem : String) (sizes : Sizes)
  | reclaiming (kind : ObjectKind) (name : String)
  | semaphoreCreated (name : String)
  | notAcquired (name : String) (timeoutMs : Nat)
  | opened (settings : SerialSettings)
  | byteTimeout (count : Nat)
  | remark (remark : Remark)
  | loopStarted (role : Role)
  | peerClosed (role : Role)
  /-- A session cannot start. -/
  | refusal (error : Error)
  | failure (error : Error)
  /-- Something could not be given up in an orderly way. -/
  | setback (kind : ObjectKind) (error : Error)
  | connected
  | terminating
  /-- A line of advice that bears no level. -/
  | hint (text : String)
  deriving DecidableEq, Repr

def Sizes.text (s : Sizes) : String :=
  "BankSizes \x7b discrete_outputs: " ++ toString s.coils ++
    ", discrete_inputs: " ++ toString s.discreteInputs ++
    ", analog_outputs: " ++ toString s.holdingRegisters ++
    ", analog_inputs: " ++ toString s.inputRegisters ++ " \x7d"

def hexNumber (b : UInt8) : String := "0x" ++ String.ofList (Fnv.hexDigits 2 b.toNat)

def Remark.text : Remark → String
  | short frame => "discarding short frame " ++ Octets.dump frame
  | damaged frame => "discarding frame with bad CRC " ++ Octets.dump frame
  | refused function e => "function " ++ hexNumber function ++ ": " ++ e.name

namespace Notice

def level? : Notice → Option Level
  | refusal _ | failure _ => some .error
  | reclaiming .. | notAcquired .. | setback .. => some .warn
  | semaphoreCreated _ | peerClosed _ | connected | terminating => some .info
  | banksCreated .. | opened _ | byteTimeout _ | remark _ | loopStarted _ => some .debug
  | hint _ => none

/-- The part of the program that a notice comes from. -/
def origin? : Notice → Option String
  | refusal _ | connected | terminating => some "modbus_rtu_shm"
  | reclaiming .segment _ => some "modbus_rtu_shm::shm"
  | reclaiming .semaphore _ => some "modbus_rtu_shm::semaphore"
  | banksCreated .. | setback .segment _ => some "modbus_rtu_shm::store"
  | semaphoreCreated _ | notAcquired .. | setback .semaphore _ => some "modbus_rtu_shm::guard"
  | opened _ | byteTimeout _ => some "modbus_rtu_shm::connection"
  | remark _ => some "modbus_rtu_shm::rtu::responder"
  | loopStarted _ | peerClosed _ | failure _ => some "modbus_rtu_shm::server"
  | hint _ => none

def text : Notice → String
  | banksCreated stem sizes =>
    "created register banks under prefix " ++ quoted stem ++ ": " ++ sizes.text
  | reclaiming kind name => kind.word ++ " " ++ quoted name ++ " already exists, reclaiming it"
  | semaphoreCreated name => "semaphore " ++ quoted name ++ " created"
  | notAcquired name ms =>
    "failed to acquire semaphore " ++ quoted name ++ " within " ++ toString ms ++ "ms"
  | opened s =>
    "opened " ++ s.device ++ " at " ++ toString s.baud ++ " " ++ toString s.dataBits ++
      toString s.parity.letter ++ toString s.stopBits
  | byteTimeout n => "byte timeout after " ++ toString n ++ " bytes of a frame"
  | remark r => r.text
  | loopStarted role => role.label ++ " loop started"
  | peerClosed role => role.peerTitle ++ " closed connection."
  | refusal e | failure e | setback _ e => e.message
  | connected => "Connected to bus."
  | terminating => "Terminating..."
  | hint t => t

end Notice
end RtuStation
