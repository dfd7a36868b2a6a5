import RtuStation.Bank.Kind
import RtuStation.Decimal
import RtuStation.Fault
import RtuStation.Name
import RtuStation.Serial
import RtuStation.Timeout

/-!
# Errors

Every way an operation can fail (`error.Error`), with its cause, the text that tells it, and the
category that decides how the program ends.
-/

namespace RtuStation

inductive BadArgument where
  | unit (unit : Nat)
  | bankSize (bank : BankKind) (count : Nat)
  | serial (fault : SerialFault)
  | speed (device : String) (baud : Nat)
  | nulInDevice (device : String) (position : Nat)
  | parity (text : String)
  | timeout (refusal : Timeout.Refusal) (bits : UInt64)
  | objectName (refusal : BadName) (text : String)
  | guardPolicy
  | rejected (name : String) (fault : Fault)
  | other (text : String)
  deriving DecidableEq, Repr

inductive Error where
  | invalidArgument (reason : BadArgument)
  | alreadyExists (name : String)
  | permissionDenied (name : String) (source : Fault)
  | resourceExhausted (name : String) (source : Fault)
  | alreadyEnabled
  /-- A guard has met contention for too long. -/
  | guardEscalated (name : String)
  | transport (source : Fault)
  | reply (source : Fault)
  | system (context : String) (source : Fault)
  | terminated
  | cancelled
  deriving DecidableEq, Repr

inductive Category where
  | configuration
  | resource
  /-- The guard met contention for too long. -/
  | contention
  | transport
  | cancelled
  deriving DecidableEq, Repr

def quoted (name : String) : String := "'" ++ name ++ "'"

def BadArgument.message : BadArgument → String
  | unit n => "invalid modbus id " ++ toString n ++ " (1-247)"
  | bankSize bank count =>
    "too many " ++ bank.suffix ++ " registers: " ++ toString count ++
      " (maximum: " ++ toString maxBankSize ++ ")"
  | serial .emptyDevice => "serial device is empty"
  | serial .zeroBaud => "invalid baud rate"
  | serial (.dataBits n) => "data-bits out of range: " ++ toString n ++ " (5-8)"
  | serial (.stopBits n) => "stop-bits out of range: " ++ toString n ++ " (1-2)"
  | speed device baud => device ++ ": unsupported baud rate " ++ toString baud
  | nulInDevice device position =>
    device ++ ": nul byte found in provided data at position: " ++ toString position
  | parity text => "invalid parity " ++ quoted text ++ " (N(one), E(ven), O(dd))"
  | timeout .sign bits =>
    "timeout must be a non-negative number of seconds, got " ++ Decimal.textOfBits bits
  | timeout .size bits => "timeout " ++ Decimal.textOfBits bits ++ "s is too large"
  | objectName .empty _ => "object name is empty"
  | objectName .malformed text => "object name " ++ quoted text ++ " must not contain '/' or NUL"
  | guardPolicy => "guard policy needs a non-zero maximum and failure increment"
  | rejected name fault => quoted name ++ ": " ++ fault.text
  | other text => text

namespace Error

def message : Error → String
  | invalidArgument reason => "invalid argument: " ++ reason.message
  | alreadyExists name => quoted name ++ " already exists"
  | permissionDenied name source => "permission denied for " ++ quoted name ++ ": " ++ source.text
  | resourceExhausted name source => "cannot allocate " ++ quoted name ++ ": " ++ source.text
  | alreadyEnabled => "semaphore already enabled"
  | guardEscalated name => "repeatedly failed to acquire the semaphore " ++ quoted name
  | transport source => "modbus_receive failed: " ++ source.text
  | reply source => "failed to send reply: " ++ source.text
  | system context source => context ++ ": " ++ source.text
  | terminated => "session already terminated"
  | cancelled => "operation cancelled"

def category : Error → Category
  | invalidArgument _ | alreadyExists _ | permissionDenied .. | alreadyEnabled => .configuration
  | resourceExhausted .. | system .. => .resource
  | guardEscalated _ => .contention
  | transport _ | reply _ | terminated => .transport
  | cancelled => .cancelled

def isFatal (e : Error) : Bool := e.category ≠ .cancelled

def source? : Error → Option Fault
  | permissionDenied _ f | resourceExhausted _ f | transport f | reply f | system _ f => some f
  | _ => none

/-- The error for a fault met while the object `name` is created or opened (`Error.from_os`). -/
def ofObject (name : String) (fault : Fault) : Error :=
  match fault.errno? with
  | none => system (quoted name) fault
  | some e =>
    if e = .alreadyExists then alreadyExists name
    else if e = .accessDenied ∨ e = .notPermitted then permissionDenied name fault
    else if e = .noMemory ∨ e = .noSpace ∨ e = .tooManyFiles ∨ e = .tooManyFilesInSystem then
      resourceExhausted name fault
    else if e = .invalid ∨ e = .nameTooLong then invalidArgument (.rejected name fault)
    else system (quoted name) fault

end Error

/-! ### Checks of single arguments -/

/-- The sizes of the banks must not exceed what addresses reach (`BankSizes.validate`). -/
def Sizes.check (sizes : Sizes) : Except Error Unit :=
  match sizes.oversized? with
  | some k => .error (.invalidArgument (.bankSize k (sizes.get k)))
  | none => .ok ()

def SerialSettings.check (s : SerialSettings) : Except Error Unit :=
  match s.fault? with
  | some fault => .error (.invalidArgument (.serial fault))
  | none => .ok ()

def Parity.ofText (text : String) : Except Error Parity :=
  match Parity.ofText? text with
  | some p => .ok p
  | .none => .error (.invalidArgument (.parity text))

/-- The timeout of a number of seconds taken from the configuration. -/
def Timeout.check (seconds : Float) : Except Error Timeout :=
  match Timeout.refusal? seconds with
  | some refusal => .error (.invalidArgument (.timeout refusal seconds.toBits))
  | none => .ok (Timeout.ofSeconds seconds)

def ObjectName.check (text : String) : Except Error ObjectName :=
  match ObjectName.ofText text with
  | .error refusal => .error (.invalidArgument (.objectName refusal text))
  | .ok name => .ok name

end RtuStation
