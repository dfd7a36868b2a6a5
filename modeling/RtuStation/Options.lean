import RtuStation.Error

/-!
# The command line

The options of the program (`main.Args`), and how a list of arguments is read. A value follows its
option as the next argument, or is attached to it: `--name=value`, `-nvalue`, `-n=value`. Short
options without value can be bundled. An argument that starts with a dash is never a value, save the
single dash. No option is given twice, and nothing but options is accepted.
-/

namespace RtuStation

inductive OptionName where
  | device
  | id
  | parity
  | dataBits
  | stopBits
  | baud
  | rs485
  | rs232
  | stem
  | doRegisters
  | diRegisters
  | aoRegisters
  | aiRegisters
  | monitor
  | force
  | permissions
  | semaphore
  | semaphoreForce
  | byteTimeout
  | responseTimeout
  | help
  | version
  deriving DecidableEq, Repr

namespace OptionName

def all : List OptionName :=
  [device, id, parity, dataBits, stopBits, baud, rs485, rs232, stem, doRegisters, diRegisters,
    aoRegisters, aiRegisters, monitor, force, permissions, semaphore, semaphoreForce, byteTimeout,
    responseTimeout, help, version]

def long : OptionName → String
  | device => "device"
  | id => "id"
  | parity => "parity"
  | dataBits => "data-bits"
  | stopBits => "stop-bits"
  | baud => "baud"
  | rs485 => "rs485"
  | rs232 => "rs232"
  | stem => "name-prefix"
  | doRegisters => "do-registers"
  | diRegisters => "di-registers"
  | aoRegisters => "ao-registers"
  | aiRegisters => "ai-registers"
  | monitor => "monitor"
  | force => "force"
  | permissions => "permissions"
  | semaphore => "semaphore"
  | semaphoreForce => "semaphore-force"
  | byteTimeout => "byte-timeout"
  | responseTimeout => "response-timeout"
  | help => "help"
  | version => "version"

def short? : OptionName → Option Char
  | device => some 'd'
  | id => some 'i'
  | parity => some 'p'
  | baud => some 'b'
  | stem => some 'n'
  | monitor => some 'm'
  | help => some 'h'
  | version => some 'V'
  | _ => none

def takesValue : OptionName → Bool
  | rs485 | rs232 | monitor | force | semaphoreForce | help | version => false
  | _ => true

def ofLong? (name : List Char) : Option OptionName := all.find? fun o => o.long.toList == name

def ofShort? (c : Char) : Option OptionName := all.find? fun o => o.short? == some c

end OptionName

inductive UsageError where
  | unknownArgument
  | invalidValue
  | valueValidation
  | argumentConflict
  | tooManyValues
  | missingRequiredArgument
  | displayHelp
  | displayVersion
  deriving DecidableEq, Repr

structure Options where
  serial : SerialSettings
  unit : UInt8
  stem : String := "modbus_"
  sizes : Sizes := .full
  monitor : Bool := false
  force : Bool := false
  permissions : Nat := 0o660
  semaphore : Option String := none
  semaphoreForce : Bool := false
  byteTimeout : Option Float := none
  responseTimeout : Option Float := none

/-! ### Values -/

/-- A number below a limit in digits of a base, with an optional plus sign. -/
def readNumber? (base limit : Nat) (text : String) : Option Nat :=
  let digits := match text.toList with
    | '+' :: cs => cs
    | cs => cs
  if !digits.isEmpty && digits.all fun c => c.isDigit && c.toNat - 48 < base then
    let n := digits.foldl (fun n c => base * n + (c.toNat - 48)) 0
    if n < limit then some n else none
  else none

/-- A number below a limit in decimal digits, with an optional sign: zero may bear a minus. -/
def readSigned? (limit : Nat) (text : String) : Option Nat :=
  match text.toList with
  | '-' :: c :: cs =>
    if c.isDigit then (readNumber? 10 1 (String.ofList (c :: cs))).filter (· < limit) else none
  | _ => readNumber? 10 limit text

structure Draft where
  /-- The options given, each once. -/
  given : List OptionName := []
  device : Option String := none
  unit : Option UInt8 := none
  rs485 : Bool := false
  rs232 : Bool := false
  /-- All else, with a device and an address that stand in. -/
  rest : Options := { serial := { device := "" }, unit := 0 }

namespace Draft

def put {α : Type} (value : Option α) (set : α → Draft) : Except UsageError Draft :=
  match value with
  | none => .error .valueValidation
  | some v => .ok (set v)

def withSerial (d : Draft) (f : SerialSettings → SerialSettings) : Draft :=
  { d with rest := { d.rest with serial := f d.rest.serial } }

def withSizes (d : Draft) (f : Sizes → Sizes) : Draft :=
  { d with rest := { d.rest with sizes := f d.rest.sizes } }

def withRest (d : Draft) (f : Options → Options) : Draft := { d with rest := f d.rest }

def setValue (d : Draft) (text : String) : OptionName → Except UsageError Draft
  | .device => if text.isEmpty then .error .invalidValue else .ok { d with device := some text }
  | .id => put ((readSigned? 248 text).filter (1 ≤ ·)) fun n =>
      { d with unit := some (UInt8.ofNat n) }
  | .parity => put (Parity.ofText? text) fun p => d.withSerial fun s => { s with parity := p }
  | .dataBits => put (readSigned? (Nat.pow 2 8) text) fun n =>
      d.withSerial fun s => { s with dataBits := n }
  | .stopBits => put (readSigned? (Nat.pow 2 8) text) fun n =>
      d.withSerial fun s => { s with stopBits := n }
  | .baud => put (readSigned? (Nat.pow 2 32) text) fun n => d.withSerial fun s => { s with baud := n }
  | .stem => .ok (d.withRest fun o => { o with stem := text })
  | .doRegisters => put (readNumber? 10 (Nat.pow 2 64) text) fun n =>
      d.withSizes fun s => { s with coils := n }
  | .diRegisters => put (readNumber? 10 (Nat.pow 2 64) text) fun n =>
      d.withSizes fun s => { s with discreteInputs := n }
  | .aoRegisters => put (readNumber? 10 (Nat.pow 2 64) text) fun n =>
      d.withSizes fun s => { s with holdingRegisters := n }
  | .aiRegisters => put (readNumber? 10 (Nat.pow 2 64) text) fun n =>
      d.withSizes fun s => { s with inputRegisters := n }
  | .permissions => put (readNumber? 8 0o1000 text) fun n =>
      d.withRest fun o => { o with permissions := n }
  | .semaphore => .ok (d.withRest fun o => { o with semaphore := some text })
  | .byteTimeout => put (Decimal.read? text) fun x =>
      d.withRest fun o => { o with byteTimeout := some x }
  | .responseTimeout => put (Decimal.read? text) fun x =>
      d.withRest fun o => { o with responseTimeout := some x }
  | _ => .ok d

def setFlag (d : Draft) : OptionName → Except UsageError Draft
  | .rs485 => .ok { d with rs485 := true }
  | .rs232 => .ok { d with rs232 := true }
  | .monitor => .ok (d.withRest fun o => { o with monitor := true })
  | .force => .ok (d.withRest fun o => { o with force := true })
  | .semaphoreForce => .ok (d.withRest fun o => { o with semaphoreForce := true })
  | .help => .error .displayHelp
  | .version => .error .displayVersion
  | _ => .ok d

def take (d : Draft) (name : OptionName) (value : Option String) : Except UsageError Draft :=
  if d.given.contains name then .error .argumentConflict
  else
    let d := { d with given := name :: d.given }
    match value with
    | none => d.setFlag name
    | some text => d.setValue text name

def mode (d : Draft) : LineMode :=
  if d.rs485 then .rs485 else if d.rs232 then .rs232 else .unchanged

/-- The options, once all arguments are read: no two modes at once, no device or address missing,
and no forced semaphore without a semaphore. -/
def finish (d : Draft) : Except UsageError Options :=
  if d.rs485 && d.rs232 then .error .argumentConflict
  else
    match d.device, d.unit with
    | some device, some unit =>
      if d.rest.semaphoreForce && d.rest.semaphore.isNone then .error .missingRequiredArgument
      else .ok { d.rest with serial := { d.rest.serial with device, mode := d.mode }, unit }
    | _, _ => .error .missingRequiredArgument

end Draft

/-! ### Arguments -/

/-- A reading of arguments. An option that takes a value is taken only when the next option or the
end shows that its value is complete. -/
structure Reading where
  draft : Draft := {}
  pending : Option (OptionName × Option String) := none
  /-- A double dash has ended the options. -/
  trailing : Bool := false

namespace Reading

/-- Takes the option that is pending; it must have its value. -/
def settle (r : Reading) : Except UsageError Reading :=
  match r.pending with
  | none => .ok r
  | some (_, none) => .error .invalidValue
  | some (name, some text) =>
    (r.draft.take name (some text)).map fun d => { r with draft := d, pending := none }

def take (r : Reading) (name : OptionName) (value : Option String) :
    Except UsageError Reading := do
  let r ← r.settle
  return { r with draft := ← r.draft.take name value }

def await (r : Reading) (name : OptionName) : Except UsageError Reading := do
  let r ← r.settle
  return { r with pending := some (name, none) }

def readLong (r : Reading) (cs : List Char) : Except UsageError Reading :=
  let name := cs.takeWhile (· ≠ '=')
  let attached := (cs.dropWhile (· ≠ '=')).tail?
  match OptionName.ofLong? name with
  | none => .error .unknownArgument
  | some o =>
    match o.takesValue, attached with
    | true, some value => r.take o (some (String.ofList value))
    | true, none => r.await o
    | false, some _ => .error .tooManyValues
    | false, none => r.take o none

def readShort (r : Reading) : List Char → Except UsageError Reading
  | [] => .ok r
  | c :: cs =>
    match OptionName.ofShort? c with
    | none => .error .unknownArgument
    | some o =>
      if o.takesValue then
        match cs with
        | [] => r.await o
        | '=' :: value => r.take o (some (String.ofList value))
        | value => r.take o (some (String.ofList value))
      else do
        let r ← r.take o none
        r.readShort cs

def readWord (r : Reading) (text : String) : Except UsageError Reading :=
  match r.pending with
  | some (name, none) => .ok { r with pending := some (name, some text) }
  | _ => .error .unknownArgument

def read (r : Reading) (text : String) : Except UsageError Reading :=
  if r.trailing then .error .unknownArgument
  else
    match text.toList with
    | ['-', '-'] => .ok { r with trailing := true }
    | '-' :: '-' :: cs => r.readLong cs
    | ['-'] => r.readWord text
    | '-' :: cs => r.readShort cs
    | _ => r.readWord text

def readAll (r : Reading) : List String → Except UsageError Reading
  | [] => .ok r
  | text :: later => do
    let r ← r.read text
    r.readAll later

end Reading

def Options.ofArguments (arguments : List String) : Except UsageError Options := do
  let r ← Reading.readAll {} arguments
  let r ← r.settle
  r.draft.finish

end RtuStation
