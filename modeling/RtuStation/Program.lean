import RtuStation.Help
import RtuStation.Options
import RtuStation.Server

/-!
# The program

The program reads its options, sets a server up, serves until the session ends, and ends with a code
that tells how (`startup_code` and `loop_code` of `main`). Whatever was set up is given up again,
also when a later step of the setup fails.
-/

namespace RtuStation

/-! ### Codes -/

def codeOk : Nat := 0

def codeUsage : Nat := 64

def codeUnavailable : Nat := 69

def codeSoftware : Nat := 70

def codeSystem : Nat := 71

def startupCode (e : Error) : Nat :=
  match e.category with
  | .configuration => codeUsage
  | .resource | .transport => codeUnavailable
  | .contention => codeSoftware
  | .cancelled => codeOk

def sessionCode : Except Error Shutdown → Nat
  | .ok _ => codeOk
  | .error _ => codeSoftware

def UsageError.code : UsageError → Nat
  | displayHelp | displayVersion => codeOk
  | _ => codeUsage

/-! ### Setup -/

namespace Program

def setting {α : Type} (value : Option α) (p : Port) (set : Port → α → Except Error Port) :
    Except Error Port :=
  match value with
  | none => .ok p
  | some v => set p v

def checkTimeout (seconds : Option Float) : Except Error Unit :=
  match seconds with
  | none => .ok ()
  | some x => (Timeout.check x).map fun _ => ()

/-- Sets a server up (`main.setup`): first all checks that need only the options, then the banks,
the line, and the guard. -/
def setUp (o : Options) (cancel : Nat) : Op Server := do
  Op.ofExcept o.serial.check
  Op.ofExcept o.sizes.check
  let station ← Op.ofExcept (Station.ofUnit o.unit)
  Op.ofExcept (checkTimeout o.byteTimeout)
  Op.ofExcept (checkTimeout o.responseTimeout)
  let store ← Store.create o.sizes o.stem o.force o.permissions
  let server ← undoing store.drop do
    let port ← Port.openSerial o.serial cancel
    let port ← undoing (Connection.port port).drop do
      let port ← Op.ofExcept (setting o.byteTimeout port Port.setByteTimeout)
      Op.ofExcept (setting o.responseTimeout port Port.setResponseTimeout)
    return {
      role := .slave, connection := .port port, engine := station.engine, store, cancel
      : Server }
  let server ← undoing server.drop <|
    match o.semaphore with
    | none => return server
    | some name => server.enableGuard name o.semaphoreForce {}
  return { server with monitor := o.monitor }

/-- Runs a session with given options and a cancellation flag. -/
def runSession (o : Options) (cancel : Nat) : Deed Nat := do
  match ← (setUp o cancel).run with
  | .error e =>
    report (.refusal e)
    if e.category = .configuration then report (.hint adviceText)
    return startupCode e
  | .ok server =>
    report .connected
    let (outcome, server) ← server.run
    report .terminating
    server.drop
    return sessionCode outcome

def run (arguments : List String) : Deed Nat := do
  match Options.ofArguments arguments with
  | .error e =>
    match e with
    | .displayHelp => write helpText
    | .displayVersion => write versionText
    | _ => return e.code
    return e.code
  | .ok o =>
    match ← makeFlag.run with
    | .error e =>
      report (.refusal e)
      return codeSystem
    | .ok cancel => runSession o cancel

end Program

end RtuStation
