import RtuStation.World.Channel

/-!
# Connections

A connection receives requests and sends replies. A `Port` (`connection.FdConnection`)
does so over a line of the world, framing requests by what their start tells and by silence. A
`Script` follows a prepared list of cues instead, one for each reception and each transmission.
-/

namespace RtuStation

inductive Received where
  | request
  | peerClosed
  /-- The line is silent, and the reception has not ended. -/
  | waiting
  deriving DecidableEq, Repr

structure Reception where
  context : Octets
  result : Except Error Received

def cancelledReception : Error :=
  .transport (.worded .interrupted "connection closed by cancellation")

/-- Appends octets to a context as far as a frame has room (`RequestContext.extend`); the first part
of the answer is how many were taken. -/
def extendContext (context bytes : Octets) : Nat × Octets :=
  let taken := bytes.take (maxFrame - context.length)
  (taken.length, context ++ taken)

/-! ### Ports -/

structure Port where
  line : Nat
  cancel : Nat
  byteTimeout : Timeout := .standard
  responseTimeout : Timeout := .standard
  closed : Bool := false
  deriving DecidableEq, Repr

def Line.dead : Line := { sink := .closed (.system .badDescriptor) }

namespace Port

/-- Sets up the terminal on a line, of which the settings found and whether its electrical mode can
be set are given. -/
def setUpTerminal (settings : SerialSettings) (code line : Nat) (found : TerminalSettings)
    (switchable : Bool) : Deed (Except Fault Nat) := do
  let device : Device := .terminal line (found.raw code settings) switchable
  modify fun w => { w with devices := w.devices.map fun (path, old) =>
    match old with
    | .terminal other _ _ => if other = line then (path, device) else (path, old)
    | _ => (path, old) }
  if settings.mode ≠ .unchanged ∧ !switchable then return .error (.system .notTerminal)
  changeLine line Line.flush
  return .ok line

def openDevice (settings : SerialSettings) (code : Nat) : Deed (Except Fault Nat) := do
  if let some e ← meetDescriptor then return .error (.system e)
  match (← get).devices.find settings.device with
  | .error e => return .error (.system e)
  | .ok .directory => return .error (.system .isDirectory)
  | .ok (.refusing e) => return .error (.system e)
  | .ok .plain | .ok (.link _) => return .error (.system .notTerminal)
  | .ok .multiplexer =>
    let line ← makeTerminal ""
    setUpTerminal settings code line .initial false
  | .ok (.terminal line found switchable) => setUpTerminal settings code line found switchable

def deviceError (device : String) (fault : Fault) : Error :=
  if fault = .system .invalid then .invalidArgument (.other (device ++ ": " ++ fault.text))
  else .ofObject device fault

def openSerial (settings : SerialSettings) (cancel : Nat) : Op Port := do
  Op.ofExcept settings.check
  let device := settings.device
  match speedCode? settings.baud with
  | none => throw (.invalidArgument (.speed device settings.baud))
  | some code =>
    if let some i := device.toList.idxOf? '\x00' then
      throw (.invalidArgument (.nulInDevice device (textSize (device.toList.take i))))
    match ← openDevice settings code with
    | .error fault => throw (deviceError device fault)
    | .ok line =>
      report (.opened settings)
      return { line, cancel }

def setByteTimeout (p : Port) (seconds : Float) : Except Error Port :=
  (Timeout.check seconds).map fun t => { p with byteTimeout := t }

def setResponseTimeout (p : Port) (seconds : Float) : Except Error Port :=
  (Timeout.check seconds).map fun t => { p with responseTimeout := t }

def terms (p : Port) (framing : Octets → FrameLength) (w : World) : Intake.Terms :=
  { framing, cancel := p.cancel, waitFault := w.waitFault }

def received (p : Port) (r : Intake) (w : World) : World :=
  { w with
    lines := w.lines.modify p.line fun l => { l with arrivals := r.arrivals }, flags := r.flags }

def conclude (framing : Octets → FrameLength) (p : Port) (r : Intake) : Deed (Reception × Port) := do
  match r.ending with
  | .whole | .crowded => return (⟨r.context, .ok .request⟩, p)
  | .silence =>
    if framing r.context ≠ .untilSilence then report (.byteTimeout r.context.length)
    return (⟨r.context, .ok .request⟩, p)
  | .closed => return (⟨r.context, .ok .peerClosed⟩, { p with closed := true })
  | .failed fault => return (⟨r.context, .error (.transport fault)⟩, p)
  | .cancelled => return (⟨r.context, .error cancelledReception⟩, p)
  | .waiting => return (⟨r.context, .ok .waiting⟩, p)

/-- Receives a request (`FdConnection.receive`). Once the stream has ended, the line is no longer
asked. -/
def receive (framing : Octets → FrameLength) (p : Port) : Deed (Reception × Port) := do
  if p.closed then return (⟨[], .ok .peerClosed⟩, p)
  let w ← get
  let line := (w.lines[p.line]?).getD .dead
  let r := intake (p.terms framing w) line.rest [] line.arrivals w.flags
  set (p.received r w)
  p.conclude framing r

def send (frame : Octets) (p : Port) : Deed (Except Error Unit) := do
  let w ← get
  let line := (w.lines[p.line]?).getD .dead
  let terms : Dispatch.Terms := { cancel := p.cancel, waitFault := w.waitFault }
  let r := transmit terms line.sink line.departures frame w.flags
  set { w with lines := w.lines.modify p.line fun l => l.dispatched r, flags := r.flags }
  match r.ending with
  | .whole => return .ok ()
  | .cancelled => return .error .cancelled
  | .failed fault => return .error (.reply fault)
  | .hungUp => return .error (.reply (.kind .brokenPipe))
  | .expired =>
    return .error (.reply (.worded .timedOut "reply not sent within the response timeout"))

end Port

/-! ### Scripts -/

/-- What a script has a reception find. -/
inductive Cue where
  | fails (error : Error)
  | frame (bytes : Octets)
  | closes
  deriving DecidableEq, Repr

/-- A connection that follows cues. Each cue may raise the cancellation flag first. -/
structure Script where
  cancel : Nat
  receptions : List (Bool × Cue)
  transmissions : List (Bool × Option Error)
  sent : List Octets := []
  deriving DecidableEq, Repr

namespace Script

/-- Follows the next cue for a reception; without one the other side closes. -/
def receive (s : Script) : Deed (Reception × Script) := do
  match s.receptions with
  | [] => return (⟨[], .ok .peerClosed⟩, s)
  | (cancels, cue) :: later =>
    if cancels then raiseFlag s.cancel
    let s := { s with receptions := later }
    match cue with
    | .fails e => return (⟨[], .error e⟩, s)
    | .closes => return (⟨[], .ok .peerClosed⟩, s)
    | .frame bytes => return (⟨(extendContext [] bytes).2, .ok .request⟩, s)

/-- Follows the next cue for a transmission; without one the frame is sent. -/
def send (frame : Octets) (s : Script) : Deed (Except Error Unit × Script) := do
  match s.transmissions with
  | [] => return (.ok (), { s with sent := s.sent ++ [frame] })
  | (cancels, failure) :: later =>
    if cancels then raiseFlag s.cancel
    let s := { s with transmissions := later }
    match failure with
    | some e => return (.error e, s)
    | none => return (.ok (), { s with sent := s.sent ++ [frame] })

end Script

/-! ### Connections -/

inductive Connection where
  | port (port : Port)
  | script (script : Script)
  deriving DecidableEq, Repr

namespace Connection

def receive (framing : Octets → FrameLength) : Connection → Deed (Reception × Connection)
  | port p => do
    let (r, p) ← p.receive framing
    return (r, port p)
  | script s => do
    let (r, s) ← s.receive
    return (r, script s)

def send (frame : Octets) : Connection → Deed (Except Error Unit × Connection)
  | port p => do
    let outcome ← p.send frame
    return (outcome, port p)
  | script s => do
    let (outcome, s) ← s.send frame
    return (outcome, script s)

def drop : Connection → Deed Unit
  | port p => changeLine p.line Line.leave
  | script _ => return

def closed? : Connection → Option Bool
  | port p => some p.closed
  | script _ => none

def pending (w : World) : Connection → Nat
  | port p => RtuStation.pending ((w.lines[p.line]?).getD .dead).arrivals
  | script s => s.receptions.length

end Connection
end RtuStation
