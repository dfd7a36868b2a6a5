import RtuStation.Connection
import RtuStation.Guard
import RtuStation.Store

/-!
# Servers

A server (`server.RequestServer`) joins a connection, an engine and a store. It serves one request
at a time: it receives a frame, takes the guard, lets the engine answer on the banks, gives the
guard back and sends the reply. A timed-out guard does not keep a request from being answered.
Whatever fails ends the session for good, as a shutdown if the operator has cancelled it, else as a
failure.
-/

namespace RtuStation

structure Engine where
  unit : UInt8
  frameLength : Octets → FrameLength
  answer : Octets → Banks → Answer
  /-- It raises the server's cancellation flag before each answer. -/
  cancels : Bool := false

def Station.engine (s : Station) : Engine where
  unit := s.unit
  frameLength := FrameLength.ofRequest
  answer := s.answer

def Store.execute (s : Store) (engine : Engine) (frame : Octets) : Deed (Option Octets) := do
  let a := engine.answer frame (s.banks (← get))
  if let some r := a.remark then report (.remark r)
  s.apply a.change
  return a.reply

inductive ServerState where
  | idle
  | receiving
  | guarding
  | replying
  /-- The session is over by the other side's or the operator's wish. -/
  | closed
  | fatal
  deriving DecidableEq, Repr

namespace ServerState

def all : List ServerState := [idle, receiving, guarding, replying, closed, fatal]

def isTerminal : ServerState → Bool
  | closed | fatal => true
  | _ => false

end ServerState

inductive Step where
  | continue
  | peerClosed
  | waiting
  deriving DecidableEq, Repr

inductive Shutdown where
  | peerClosed
  | cancelled
  /-- It has not ended: the server waits for a line that stays silent. -/
  | unfinished
  deriving DecidableEq, Repr

structure Server where
  role : Role
  connection : Connection
  engine : Engine
  store : Store
  guard : Option Guard := none
  cancel : Nat
  state : ServerState := .idle
  /-- Frames are written to the standard output. -/
  monitor : Bool := false
  request : Octets := []

namespace Server

/-- Whether the server has a guard that holds its semaphore. -/
def holds (s : Server) : Bool := s.guard.any (·.held)

def enableGuard (s : Server) (name : String) (force : Bool) (policy : GuardPolicy) :
    Op Server := do
  if s.guard.isSome then throw .alreadyEnabled
  return { s with guard := some (← Guard.create name force policy) }

def letGo (s : Server) : Deed Server := do
  match s.guard with
  | none => return s
  | some g =>
    let (_, g) ← g.release
    return { s with guard := some g }

def shutDown {α : Type} (s : Server) : Deed (Except Error α × Server) := do
  let s ← letGo { s with state := .closed }
  return (.error .cancelled, s)

def fail {α : Type} (s : Server) (e : Error) : Deed (Except Error α × Server) := do
  let s ← letGo { s with state := .fatal }
  report (.failure e)
  return (.error e, s)

/-- Ends the session after an error: as a shutdown if the session is cancelled. -/
def abort {α : Type} (s : Server) (e : Error) : Deed (Except Error α × Server) := do
  if ← isRaised s.cancel then s.shutDown else s.fail e

def display (s : Server) (mark : String) (frame : Octets) : Deed Unit := do
  if s.monitor then write (mark ++ Octets.dump frame ++ "\n")

def receive (s : Server) : Deed (Except Error Received × Server) := do
  if s.state.isTerminal then return (.error .terminated, s)
  enter (.receive s.holds)
  let (r, connection) ← s.connection.receive s.engine.frameLength
  let s := { s with state := .receiving, connection, request := r.context }
  match r.result with
  | .ok .request =>
    s.display "<" s.request
    return (.ok .request, s)
  | .ok .peerClosed =>
    report (.peerClosed s.role)
    return (.ok .peerClosed, { s with state := .closed })
  | .ok .waiting => return (.ok .waiting, s)
  | .error e => s.abort e

def acquire (s : Server) : Deed (Except Error Unit × Server) := do
  match s.guard with
  | none => return (.ok (), s)
  | some g =>
    let (outcome, g) ← g.tryAcquire
    return (outcome.map fun _ => (), { s with guard := some g })

def release (s : Server) : Deed (Except Error Unit × Server) := do
  match s.guard with
  | none => return (.ok (), s)
  | some g =>
    let (outcome, g) ← g.release
    return (outcome, { s with guard := some g })

def answer (s : Server) : Deed (Option Octets) := do
  enter (.answer s.holds s.request)
  if s.engine.cancels then raiseFlag s.cancel
  s.store.execute s.engine s.request

def deliver (s : Server) (reply : Option Octets) : Deed (Except Error Step × Server) := do
  match reply with
  | none => return (.ok .continue, { s with state := .idle })
  | some frame =>
    s.display ">" frame
    enter (.send s.holds frame)
    let (outcome, connection) ← s.connection.send frame
    let s := { s with connection }
    match outcome with
    | .ok () => return (.ok .continue, { s with state := .idle })
    | .error .cancelled => s.shutDown
    | .error e => s.abort e

def answerRequest (s : Server) : Deed (Except Error Step × Server) := do
  match ← acquire { s with state := .guarding } with
  | (.error e, s) => s.abort e
  | (.ok (), s) =>
    let s := { s with state := .replying }
    let reply ← s.answer
    match ← s.release with
    | (.error e, s) => s.abort e
    | (.ok (), s) => s.deliver reply

/-- Serves one request (`RequestServer.serve_one`). Cancellation is heeded before a frame is
received and before it is answered. -/
def serveOne (s : Server) : Deed (Except Error Step × Server) := do
  if s.state.isTerminal then return (.error .terminated, s)
  if ← isRaised s.cancel then return ← s.shutDown
  match ← s.receive with
  | (.error e, s) => return (.error e, s)
  | (.ok .peerClosed, s) => return (.ok .peerClosed, s)
  | (.ok .waiting, s) => return (.ok .waiting, s)
  | (.ok .request, s) =>
    if ← isRaised s.cancel then return ← s.shutDown
    s.answerRequest

def serve : Nat → Server → Deed (Except Error Shutdown × Server)
  | 0, s => return (.ok .unfinished, s)
  | n + 1, s => do
    match ← s.serveOne with
    | (.ok .continue, s) => serve n s
    | (.ok .peerClosed, s) => return (.ok .peerClosed, s)
    | (.ok .waiting, s) => return (.ok .unfinished, s)
    | (.error .cancelled, s) => return (.ok .cancelled, s)
    | (.error e, s) => return (.error e, s)

/-- Serves requests until the session ends (`RequestServer.run`). Each request takes something off
what the connection has still to deliver, so this many are enough. -/
def run (s : Server) : Deed (Except Error Shutdown × Server) := do
  report (.loopStarted s.role)
  let w ← get
  serve (s.connection.pending w + 2) s

def drop (s : Server) : Deed Unit := do
  s.store.drop
  if let some g := s.guard then g.drop
  s.connection.drop

end Server
end RtuStation
