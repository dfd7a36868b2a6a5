import RtuStation.World.Basic

/-!
# Channels

The kinds of lines that stations are put on, told by what carries the octets: a socket, one end of a
pipe, a file, a directory taken for a line, or a terminal. Each kind has a line at the start, and
changes it in its own way when the other side stops writing or goes away.
-/

namespace RtuStation

inductive Channel where
  | socket
  | pipeOut
  | pipeIn
  /-- A file that is open for reading and writing in one place, at first its start. -/
  | file (content : Octets)
  | directory
  | terminal
  deriving DecidableEq, Repr

namespace Channel

def unwritable : Fault := .system .badDescriptor

def deserted : Fault := .system .brokenPipe

def errorCondition : Fault := .worded .other "poll reported error condition 0x8"

def line : Channel → Line
  | socket => { sink := .buffer (.socket []) }
  | pipeOut => { sink := .closed unwritable }
  | pipeIn => { sink := .buffer (.pipe []) }
  | file content => { arrivals := [.octets content], rest := .ended, sink := .inPlace }
  | directory => { rest := .unreadable (.system .isDirectory), sink := .closed unwritable }
  | terminal => { sink := .buffer (.terminal {}) }

def finished : Channel → Line → Line
  | socket, l => { l with rest := .ended }
  | pipeOut, l => { l with rest := .hungUp }
  | _, l => l

/-- The line when the other side has gone away. What a socket has sent and nobody has read resets
the connection; what a terminal has not yet read is lost. -/
def deserting : Channel → Line → Line
  | socket, l =>
    { l with
      rest := if l.sent.isEmpty then .ended else .reset
      sink := .closed deserted }
  | pipeOut, l => { l with rest := .hungUp }
  | pipeIn, l => { l with rest := .broken errorCondition, sink := .closed deserted }
  | terminal, l => { l with arrivals := [], rest := .ended, sink := .closed (.system .io) }
  | _, l => l

/-- Whether the other side can put octets on the line. A terminal takes them even if no station is
there; elsewhere the station must not have left, nor the other side have stopped writing. -/
def accepts (channel : Channel) (l : Line) : Bool :=
  match channel with
  | socket | pipeOut => !l.left && l.rest == .silent
  | terminal => true
  | pipeIn | file _ | directory => false

def deliver (channel : Channel) (bytes : Octets) (l : Line) : Bool × Line :=
  if bytes.isEmpty then (true, l)
  else if channel.accepts l then (true, l.deliver bytes)
  else (false, l)

end Channel

/-- Makes a terminal under a path that has not been used yet, or under none that can be opened; the
answer is its line. -/
def makeTerminal (path : String) : Deed Nat := do
  let number ← makeLine Channel.terminal.line
  modify fun w => { w with devices := (path, .terminal number .initial false) :: w.devices }
  return number

def deliverTo (channel : Channel) (number : Nat) (bytes : Octets) : Deed Bool := do
  match (← get).lines[number]? with
  | none => return false
  | some line =>
    let (accepted, line) := channel.deliver bytes line
    changeLine number fun _ => line
    return accepted

/-- The other side of a line goes away; the path of a terminal goes with it. -/
def hangUp (channel : Channel) (number : Nat) : Deed Unit := do
  changeLine number channel.deserting
  if channel = .terminal then
    modify fun w => { w with devices := w.devices.filter fun (_, device) =>
      match device with
      | .terminal other _ _ => other ≠ number
      | _ => true }

end RtuStation
