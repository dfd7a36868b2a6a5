/-!
# Serial line settings

How a serial line is driven (`config.SerialConfig`): its speed, the format of a character and the
electrical mode.
-/

namespace RtuStation

inductive Parity where
  | none
  | even
  | odd
  deriving DecidableEq, Repr

namespace Parity

def letter : Parity → Char
  | none => 'N'
  | even => 'E'
  | odd => 'O'

/-- The parity a letter of either case stands for. -/
def ofLetter? (c : Char) : Option Parity :=
  match c.toUpper with
  | 'N' => some none
  | 'E' => some even
  | 'O' => some odd
  | _ => Option.none

def ofText? (text : String) : Option Parity :=
  match text.toList with
  | [c] => ofLetter? c
  | _ => Option.none

end Parity

inductive LineMode where
  | unchanged
  | rs232
  | rs485
  deriving DecidableEq, Repr

structure SerialSettings where
  device : String
  baud : Nat := 9600
  parity : Parity := .none
  dataBits : Nat := 8
  stopBits : Nat := 1
  mode : LineMode := .unchanged
  deriving DecidableEq, Repr

inductive SerialFault where
  | emptyDevice
  | zeroBaud
  | dataBits (count : Nat)
  | stopBits (count : Nat)
  deriving DecidableEq, Repr

def SerialSettings.fault? (s : SerialSettings) : Option SerialFault :=
  if s.device.isEmpty then some .emptyDevice
  else if s.baud = 0 then some .zeroBaud
  else if s.dataBits < 5 ∨ 8 < s.dataBits then some (.dataBits s.dataBits)
  else if s.stopBits < 1 ∨ 2 < s.stopBits then some (.stopBits s.stopBits)
  else none

/-- The speeds a terminal has codes for, in two runs of consecutive codes
(`platform.serial.baud_constant`). -/
def slowSpeeds : List Nat :=
  [50, 75, 110, 134, 150, 200, 300, 600, 1200, 1800, 2400, 4800, 9600, 19200, 38400]

/-- The speeds whose codes start at 4097. -/
def fastSpeeds : List Nat :=
  [57600, 115200, 230400, 460800, 500000, 576000, 921600, 1000000, 1152000, 1500000, 2000000,
    2500000, 3000000, 3500000, 4000000]

def speedCode? (baud : Nat) : Option Nat :=
  match slowSpeeds.idxOf? baud with
  | some i => some (i + 1)
  | none => (fastSpeeds.idxOf? baud).map (· + 4097)

structure TerminalSettings where
  speedCode : Nat
  twoStopBits : Bool
  odd : Bool
  checkParity : Bool
  ignoresModem : Bool
  echo : Bool
  canonical : Bool
  minimum : Nat
  interval : Nat
  deriving DecidableEq, Repr

/-- A terminal as it is found before it is first opened: 38400 baud with line editing. -/
def TerminalSettings.initial : TerminalSettings :=
  ⟨15, false, false, false, false, true, true, 1, 0⟩

/-- The settings of a terminal after it is opened as a serial line (`platform.serial.open_serial`):
raw octets, no waiting. Without a parity bit the choice between even and odd stays as it was. -/
def TerminalSettings.raw (t : TerminalSettings) (code : Nat) (s : SerialSettings) :
    TerminalSettings where
  speedCode := code
  twoStopBits := s.stopBits = 2
  odd := match s.parity with
    | .none => t.odd
    | .even => false
    | .odd => true
  checkParity := s.parity ≠ .none
  ignoresModem := true
  echo := false
  canonical := false
  minimum := 0
  interval := 0

end RtuStation
