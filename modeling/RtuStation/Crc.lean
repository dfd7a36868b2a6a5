import RtuStation.Octets

/-!
# The frame check sequence

CRC-16 with the reflected polynomial `A001` and initial register `FFFF`, sent low octet first. A
frame is *checked* by appending the check of what stands before, and *intact* if its last two octets
are that check (`append_crc` and `check_crc` of `rtu.crc`).
-/

namespace RtuStation.Crc

/-- The polynomial, lowest power in the highest place. -/
def polynomial : UInt16 := 0xA001

def shift (r : UInt16) : UInt16 :=
  if r &&& 1 = 1 then (r >>> 1) ^^^ polynomial else r >>> 1

def shifts : Nat → UInt16 → UInt16
  | 0, r => r
  | n + 1, r => shifts n (shift r)

def absorb (r : UInt16) (b : UInt8) : UInt16 := shifts 8 (r ^^^ b.toUInt16)

def run (r : UInt16) (bytes : Octets) : UInt16 := bytes.foldl absorb r

def crc16 (bytes : Octets) : UInt16 := run 0xFFFF bytes

theorem run_append (r : UInt16) (a b : Octets) : run r (a ++ b) = run (run r a) b := by
  simp [run]

def trailer (check : UInt16) : Octets := [lowOctet check, highOctet check]

def checked (body : Octets) : Octets := body ++ trailer (crc16 body)

theorem length_checked (body : Octets) : (checked body).length = body.length + 2 := by
  simp [checked, trailer]

def body (frame : Octets) : Octets := frame.take (frame.length - 2)

/-- Whether the last two octets of a frame are the check of the rest. -/
def intact (frame : Octets) : Bool :=
  match frame.drop (frame.length - 2) with
  | [low, high] => crc16 (body frame) == word high low
  | _ => false

theorem body_checked (b : Octets) : body (checked b) = b := by
  simp [body, checked, trailer]

theorem intact_checked (b : Octets) : intact (checked b) = true := by
  have h : (checked b).drop ((checked b).length - 2) = trailer (crc16 b) := by
    simp [checked, trailer]
  simp only [intact, h, body_checked, trailer, word_octets]
  simp

end RtuStation.Crc
