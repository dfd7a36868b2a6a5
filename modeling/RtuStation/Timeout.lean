/-!
# Timeouts

A timeout is given in seconds as a floating-point number and kept as whole seconds and
microseconds. The fraction is cut off after the microseconds, never rounded up.
-/

namespace RtuStation

/-- A length of time in seconds and microseconds. -/
structure Timeout where
  seconds : UInt32
  micros : UInt32
  deriving DecidableEq, Repr

namespace Timeout

/-- The longest wait between two octets of a frame, and the longest time to send a reply, where
nothing else is set: half a second. -/
def standard : Timeout := ⟨0, 500000⟩

/-- The timeout of a number of seconds (`timeout.to_native`). Negative numbers and NaN count as
zero, and what exceeds the range of the seconds is cut to it. -/
def ofSeconds (seconds : Float) : Timeout :=
  let whole := seconds.toUInt32
  let fraction := seconds - whole.toFloat
  ⟨whole, min (fraction * 1000000.0).toUInt32 999999⟩

def toSeconds (t : Timeout) : Float := t.seconds.toFloat + t.micros.toFloat / 1000000.0

/-- A timeout as whole seconds and nanoseconds. A count of microseconds too large for the word of
nanoseconds is cut to it; full seconds among the nanoseconds are carried. -/
def span (t : Timeout) : Nat × Nat :=
  let nanos := min (t.micros.toNat * 1000) (Nat.pow 2 32 - 1)
  (t.seconds.toNat + nanos / 1000000000, nanos % 1000000000)

inductive Refusal where
  | sign
  | size
  deriving DecidableEq, Repr

/-- Why a number of seconds is no timeout, if it is none (`timeout.checked_to_native`). -/
def refusal? (seconds : Float) : Option Refusal :=
  if !seconds.isFinite || seconds < 0.0 then some .sign
  else if 4294967295.0 < seconds then some .size
  else none

end Timeout
end RtuStation
