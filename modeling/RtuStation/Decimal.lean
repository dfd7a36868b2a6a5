/-!
# Decimal numbers

Binary floating-point numbers in decimal notation. A number is written with the fewest digits that
read back as the same number, always positionally, and without a point where it is whole. It is
read in positional or exponent notation.

A finite number is `mantissa * 2 ^ exponent`; the reals that round to it form an interval, whose
ends belong to it exactly if the mantissa is even. The digits written are those of the point of
this interval that lies on the coarsest decimal grid; of two such points the nearer one counts,
and the upper one in a tie.
-/

namespace RtuStation.Decimal

/-! ### Writing -/

structure Ratio where
  num : Nat
  den : Nat

def Ratio.scaled (n b : Nat) (e : Int) : Ratio :=
  if e < 0 then ⟨n, b.pow e.natAbs⟩ else ⟨n * b.pow e.natAbs, 1⟩

def Ratio.lt (a b : Ratio) : Bool := a.num * b.den < b.num * a.den

/-- The interval of reals that round to a number, with the number itself. -/
structure Rounding where
  low : Ratio
  value : Ratio
  high : Ratio
  closed : Bool

/-- The rounding interval of `mantissa * 2 ^ exponent`. Below a power of two, neighbours lie at half
the distance, unless the number has the least exponent. -/
def Rounding.of (mantissa : Nat) (exponent : Int) : Rounding where
  low := Ratio.scaled (if mantissa = Nat.pow 2 52 ∧ -1074 < exponent then 4 * mantissa - 1
    else 4 * mantissa - 2) 2 (exponent - 2)
  value := Ratio.scaled mantissa 2 exponent
  high := Ratio.scaled (4 * mantissa + 2) 2 (exponent - 2)
  closed := mantissa % 2 = 0

def Rounding.contains (r : Rounding) (x : Ratio) : Bool :=
  if r.closed then !x.lt r.low && !r.high.lt x else r.low.lt x && x.lt r.high

/-- The multiple of `10 ^ e` in the interval that is nearest to the value, if there is one: the
count of steps of the grid. -/
def Rounding.onGrid? (r : Rounding) (e : Int) : Option Nat :=
  let step := Ratio.scaled 1 10 e
  let below := (r.value.num * step.den) / (r.value.den * step.num)
  let point (n : Nat) := Ratio.scaled n 10 e
  match r.contains (point below) && below != 0, r.contains (point (below + 1)) with
  | false, false => none
  | true, false => some below
  | false, true => some (below + 1)
  | true, true =>
    -- twice the value against the sum of the two points
    if (Ratio.mk (2 * r.value.num) r.value.den).lt (Ratio.scaled (2 * below + 1) 10 e)
    then some below else some (below + 1)

structure Digits where
  digits : Nat
  exponent : Int
  deriving DecidableEq, Repr

/-- The shortest decimal number that rounds to `mantissa * 2 ^ exponent`: the one on the coarsest
grid that meets the rounding interval. -/
def shortest (mantissa : Nat) (exponent : Int) : Digits :=
  let r := Rounding.of mantissa exponent
  let grids := (List.range 650).map fun (k : Nat) => 310 - (k : Int)
  match grids.findSome? fun e => (r.onGrid? e).map fun n => Digits.mk n e with
  | some d => d
  | none => ⟨0, 0⟩

def Digits.text (d : Digits) : String :=
  if 0 ≤ d.exponent then
    if d.digits = 0 then "0" else toString d.digits ++ String.ofList (List.replicate d.exponent.natAbs '0')
  else
    let places := d.exponent.natAbs
    let digits := (toString d.digits).toList
    let padded := List.replicate (places + 1 - digits.length) '0' ++ digits
    let whole := padded.take (padded.length - places)
    let fraction := padded.drop (padded.length - places)
    let kept := (fraction.reverse.dropWhile (· == '0')).reverse
    if kept.isEmpty then String.ofList whole else String.ofList (whole ++ '.' :: kept)

def textOfBits (bits : UInt64) : String :=
  let n := bits.toNat
  let sign := if n / Nat.pow 2 63 = 1 then "-" else ""
  let biased := n / Nat.pow 2 52 % Nat.pow 2 11
  let fraction := n % Nat.pow 2 52
  if biased = 2047 then
    if fraction = 0 then sign ++ "inf" else "NaN"
  else if biased = 0 then
    if fraction = 0 then sign ++ "0" else sign ++ (shortest fraction (-1074)).text
  else sign ++ (shortest (Nat.pow 2 52 + fraction) (Int.ofNat biased - 1075)).text

/-! ### Reading -/

def ofDigits (digits : List Char) : Nat :=
  digits.foldl (fun n c => 10 * n + (c.toNat - 48)) 0

def spanDigits (cs : List Char) : List Char × List Char :=
  (cs.takeWhile Char.isDigit, cs.dropWhile Char.isDigit)

/-- Takes a sign off a text; the answer tells whether it was a minus. -/
def takeSign : List Char → Bool × List Char
  | '-' :: rest => (true, rest)
  | '+' :: rest => (false, rest)
  | cs => (false, cs)

/-- The exponent part of a number, which may be missing. -/
def readExponent? : List Char → Option Int
  | [] => some 0
  | c :: rest =>
    if c = 'e' ∨ c = 'E' then
      let (negative, rest) := takeSign rest
      let (digits, rest) := spanDigits rest
      if digits.isEmpty || !rest.isEmpty then none
      else some (if negative then -(ofDigits digits : Int) else ofDigits digits)
    else none

def roundDiv (num den : Nat) : Nat :=
  let quotient := num / den
  let rest := num % den
  if 2 * rest < den then quotient
  else if den < 2 * rest then quotient + 1
  else quotient + quotient % 2

def leastExponent : Int := -1074

/-- The exponent with which a ratio has a mantissa of 53 digits, or the least exponent if it is too
small for that. -/
def Ratio.exponent (x : Ratio) : Int :=
  let guess : Int := x.num.log2 - x.den.log2 - 52
  let exponent := if x.lt (Ratio.scaled (Nat.pow 2 52) 2 guess) then guess - 1 else guess
  max exponent leastExponent

/-- The bits of the floating-point number nearest to a ratio. A mantissa that rounding makes longer
carries into the exponent. -/
def Ratio.bits (x : Ratio) : UInt64 :=
  let exponent := x.exponent
  let unit := Ratio.scaled 1 2 exponent
  let mantissa := roundDiv (x.num * unit.den) (x.den * unit.num)
  let infinity := 2047 * Nat.pow 2 52
  UInt64.ofNat (min ((exponent - leastExponent).natAbs * Nat.pow 2 52 + mantissa) infinity)

def infinity : Float := Float.ofBits 0x7FF0000000000000

/-- The floating-point number nearest to `digits * 10 ^ exponent`. Beyond the range of
floating-point numbers the exponent no longer matters. -/
def nearest (digits : Nat) (exponent : Int) : Float :=
  let size : Int := (toString digits).length
  if digits = 0 ∨ size + exponent < -400 then 0.0
  else if 400 < size + exponent then infinity
  else Float.ofBits (Ratio.scaled digits 10 exponent).bits

def readWord? (cs : List Char) : Option Float :=
  let lower := String.ofList (cs.map Char.toLower)
  if lower = "inf" ∨ lower = "infinity" then some infinity
  else if lower = "nan" then some (0.0 / 0.0)
  else none

/-- A number without its sign: digits with an optional point and an optional exponent, or one of
the words. -/
def readMagnitude? (cs : List Char) : Option Float :=
  let (whole, rest) := spanDigits cs
  let (fraction, rest) := match rest with
    | '.' :: rest => spanDigits rest
    | rest => ([], rest)
  if whole.isEmpty && fraction.isEmpty then readWord? cs
  else (readExponent? rest).map fun e => nearest (ofDigits (whole ++ fraction)) (e - fraction.length)

def read? (s : String) : Option Float :=
  let (negative, cs) := takeSign s.toList
  (readMagnitude? cs).map fun x => if negative then -x else x

end RtuStation.Decimal
