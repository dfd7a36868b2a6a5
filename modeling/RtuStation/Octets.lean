/-!
# Octets

Byte strings as they travel on the line: words are sent high octet first, bits are packed eight to
an octet with the first bit in the lowest place, and a dump (`rtu.frame.hex`) writes each octet in
brackets.
-/

namespace RtuStation

/-- A string of bytes in the order of transmission. -/
abbrev Octets := List UInt8

/-! ### Words -/

/-- The word sent as `high` followed by `low`. -/
def word (high low : UInt8) : UInt16 := UInt16.ofNat (256 * high.toNat + low.toNat)

def highOctet (w : UInt16) : UInt8 := UInt8.ofNat (w.toNat / 256)

def lowOctet (w : UInt16) : UInt8 := UInt8.ofNat w.toNat

theorem toNat_word (high low : UInt8) : (word high low).toNat = 256 * high.toNat + low.toNat := by
  have := high.toNat_lt
  have := low.toNat_lt
  simp only [word, UInt16.toNat_ofNat']
  omega

theorem highOctet_word (high low : UInt8) : highOctet (word high low) = high := by
  have := low.toNat_lt
  have h : (256 * high.toNat + low.toNat) / 256 = high.toNat := by omega
  simp [highOctet, toNat_word, h]

theorem lowOctet_word (high low : UInt8) : lowOctet (word high low) = low := by
  apply UInt8.toNat_inj.mp
  have := low.toNat_lt
  simp only [lowOctet, toNat_word, UInt8.toNat_ofNat']
  omega

theorem word_octets (w : UInt16) : word (highOctet w) (lowOctet w) = w := by
  apply UInt16.toNat_inj.mp
  have := w.toNat_lt
  simp only [toNat_word, highOctet, lowOctet, UInt8.toNat_ofNat']
  omega

namespace Octets

def ofWord (w : UInt16) : Octets := [highOctet w, lowOctet w]

/-- The words of a payload; an odd last octet stands for none. -/
def words : Octets → List UInt16
  | high :: low :: rest => word high low :: words rest
  | _ => []

def ofWords (ws : List UInt16) : Octets := ws.flatMap ofWord

theorem length_ofWords (ws : List UInt16) : (ofWords ws).length = 2 * ws.length := by
  induction ws with
  | nil => rfl
  | cons w ws ih =>
    have : (ofWords (w :: ws)).length = 2 + (ofWords ws).length := by
      simp [ofWords, ofWord]; omega
    simp [this, ih]; omega

theorem words_ofWords (ws : List UInt16) : words (ofWords ws) = ws := by
  induction ws with
  | nil => rfl
  | cons w ws ih =>
    have : ofWords (w :: ws) = highOctet w :: lowOctet w :: ofWords ws := by
      simp [ofWords, ofWord]
    rw [this, words, word_octets, ih]

/-! ### Bits -/

def ofBitCount (count : Nat) : Nat := (count + 7) / 8

/-- The number whose binary digits, lowest first, are the given bits. -/
def bitsValue : List Bool → Nat
  | [] => 0
  | b :: rest => b.toNat + 2 * bitsValue rest

/-- Bits packed eight to an octet, lowest place first; places past the last bit are zero. -/
def packBits (bits : List Bool) : Octets :=
  (List.range (ofBitCount bits.length)).map fun k =>
    UInt8.ofNat (bitsValue ((bits.drop (8 * k)).take 8))

/-- Bit `i` of a payload: place `i % 8` of octet `i / 8`. -/
def bitAt (payload : Octets) (i : Nat) : Bool := (payload.getD (i / 8) 0).toNat.testBit (i % 8)

def unpackBits (count : Nat) (payload : Octets) : List Bool :=
  (List.range count).map (bitAt payload)

theorem length_packBits (bits : List Bool) :
    (packBits bits).length = ofBitCount bits.length := by
  simp [packBits]

theorem length_unpackBits (count : Nat) (payload : Octets) :
    (unpackBits count payload).length = count := by
  simp [unpackBits]

/-! ### Dumps -/

def hexDigit (n : Nat) : Char :=
  if n < 10 then Char.ofNat (48 + n) else Char.ofNat (55 + n)

def bracketed (b : UInt8) : String :=
  String.ofList ['[', hexDigit (b.toNat / 16), hexDigit (b.toNat % 16), ']']

/-- A dump of a frame, as in `[01][AB]`. -/
def dump (bytes : Octets) : String := String.join (bytes.map bracketed)

end Octets
end RtuStation
