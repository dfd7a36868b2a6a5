import RtuStation.Octets

/-!
# Words and bits of a payload

Where the words and bits of a payload stand: word `k` in the octets `2 * k` and `2 * k + 1`, high
octet first, and bit `i` in place `i % 8` of octet `i / 8`. Packing puts them there and unpacking
finds them there.
-/

namespace RtuStation
namespace Octets

def wordAt (payload : Octets) (k : Nat) : UInt16 :=
  word (payload.getD (2 * k) 0) (payload.getD (2 * k + 1) 0)

theorem wordAt_cons_succ (high low : UInt8) (rest : Octets) (k : Nat) :
    wordAt (high :: low :: rest) (k + 1) = wordAt rest k := by
  have hlow : 2 * (k + 1) = 2 * k + 1 + 1 := by omega
  simp only [wordAt, hlow, List.getD_cons_succ]

theorem getElem?_words {payload : Octets} {k : Nat} (h : 2 * k + 1 < payload.length) :
    (words payload)[k]? = some (wordAt payload k) := by
  induction k generalizing payload with
  | zero =>
    match payload, h with
    | high :: low :: rest, _ => rfl
  | succ k ih =>
    match payload, h with
    | high :: low :: rest, h =>
      have hrest : 2 * k + 1 < rest.length := by
        simp only [List.length_cons] at h
        omega
      rw [words, List.getElem?_cons_succ, ih hrest, wordAt_cons_succ]

theorem length_words {payload : Octets} {n : Nat} (h : payload.length = 2 * n) :
    (words payload).length = n := by
  induction n generalizing payload with
  | zero =>
    obtain rfl := List.eq_nil_of_length_eq_zero h
    rfl
  | succ n ih =>
    match payload, h with
    | high :: low :: rest, h =>
      have hrest : rest.length = 2 * n := by
        simp only [List.length_cons] at h
        omega
      rw [words, List.length_cons, ih hrest]

theorem wordAt_ofWords {ws : List UInt16} {k : Nat} (h : k < ws.length) :
    some (wordAt (ofWords ws) k) = ws[k]? := by
  have hlen := length_ofWords ws
  rw [← getElem?_words (by omega), words_ofWords]

theorem getElem?_unpackBits {count k : Nat} (payload : Octets) (h : k < count) :
    (unpackBits count payload)[k]? = some (bitAt payload k) := by
  simp [unpackBits, h]

theorem testBit_bitsValue (bits : List Bool) (i : Nat) :
    (bitsValue bits).testBit i = bits.getD i false := by
  induction bits generalizing i with
  | nil => simp [bitsValue]
  | cons b rest ih =>
    cases i with
    | zero => cases b <;> simp [bitsValue, Nat.testBit_zero, Nat.add_mod]
    | succ i =>
      have hhalf : (b.toNat + 2 * bitsValue rest) / 2 = bitsValue rest := by
        cases b <;> simp only [Bool.toNat_false, Bool.toNat_true] <;> omega
      rw [bitsValue, Nat.testBit_succ, hhalf, ih, List.getD_cons_succ]

theorem bitAt_packBits (bits : List Bool) (i : Nat) :
    bitAt (packBits bits) i = bits.getD i false := by
  have hsplit : 8 * (i / 8) + i % 8 = i := Nat.div_add_mod i 8
  have hplace : i % 8 < 8 := Nat.mod_lt i (by decide)
  by_cases hi : i / 8 < ofBitCount bits.length
  · have hoctet : (packBits bits).getD (i / 8) 0 =
        UInt8.ofNat (bitsValue ((bits.drop (8 * (i / 8))).take 8)) := by
      simp [packBits, List.getD_eq_getElem?_getD, hi]
    rw [bitAt, hoctet, UInt8.toNat_ofNat', Nat.testBit_mod_two_pow, testBit_bitsValue]
    simp only [hplace, decide_true, Bool.true_and, List.getD_eq_getElem?_getD,
      List.getElem?_take_of_lt hplace, List.getElem?_drop, hsplit]
  · have hoctet : (packBits bits).getD (i / 8) 0 = 0 := by
      simp [packBits, List.getD_eq_getElem?_getD, hi]
    have hpast : bits.length ≤ i := by
      simp only [ofBitCount] at hi
      omega
    rw [bitAt, hoctet]
    simp [List.getD_eq_getElem?_getD, List.getElem?_eq_none hpast]

end Octets
end RtuStation
