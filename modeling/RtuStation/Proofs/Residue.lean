import Mathlib.Data.List.Basic
import Mathlib.Data.Nat.Bitwise
import RtuStation.Crc
import RtuStation.Proofs.Payloads

/-!
# Residues

The register of the check sequence is linear: where two frames differ, the register of one differs
from that of the other by what the turned bits alone would bring about (`feed_xor`), and a register
that is not empty never becomes so by shifting. Octets go into it bit by bit, the lowest place first
(`run_eq_feed`), and sixteen bits fill it without any of them being lost (`feed_of_short`). A frame is
intact if and only if it leaves the register empty (`intact_iff`).
-/

namespace RtuStation

/-! ### Bits of octets -/

namespace Octets

theorem bitsValue_lt (bits : List Bool) : bitsValue bits < 2 ^ bits.length := by
  induction bits with
  | nil => decide
  | cons b bits ih =>
    have hb := b.toNat_le
    rw [bitsValue, List.length_cons, Nat.pow_succ]
    omega

theorem bitsValue_append (bits more : List Bool) :
    bitsValue (bits ++ more) = bitsValue bits + 2 ^ bits.length * bitsValue more := by
  induction bits with
  | nil => simp [bitsValue]
  | cons b bits ih =>
    rw [List.cons_append, bitsValue, bitsValue, ih, List.length_cons, Nat.pow_succ,
      Nat.mul_right_comm]
    omega

def octetBits (b : UInt8) : List Bool := (List.range 8).map b.toNat.testBit

theorem bitsValue_octetBits (b : UInt8) : bitsValue (octetBits b) = b.toNat := by
  apply Nat.eq_of_testBit_eq
  intro i
  rw [testBit_bitsValue]
  by_cases hi : i < 8
  · simp [octetBits, hi]
  · have hlarge : b.toNat < 2 ^ i :=
      Nat.lt_of_lt_of_le b.toNat_lt (Nat.pow_le_pow_right (by omega) (Nat.le_of_not_lt hi))
    simp [octetBits, hi, Nat.testBit_lt_two_pow hlarge]

theorem unpackBits_cons (b : UInt8) (bytes : Octets) :
    unpackBits (8 * (b :: bytes).length) (b :: bytes) =
      octetBits b ++ unpackBits (8 * bytes.length) bytes := by
  have hlength : 8 * (b :: bytes).length = 8 + 8 * bytes.length := by
    rw [List.length_cons]
    omega
  unfold unpackBits octetBits
  rw [hlength, List.range_add, List.map_append, List.map_map]
  refine congrArg₂ (· ++ ·) ?_ ?_
  · refine List.map_congr_left fun i hi => ?_
    have hlt : i < 8 := List.mem_range.mp hi
    simp [bitAt, Nat.div_eq_of_lt hlt, Nat.mod_eq_of_lt hlt]
  · refine List.map_congr_left fun i _ => ?_
    have hdiv : (8 + i) / 8 = i / 8 + 1 := by omega
    simp [bitAt, hdiv]

end Octets

namespace Crc

open Octets (octetBits bitsValue_octetBits)

/-! ### Shifting -/

theorem toNat_shift (r : UInt16) :
    (shift r).toNat = r.toNat / 2 ^^^ if r.toNat % 2 = 1 then 0xA001 else 0 := by
  have hlow : r &&& 1 = 1 ↔ r.toNat % 2 = 1 := by
    rw [← UInt16.toNat_inj, UInt16.toNat_and]
    exact iff_of_eq (congrArg (· = 1) (Nat.and_one_is_mod r.toNat))
  have hhalf : (r >>> 1).toNat = r.toNat / 2 := UInt16.toNat_shiftRight r 1
  unfold shift
  by_cases h : r &&& 1 = 1
  · rw [if_pos h, if_pos (hlow.mp h), UInt16.toNat_xor, hhalf]
    rfl
  · rw [if_neg h, if_neg fun hodd => h (hlow.mpr hodd), hhalf, Nat.xor_zero]

theorem shift_xor (a b : UInt16) : shift (a ^^^ b) = shift a ^^^ shift b := by
  apply UInt16.toNat_inj.mp
  have hodd : (a.toNat ^^^ b.toNat) % 2 = 1 ↔ ¬(a.toNat % 2 = 1 ↔ b.toNat % 2 = 1) :=
    Nat.xor_mod_two_eq_one
  rw [UInt16.toNat_xor, toNat_shift, toNat_shift, toNat_shift, UInt16.toNat_xor, Nat.xor_div_two]
  -- the polynomial is added once, twice or not at all
  by_cases ha : a.toNat % 2 = 1 <;> by_cases hb : b.toNat % 2 = 1
  · rw [if_neg (by omega), if_pos ha, if_pos hb, Nat.xor_zero, Nat.xor_assoc,
      Nat.xor_left_comm 0xA001, Nat.xor_self, Nat.xor_zero]
  · rw [if_pos (by omega), if_pos ha, if_neg hb, Nat.xor_zero, Nat.xor_right_comm]
  · rw [if_pos (by omega), if_neg ha, if_pos hb, Nat.xor_zero, Nat.xor_assoc]
  · rw [if_neg (by omega), if_neg ha, if_neg hb, Nat.xor_zero, Nat.xor_zero, Nat.xor_zero]

theorem shift_eq_zero_iff {r : UInt16} : shift r = 0 ↔ r = 0 := by
  refine ⟨fun h => ?_, fun h => by rw [h]; rfl⟩
  have hbound := r.toNat_lt
  have hzero : (shift r).toNat = 0 := congrArg UInt16.toNat h
  rw [toNat_shift, Nat.xor_eq_zero_iff] at hzero
  apply UInt16.toNat_inj.mp
  -- the polynomial has a bit in the highest place, which shifting has cleared
  show r.toNat = 0
  split at hzero <;> omega

theorem shifts_eq_zero_iff {n : Nat} {r : UInt16} : shifts n r = 0 ↔ r = 0 := by
  induction n generalizing r with
  | zero => exact Iff.rfl
  | succ n ih => rw [shifts, ih, shift_eq_zero_iff]

theorem shift_ofNat_double {n : Nat} (h : 2 * n < UInt16.size) :
    shift (UInt16.ofNat (2 * n)) = UInt16.ofNat n := by
  apply UInt16.toNat_inj.mp
  rw [toNat_shift, UInt16.toNat_ofNat_of_lt' h, UInt16.toNat_ofNat_of_lt' (by omega),
    if_neg (by omega), Nat.xor_zero]
  omega

/-! ### Feeding bits -/

/-- What becomes of a register when bits go into it, the first one first. -/
def feed (r : UInt16) : List Bool → UInt16
  | [] => r
  | b :: later => feed (shift (r ^^^ b.toUInt16)) later

theorem feed_append (r : UInt16) (bits more : List Bool) :
    feed r (bits ++ more) = feed (feed r bits) more := by
  induction bits generalizing r with
  | nil => rfl
  | cons b bits ih => exact ih _

theorem toUInt16_xor (a b : Bool) : (a ^^ b).toUInt16 = a.toUInt16 ^^^ b.toUInt16 := by
  cases a <;> cases b <;> rfl

theorem feed_xor {α : Type} (places : List α) (p q : α → Bool) (r s : UInt16) :
    feed (r ^^^ s) (places.map fun i => p i ^^ q i) =
      feed r (places.map p) ^^^ feed s (places.map q) := by
  induction places generalizing r s with
  | nil => rfl
  | cons i places ih =>
    have hfirst : r ^^^ s ^^^ (p i ^^ q i).toUInt16 =
        (r ^^^ (p i).toUInt16) ^^^ (s ^^^ (q i).toUInt16) := by
      rw [toUInt16_xor]
      ac_rfl
    simp only [List.map_cons, feed]
    rw [hfirst, shift_xor, ih]

theorem feed_of_clear {r : UInt16} {bits : List Bool} (h : ∀ b ∈ bits, b = false) :
    feed r bits = shifts bits.length r := by
  induction bits generalizing r with
  | nil => rfl
  | cons b bits ih =>
    obtain ⟨rfl, hclear⟩ := List.forall_mem_cons.mp h
    rw [feed, ih hclear]
    exact congrArg (fun r => shifts bits.length (shift r)) (UInt16.xor_zero (a := r))

/-- As many bits as the register has places can be put into it at once. -/
theorem feed_of_short {r : UInt16} {bits : List Bool} (h : bits.length ≤ 16) :
    feed r bits = shifts bits.length (r ^^^ UInt16.ofNat (Octets.bitsValue bits)) := by
  induction bits generalizing r with
  | nil => exact (UInt16.xor_zero (a := r)).symm
  | cons b bits ih =>
    have hlt : 2 * Octets.bitsValue bits < UInt16.size := by
      have hvalue := Octets.bitsValue_lt (b :: bits)
      have hpow : 2 ^ (b :: bits).length ≤ 2 ^ 16 := Nat.pow_le_pow_right (by omega) h
      rw [Octets.bitsValue] at hvalue
      show _ < 2 ^ 16
      omega
    have hvalue : UInt16.ofNat (Octets.bitsValue (b :: bits)) =
        b.toUInt16 ^^^ UInt16.ofNat (2 * Octets.bitsValue bits) := by
      cases b with
      | false =>
        rw [Octets.bitsValue, Bool.toNat_false, Nat.zero_add]
        exact UInt16.zero_xor.symm
      | true =>
        have heven : Even (2 * Octets.bitsValue bits) := even_two_mul _
        rw [Octets.bitsValue, Bool.toNat_true, Nat.add_comm, ← Nat.xor_one_of_even heven,
          UInt16.ofNat_xor, UInt16.xor_comm]
        rfl
    rw [feed, ih (Nat.le_of_succ_le h), hvalue, List.length_cons, shifts, ← UInt16.xor_assoc,
      shift_xor (r ^^^ b.toUInt16), shift_ofNat_double hlt]

/-! ### Feeding octets -/

theorem absorb_eq_feed (r : UInt16) (b : UInt8) : absorb r b = feed r (octetBits b) := by
  have hlength : (octetBits b).length = 8 := by simp [octetBits]
  rw [feed_of_short (by omega), hlength, bitsValue_octetBits, UInt16.ofNat_uInt8ToNat]
  rfl

theorem run_eq_feed (r : UInt16) (bytes : Octets) :
    run r bytes = feed r (Octets.unpackBits (8 * bytes.length) bytes) := by
  induction bytes generalizing r with
  | nil => rfl
  | cons b bytes ih =>
    rw [Octets.unpackBits_cons, feed_append, ← absorb_eq_feed]
    exact ih _

/-! ### Intact frames -/

theorem run_trailer (r : UInt16) (low high : UInt8) :
    run r [low, high] = shifts 16 (r ^^^ word high low) := by
  have hbits : Octets.unpackBits (8 * [low, high].length) [low, high] =
      octetBits low ++ octetBits high := by
    rw [Octets.unpackBits_cons, Octets.unpackBits_cons]
    exact congrArg _ (List.append_nil _)
  have hlength (b : UInt8) : (octetBits b).length = 8 := by simp [octetBits]
  have htotal : (octetBits low ++ octetBits high).length = 16 := by
    rw [List.length_append, hlength, hlength]
  have hvalue : Octets.bitsValue (octetBits low ++ octetBits high) =
      256 * high.toNat + low.toNat := by
    rw [Octets.bitsValue_append, bitsValue_octetBits, bitsValue_octetBits, hlength]
    omega
  rw [run_eq_feed, hbits, feed_of_short (Nat.le_of_eq htotal), htotal, hvalue]
  rfl

theorem exists_tail {frame : Octets} (h : 2 ≤ frame.length) :
    ∃ low high, frame = body frame ++ [low, high] := by
  obtain ⟨low, high, htail⟩ : ∃ low high, frame.drop (frame.length - 2) = [low, high] :=
    List.length_eq_two.mp (by rw [List.length_drop]; omega)
  refine ⟨low, high, ?_⟩
  rw [← htail]
  exact (List.take_append_drop ..).symm

theorem intact_append_iff (b : Octets) (low high : UInt8) :
    intact (b ++ [low, high]) = true ↔ crc16 b = word high low := by
  simp [intact, body]

/-- A frame is intact if and only if its own check sequence is zero. -/
theorem intact_iff {frame : Octets} :
    intact frame = true ↔ 2 ≤ frame.length ∧ crc16 frame = 0 := by
  by_cases hlength : 2 ≤ frame.length
  · obtain ⟨low, high, hsplit⟩ := exists_tail hlength
    have hresidue : crc16 frame = shifts 16 (crc16 (body frame) ^^^ word high low) := by
      rw [← run_trailer]
      conv_lhs => rw [hsplit]
      exact run_append ..
    have hintact : intact frame = true ↔ crc16 (body frame) = word high low := by
      conv_lhs => rw [hsplit]
      exact intact_append_iff ..
    rw [hintact, hresidue, shifts_eq_zero_iff, UInt16.xor_eq_zero_iff]
    simp [hlength]
  · have hshort : intact frame = false := by
      have htail : frame.drop (frame.length - 2) = frame := by
        rw [show frame.length - 2 = 0 by omega, List.drop_zero]
      unfold intact
      rw [htail]
      rcases frame with _ | ⟨_, _ | ⟨_, later⟩⟩
      · rfl
      · rfl
      · exact absurd (by simp) hlength
    simp [hshort, hlength]

end Crc
end RtuStation
