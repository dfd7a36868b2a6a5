import RtuStation.Proofs.Noise

/-!
# Check sequences

A frame carries its check, its own check sequence is zero, and it is its body with the check put
behind: these are one thing. Each body has one trailer with which it is intact. Strings of the same
length have the same check if and only if the octets in which they differ leave an empty register
empty.
-/

namespace RtuStation

namespace Octets

/-- The octets that turn one string into another of the same length. -/
def mask (a b : Octets) : Octets := List.zipWith (· ^^^ ·) a b

theorem getD_mask {a b : Octets} (h : a.length = b.length) (k : Nat) :
    (mask a b).getD k 0 = a.getD k 0 ^^^ b.getD k 0 := by
  induction a generalizing b k with
  | nil =>
    obtain rfl := List.length_eq_zero_iff.mp h.symm
    simp [mask]
  | cons x a ih =>
    obtain ⟨y, b, rfl⟩ := List.exists_cons_of_length_eq_add_one h.symm
    cases k with
    | zero => rfl
    | succ k => exact ih (Nat.succ.inj h) k

theorem unpackBits_mask {a b : Octets} (h : a.length = b.length) :
    unpackBits (8 * (mask a b).length) (mask a b) = turned a b := by
  have hlength : (mask a b).length = a.length := by simp [mask, h]
  unfold unpackBits turned
  rw [hlength]
  apply List.map_congr_left
  intro i _
  rw [bitAt, getD_mask h, UInt8.toNat_xor, Nat.testBit_xor]
  rfl

end Octets

namespace Crc

theorem crc16_eq_iff {a b : Octets} (h : a.length = b.length) :
    crc16 a = crc16 b ↔ run 0 (Octets.mask a b) = 0 := by
  rw [run_eq_feed, Octets.unpackBits_mask h, ← crc16_xor h.symm, UInt16.xor_eq_zero_iff]

theorem intact_iff_eq_checked {frame : Octets} (h : 2 ≤ frame.length) :
    intact frame = true ↔ frame = checked (body frame) := by
  constructor
  · intro hintact
    obtain ⟨low, high, hsplit⟩ := exists_tail h
    rw [hsplit, intact_append_iff] at hintact
    conv_lhs => rw [hsplit]
    rw [checked, trailer, hintact, lowOctet_word, highOctet_word]
  · intro heq
    rw [heq]
    exact intact_checked _

theorem existsUnique_trailer (b : Octets) :
    ∃! tail : UInt8 × UInt8, intact (b ++ [tail.1, tail.2]) = true := by
  refine ⟨(lowOctet (crc16 b), highOctet (crc16 b)), intact_checked b, ?_⟩
  intro tail htail
  have hcheck := (intact_append_iff b tail.1 tail.2).mp htail
  rw [hcheck, lowOctet_word, highOctet_word]

/-- A frame of two octets or more is intact if and only if its check sequence is zero, and if and
only if it is what its body becomes when it is checked. Of the trailers that can stand behind a body
one makes it intact. Strings of the same length have the same check if and only if the mask between
them leaves an empty register empty. -/
theorem checks_are_residues :
    (∀ frame : Octets, 2 ≤ frame.length →
      (intact frame = true ↔ crc16 frame = 0) ∧
        (intact frame = true ↔ frame = checked (body frame))) ∧
    (∀ b : Octets, ∃! tail : UInt8 × UInt8, intact (b ++ [tail.1, tail.2]) = true) ∧
    ∀ a b : Octets, a.length = b.length → (crc16 a = crc16 b ↔ run 0 (Octets.mask a b) = 0) := by
  refine ⟨?_, existsUnique_trailer, fun a b => crc16_eq_iff⟩
  intro frame h
  refine ⟨?_, intact_iff_eq_checked h⟩
  rw [intact_iff]
  exact and_iff_right h

/-- A request for ten registers has another check than one for eleven. -/
theorem ten_registers_checked :
    crc16 [0x01, 0x03, 0x00, 0x00, 0x00, 0x0A, 0xC5, 0xCD] = 0 ∧
      checked (body [0x01, 0x03, 0x00, 0x00, 0x00, 0x0A, 0xC5, 0xCD]) =
        [0x01, 0x03, 0x00, 0x00, 0x00, 0x0A, 0xC5, 0xCD] ∧
      crc16 [0x01, 0x03, 0x00, 0x00, 0x00, 0x0A] ≠ crc16 [0x01, 0x03, 0x00, 0x00, 0x00, 0x0B] := by
  have hintact : intact [0x01, 0x03, 0x00, 0x00, 0x00, 0x0A, 0xC5, 0xCD] = true := by
    decide +kernel
  have hmask : run 0 (Octets.mask [0x01, 0x03, 0x00, 0x00, 0x00, 0x0A]
      [0x01, 0x03, 0x00, 0x00, 0x00, 0x0B]) ≠ 0 := by
    decide +kernel
  obtain ⟨hframes, -, hstrings⟩ := checks_are_residues
  obtain ⟨hzero, hchecked⟩ :=
    hframes [0x01, 0x03, 0x00, 0x00, 0x00, 0x0A, 0xC5, 0xCD] (by decide)
  have hsame := hstrings [0x01, 0x03, 0x00, 0x00, 0x00, 0x0A] [0x01, 0x03, 0x00, 0x00, 0x00, 0x0B]
    rfl
  exact ⟨hzero.mp hintact, (hchecked.mp hintact).symm, fun heq => hmask (hsame.mp heq)⟩

end Crc
end RtuStation
