import Mathlib.Algebra.Group.Nat.Even
import RtuStation.Proofs.Extents
import RtuStation.Proofs.Residue

/-!
# Noise on the line

What noise does to the check of a frame depends only on the bits that it turns: a frame that was
intact is so again only if the turned bits alone, fed to an empty register, leave it empty. An odd
number of them does not, since shifting keeps the parity of the register; a burst within sixteen
places does not, since it fits into the register as a whole; and two of them do not unless they are
as far apart as the register takes to come round to where it was, which is farther than the longest
frame reaches.

Bits are counted in the order in which they are sent: octet by octet, the lowest place first.
-/

namespace RtuStation

namespace Octets

theorem eq_of_unpackBits_eq {a b : Octets} (hlength : a.length = b.length)
    (h : unpackBits (8 * a.length) a = unpackBits (8 * b.length) b) : a = b := by
  induction a generalizing b with
  | nil => exact (List.length_eq_zero_iff.mp hlength.symm).symm
  | cons x a ih =>
    obtain ⟨y, b, rfl⟩ := List.exists_cons_of_length_eq_add_one hlength.symm
    rw [unpackBits_cons, unpackBits_cons] at h
    obtain ⟨hfirst, hlater⟩ := List.append_inj h (by simp [octetBits])
    have hvalue : x.toNat = y.toNat := by
      rw [← bitsValue_octetBits x, ← bitsValue_octetBits y, hfirst]
    rw [UInt8.toNat_inj.mp hvalue, ih (Nat.succ.inj hlength) hlater]

/-- Which bits of a string of octets have to be turned to get another one of the same length. -/
def turned (a b : Octets) : List Bool :=
  (List.range (8 * a.length)).map fun i => bitAt a i ^^ bitAt b i

/-- The places of the bits in which two strings of octets of the same length differ. -/
def differing (a b : Octets) : List Nat :=
  (List.range (8 * a.length)).filter fun i => bitAt a i != bitAt b i

theorem length_turned (a b : Octets) : (turned a b).length = 8 * a.length := by
  simp [turned]

theorem count_turned (a b : Octets) : (turned a b).count true = (differing a b).length := by
  unfold turned differing
  rw [List.count_eq_countP, List.countP_map, List.countP_eq_length_filter]
  refine congrArg List.length (List.filter_congr fun i _ => ?_)
  show ((bitAt a i ^^ bitAt b i) == true) = (bitAt a i != bitAt b i)
  cases bitAt a i <;> cases bitAt b i <;> rfl

theorem mem_differing_of_turned {a b : Octets} {i : Nat} (h : (turned a b)[i]? = some true) :
    i ∈ differing a b := by
  obtain ⟨hi, hbit⟩ := List.getElem?_eq_some_iff.mp h
  simp only [turned, List.getElem_map, List.getElem_range] at hbit
  rw [length_turned] at hi
  refine List.mem_filter.mpr ⟨List.mem_range.mpr hi, ?_⟩
  simpa using hbit

theorem mem_turned_of_ne {a b : Octets} (hlength : b.length = a.length) (hne : b ≠ a) :
    true ∈ turned a b := by
  by_contra hnone
  refine hne (eq_of_unpackBits_eq hlength ?_)
  unfold unpackBits
  rw [hlength]
  refine List.map_congr_left fun i hi => ?_
  have hsame : (bitAt a i ^^ bitAt b i) ≠ true := fun hbit =>
    hnone (List.mem_map.mpr ⟨i, hi, hbit⟩)
  have heq : bitAt a i = bitAt b i := by simpa using hsame
  exact heq.symm

end Octets

namespace Crc

/-! ### Parity -/

/-- Whether a number has an odd count of ones. -/
def parity (n : Nat) : Bool := if n = 0 then false else n.testBit 0 ^^ parity (n / 2)
decreasing_by omega

theorem parity_zero : parity 0 = false := by
  rw [parity, if_pos rfl]

theorem parity_eq (n : Nat) : parity n = (n.testBit 0 ^^ parity (n / 2)) := by
  by_cases hn : n = 0
  · subst hn
    rw [Nat.zero_div, parity_zero]
    rfl
  · rw [parity, if_neg hn]

theorem parity_xor (a b : Nat) : parity (a ^^^ b) = (parity a ^^ parity b) := by
  induction a using Nat.strongRecOn generalizing b with
  | ind a ih =>
    by_cases ha : a = 0
    · rw [ha, Nat.zero_xor, parity_zero, Bool.false_xor]
    · rw [parity_eq (a ^^^ b), Nat.xor_div_two, ih (a / 2) (by omega), Nat.testBit_xor, parity_eq a,
        parity_eq b]
      simp only [Bool.xor_assoc, Bool.xor_left_comm]

/-- The polynomial has three ones, and takes the place of the one that is shifted out. -/
theorem parity_shift (r : UInt16) : parity (shift r).toNat = parity r.toNat := by
  have hpolynomial : parity 0xA001 = true := by decide +kernel
  rw [toNat_shift, parity_xor, parity_eq r.toNat, Nat.testBit_zero]
  by_cases hodd : r.toNat % 2 = 1
  · rw [if_pos hodd, hpolynomial, decide_eq_true hodd, Bool.xor_comm]
  · rw [if_neg hodd, parity_zero, decide_eq_false hodd, Bool.xor_comm]

theorem parity_feed (r : UInt16) (bits : List Bool) :
    parity (feed r bits).toNat = (parity r.toNat ^^ decide (bits.count true % 2 = 1)) := by
  induction bits generalizing r with
  | nil => exact (Bool.xor_false _).symm
  | cons b bits ih =>
    rw [feed, ih, parity_shift, UInt16.toNat_xor, parity_xor, Bool.xor_assoc]
    refine congrArg (parity r.toNat ^^ ·) ?_
    cases b with
    | false =>
      show (parity 0 ^^ _) = _
      rw [parity_zero, Bool.false_xor, List.count_cons_of_ne Bool.false_ne_true]
    | true =>
      have hone : parity 1 = true := by decide +kernel
      show (parity 1 ^^ _) = _
      rw [hone, List.count_cons_self, Bool.true_xor, ← decide_not]
      exact decide_eq_decide.mpr (by omega)

theorem feed_ne_zero_of_odd {bits : List Bool} (h : Odd (bits.count true)) : feed 0 bits ≠ 0 := by
  intro hzero
  have hparity := parity_feed 0 bits
  rw [hzero, decide_eq_true (Nat.odd_iff.mp h), UInt16.toNat_zero, parity_zero] at hparity
  cases hparity

/-! ### Bursts -/

theorem feed_ne_zero_of_short {bits : List Bool} (hshort : bits.length ≤ 16) (h : true ∈ bits) :
    feed 0 bits ≠ 0 := by
  obtain ⟨i, hi, hbit⟩ := List.mem_iff_getElem.mp h
  have hlt : Octets.bitsValue bits < UInt16.size :=
    Nat.lt_of_lt_of_le (Octets.bitsValue_lt bits) (Nat.pow_le_pow_right (by omega) hshort)
  rw [feed_of_short hshort, UInt16.zero_xor, Ne, shifts_eq_zero_iff]
  intro hzero
  have hvalue : Octets.bitsValue bits = 0 := by
    rw [← UInt16.toNat_ofNat_of_lt' hlt, hzero]
    rfl
  have htest := Octets.testBit_bitsValue bits i
  rw [hvalue, Nat.zero_testBit] at htest
  simp [hi, hbit] at htest

/-- Clear bits before a burst leave an empty register empty, and those behind it only shift it. -/
theorem feed_ne_zero_of_burst {bits : List Bool} {start : Nat} (hsome : true ∈ bits)
    (hnear : ∀ i, bits[i]? = some true → start ≤ i ∧ i < start + 16) : feed 0 bits ≠ 0 := by
  have hsplit : bits =
      bits.take start ++ ((bits.drop start).take 16 ++ (bits.drop start).drop 16) := by
    rw [List.take_append_drop, List.take_append_drop]
  have hbefore : ∀ b ∈ bits.take start, b = false := by
    intro b hb
    obtain ⟨i, hi, rfl⟩ := List.mem_iff_getElem.mp hb
    rw [List.length_take] at hi
    rw [List.getElem_take]
    refine Bool.eq_false_iff.mpr fun hbit => ?_
    have := hnear i (List.getElem?_eq_some_iff.mpr ⟨by omega, hbit⟩)
    omega
  have hbehind : ∀ b ∈ (bits.drop start).drop 16, b = false := by
    intro b hb
    rw [List.drop_drop] at hb
    obtain ⟨i, hi, rfl⟩ := List.mem_iff_getElem.mp hb
    rw [List.length_drop] at hi
    rw [List.getElem_drop]
    refine Bool.eq_false_iff.mpr fun hbit => ?_
    have := hnear (start + 16 + i) (List.getElem?_eq_some_iff.mpr ⟨by omega, hbit⟩)
    omega
  have hmiddle : true ∈ (bits.drop start).take 16 := by
    rw [hsplit] at hsome
    rcases List.mem_append.mp hsome with hmem | hmem
    · cases hbefore true hmem
    · rcases List.mem_append.mp hmem with hmem | hmem
      · exact hmem
      · cases hbehind true hmem
  have hshort : ((bits.drop start).take 16).length ≤ 16 := by
    rw [List.length_take]
    omega
  rw [hsplit, feed_append, feed_append, feed_of_clear hbefore, feed_of_clear hbehind, Ne,
    shifts_eq_zero_iff, shifts_eq_zero_iff.mpr rfl]
  exact feed_ne_zero_of_short hshort hmiddle

/-! ### Two bits -/

/-- Whether a register that is shifted on is 1 at none of the next `n` times. -/
def keepsFromOne : Nat → UInt16 → Bool
  | 0, _ => true
  | n + 1, r => shift r != 1 && keepsFromOne n (shift r)

theorem shifts_ne_one {n k : Nat} {r : UInt16} (h : keepsFromOne n r = true) (hk : k < n) :
    shifts (k + 1) r ≠ 1 := by
  induction n generalizing k r with
  | zero => omega
  | succ n ih =>
    rw [keepsFromOne, Bool.and_eq_true, bne_iff_ne] at h
    cases k with
    | zero => exact h.1
    | succ k =>
      show shifts (k + 1) (shift r) ≠ 1
      exact ih h.2 (Nat.lt_of_succ_lt_succ hk)

set_option maxRecDepth 8000 in
theorem keepsFromOne_frame : keepsFromOne (8 * maxFrame - 1) 1 = true := by
  decide +kernel

theorem exists_clear_append {bits : List Bool} {n : Nat} (h : bits.count true = n + 1) :
    ∃ before later, bits = before ++ true :: later ∧ (∀ b ∈ before, b = false) ∧
      later.count true = n := by
  induction bits with
  | nil => cases h
  | cons b bits ih =>
    cases b with
    | true =>
      rw [List.count_cons_self] at h
      exact ⟨[], bits, rfl, nofun, Nat.succ.inj h⟩
    | false =>
      rw [List.count_cons_of_ne Bool.false_ne_true] at h
      obtain ⟨before, later, rfl, hclear, hcount⟩ := ih h
      exact ⟨false :: before, later, rfl, List.forall_mem_cons.mpr ⟨rfl, hclear⟩, hcount⟩

theorem feed_ne_zero_of_two {bits : List Bool} (hlength : bits.length ≤ 8 * maxFrame)
    (h : bits.count true = 2) : feed 0 bits ≠ 0 := by
  obtain ⟨before, later, rfl, hbefore, hone⟩ := exists_clear_append h
  obtain ⟨between, behind, rfl, hbetween, hnone⟩ := exists_clear_append hone
  have hbehind : ∀ b ∈ behind, b = false := by
    intro b hb
    refine Bool.eq_false_iff.mpr fun htrue => ?_
    subst htrue
    exact List.count_eq_zero.mp hnone hb
  simp only [List.length_append, List.length_cons] at hlength
  have hfar : shifts (between.length + 1) 1 ≠ 1 := shifts_ne_one keepsFromOne_frame (by omega)
  rw [feed_append, feed_of_clear hbefore, shifts_eq_zero_iff.mpr rfl, feed, feed_append,
    feed_of_clear hbetween, feed, feed_of_clear hbehind, Ne, shifts_eq_zero_iff, shift_eq_zero_iff,
    UInt16.xor_eq_zero_iff]
  exact hfar

/-! ### Frames that noise has changed -/

theorem crc16_xor {a b : Octets} (hlength : b.length = a.length) :
    crc16 a ^^^ crc16 b = feed 0 (Octets.turned a b) := by
  unfold crc16
  rw [run_eq_feed, run_eq_feed, hlength]
  exact (feed_xor (List.range (8 * a.length)) (Octets.bitAt a) (Octets.bitAt b) 0xFFFF 0xFFFF).symm

theorem not_intact_of_feed {frame noisy : Octets} (hlength : noisy.length = frame.length)
    (hintact : intact frame = true) (h : feed 0 (Octets.turned frame noisy) ≠ 0) :
    intact noisy = false := by
  refine Bool.eq_false_iff.mpr fun hnoisy => h ?_
  rw [← crc16_xor hlength, (intact_iff.mp hintact).2, (intact_iff.mp hnoisy).2]
  rfl

/-- Noise that the check finds: one or two bits of a frame of lawful length, an odd number of bits,
or bits within sixteen places that follow each other. -/
def Detectable (frame noisy : Octets) : Prop :=
  (frame.length ≤ maxFrame ∧
      ((Octets.differing frame noisy).length = 1 ∨ (Octets.differing frame noisy).length = 2)) ∨
    Odd (Octets.differing frame noisy).length ∨
    ∃ start, ∀ i ∈ Octets.differing frame noisy, start ≤ i ∧ i < start + 16

theorem not_intact_of_detectable {frame noisy : Octets} (hlength : noisy.length = frame.length)
    (hintact : intact frame = true) (hne : noisy ≠ frame) (h : Detectable frame noisy) :
    intact noisy = false := by
  apply not_intact_of_feed hlength hintact
  rcases h with ⟨hbound, hone | htwo⟩ | hodd | ⟨start, hnear⟩
  · refine feed_ne_zero_of_odd ?_
    rw [Octets.count_turned, hone]
    exact odd_one
  · refine feed_ne_zero_of_two ?_ ?_
    · rw [Octets.length_turned]
      exact Nat.mul_le_mul_left 8 hbound
    · rw [Octets.count_turned, htwo]
  · refine feed_ne_zero_of_odd ?_
    rwa [Octets.count_turned]
  · exact feed_ne_zero_of_burst (Octets.mem_turned_of_ne hlength hne) fun i hi =>
      hnear i (Octets.mem_differing_of_turned hi)

end Crc

namespace Station

/-- A frame in which noise has turned one or two bits, an odd number of bits, or bits within sixteen
places is found damaged: it gets no reply from a station and changes nothing, neither in banks of
its own nor in the segments of a store. -/
theorem noise_is_never_executed (station : Station) (frame noisy : Octets)
    (hintact : Crc.intact frame = true) (hlength : noisy.length = frame.length)
    (hne : noisy ≠ frame) (hnoise : Crc.Detectable frame noisy) :
    Crc.intact noisy = false ∧
      (∀ banks, station.process noisy banks = (none, banks)) ∧
      ∀ (store : Store) (w : World),
        ((store.execute station.engine noisy).run w).1 = none ∧
          ((store.execute station.engine noisy).run w).2.segments = w.segments := by
  have hdamaged := Crc.not_intact_of_detectable hlength hintact hne hnoise
  have hunheard : ¬station.Hears noisy := by
    rintro ⟨-, hheard, -⟩
    rw [hdamaged] at hheard
    cases hheard
  refine ⟨hdamaged, fun banks => ?_, fun store w => ⟨?_, ?_⟩⟩
  · obtain ⟨hreply, hchange⟩ := @answer_of_not_hears station noisy banks hunheard
    show ((station.answer noisy banks).reply, banks.apply (station.answer noisy banks).change) = _
    rw [hreply, hchange]
    rfl
  · exact (store.execute_run station.engine noisy w).1.trans (answer_of_not_hears hunheard).1
  · exact Store.segments_execute_of_nothing (answer_of_not_hears hunheard).2

/-- The first bit of the address and the last bit of the check are turned in a request to station 7
for its register 1. -/
theorem two_bits_never_executed :
    Crc.intact [0x06, 0x06, 0x00, 0x01, 0x12, 0x34, 0xD5, 0x9B] = false ∧
      ∀ banks, (Station.mk 7 (by decide)).process [0x06, 0x06, 0x00, 0x01, 0x12, 0x34, 0xD5, 0x9B]
        banks = (none, banks) := by
  have hframe : Crc.intact [0x07, 0x06, 0x00, 0x01, 0x12, 0x34, 0xD5, 0x1B] = true := by
    decide +kernel
  have hplaces : Octets.differing [0x07, 0x06, 0x00, 0x01, 0x12, 0x34, 0xD5, 0x1B]
      [0x06, 0x06, 0x00, 0x01, 0x12, 0x34, 0xD5, 0x9B] = [0, 63] := by
    decide +kernel
  obtain ⟨hdamaged, hunanswered, -⟩ := noise_is_never_executed (Station.mk 7 (by decide))
    [0x07, 0x06, 0x00, 0x01, 0x12, 0x34, 0xD5, 0x1B]
    [0x06, 0x06, 0x00, 0x01, 0x12, 0x34, 0xD5, 0x9B] hframe rfl (by decide)
    (Or.inl ⟨by decide, Or.inr (congrArg List.length hplaces)⟩)
  exact ⟨hdamaged, hunanswered⟩

end Station
end RtuStation
