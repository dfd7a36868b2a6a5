import RtuStation.Proofs.Noise
import RtuStation.Proofs.Replies
import RtuStation.Proofs.Windows

/-!
# Octets by position

Words and bits are taken from a string of octets by their positions here, and bits are put into it.
Each position is looked at before it is used, as is a number that has to fit in an octet. Where the
string has the length that a payload has to have, nothing slips, and the words and bits are those of
the payload.
-/

namespace RtuStation

/-! ### Checked access to octets -/

namespace Checked

variable {u : World} {bytes : Octets}

def slip {α : Type} (slip : Slip) : Checked α := throw slip

def octetAt (bytes : Octets) (i : Nat) : Checked UInt8 :=
  match bytes[i]? with
  | some b => return b
  | none => slip .position

def setOctet (bytes : Octets) (i : Nat) (b : UInt8) : Checked Octets :=
  if i < bytes.length then return bytes.set i b else slip .position

/-- The octets from one position up to another. -/
def slice (bytes : Octets) (start stop : Nat) : Checked Octets :=
  if start ≤ stop ∧ stop ≤ bytes.length then return (bytes.take stop).drop start
  else slip .slice

def difference (a b : Nat) : Checked Nat := if b ≤ a then return a - b else slip .difference

def narrow (n : Nat) : Checked UInt8 := if n < 256 then return UInt8.ofNat n else slip .narrowing

theorem octetAt_run {i : Nat} (h : i < bytes.length) :
    (octetAt bytes i).run u = .ok (bytes.getD i 0, u) := by
  rw [octetAt, List.getD_eq_getElem?_getD, List.getElem?_eq_getElem h]
  rfl

theorem setOctet_run {i : Nat} (h : i < bytes.length) (b : UInt8) :
    (setOctet bytes i b).run u = .ok (bytes.set i b, u) := by
  rw [setOctet, if_pos h]
  rfl

theorem slice_run {start stop : Nat} (hle : start ≤ stop) (hlength : stop ≤ bytes.length) :
    (slice bytes start stop).run u = .ok ((bytes.take stop).drop start, u) := by
  rw [slice, if_pos ⟨hle, hlength⟩]
  rfl

theorem difference_run {a b : Nat} (h : b ≤ a) : (difference a b).run u = .ok (a - b, u) := by
  rw [difference, if_pos h]
  rfl

theorem narrow_run {n : Nat} (h : n < 256) : (narrow n).run u = .ok (UInt8.ofNat n, u) := by
  rw [narrow, if_pos h]
  rfl

/-! ### Words and bits by position -/

/-- The octet in which only the place of a bit is set. -/
def place (i : Nat) : UInt8 := 1 <<< UInt8.ofNat (i % 8)

theorem toNat_place (i : Nat) : (place i).toNat = 2 ^ (i % 8) := by
  have hall : ∀ k < 8, ((1 : UInt8) <<< UInt8.ofNat k).toNat = 2 ^ k := by
    decide
  exact hall (i % 8) (Nat.mod_lt i (by decide))

theorem land_place (b : UInt8) (i : Nat) : (b &&& place i != 0) = b.toNat.testBit (i % 8) := by
  have hvalue : (b &&& place i).toNat = (b.toNat.testBit (i % 8)).toNat * 2 ^ (i % 8) := by
    rw [UInt8.toNat_and, toNat_place, Nat.and_two_pow]
  have hzero : (b &&& place i = 0) ↔ (b &&& place i).toNat = 0 := UInt8.toNat_inj.symm
  cases hbit : b.toNat.testBit (i % 8) with
  | false =>
    rw [hbit] at hvalue
    rw [hzero.mpr (by simpa using hvalue)]
    rfl
  | true =>
    rw [hbit] at hvalue
    refine bne_iff_ne.mpr fun h => ?_
    rw [hzero.mp h, Bool.toNat_true, Nat.one_mul] at hvalue
    exact Nat.two_pow_pos _ |>.ne hvalue

def words (payload : Octets) : Checked (List UInt16) :=
  (List.range (payload.length / 2)).mapM fun k => do
    let high ← octetAt payload (2 * k)
    let low ← octetAt payload (2 * k + 1)
    return word high low

def unpack (payload : Octets) (count : Nat) : Checked (List Bool) :=
  (List.range count).mapM fun i => do
    let b ← octetAt payload (i / 8)
    return b &&& place i != 0

def setBit (packed : Octets) (i : Nat) : Checked Octets := do
  let b ← octetAt packed (i / 8)
  setOctet packed (i / 8) (b ||| place i)

/-- Packs bits into octets from a bit on. -/
def packFrom : Nat → List Bool → Octets → Checked Octets
  | _, [], packed => return packed
  | i, true :: bits, packed => do
    let packed ← setBit packed i
    packFrom (i + 1) bits packed
  | i, false :: bits, packed => packFrom (i + 1) bits packed

/-- Packs bits into as many octets as so many bits need. -/
def pack (count : Nat) (bits : List Bool) : Checked Octets :=
  packFrom 0 bits (List.replicate (Octets.ofBitCount count) 0)

theorem words_run {payload : Octets} {n : Nat} (h : payload.length = 2 * n) :
    (words payload).run u = .ok (Octets.words payload, u) := by
  have hhalf : payload.length / 2 = n := by omega
  have hall : (List.range n).map (Octets.wordAt payload) = Octets.words payload := by
    apply List.ext_getElem?
    intro k
    by_cases hk : k < n
    · rw [Octets.getElem?_words (by omega)]
      simp [hk]
    · have hlength := Octets.length_words h
      rw [List.getElem?_eq_none (by simp; omega), List.getElem?_eq_none (by omega)]
  rw [words, hhalf, ← hall]
  refine run_mapM fun k hk => ?_
  have hlt := List.mem_range.mp hk
  rw [run_bind (octetAt_run (by omega)), run_bind (octetAt_run (by omega))]
  rfl

theorem unpack_run {payload : Octets} {count : Nat} (h : count ≤ 8 * payload.length) :
    (unpack payload count).run u = .ok (Octets.unpackBits count payload, u) := by
  refine run_mapM fun i hi => ?_
  have hlt := List.mem_range.mp hi
  rw [run_bind (octetAt_run (by omega)), land_place]
  rfl

theorem setBit_run {packed : Octets} {i : Nat} (h : i / 8 < packed.length) :
    ∃ after, (setBit packed i).run u = .ok (after, u) ∧ after.length = packed.length ∧
      ∀ j, Octets.bitAt after j = (Octets.bitAt packed j || j == i) := by
  refine ⟨packed.set (i / 8) (packed.getD (i / 8) 0 ||| place i), ?_, List.length_set, fun j => ?_⟩
  · rw [setBit, run_bind (octetAt_run h), setOctet_run h]
  · by_cases hoctet : j / 8 = i / 8
    · have hsame : (i % 8 = j % 8) ↔ j = i := by omega
      have hget : (packed.set (i / 8) (packed.getD (i / 8) 0 ||| place i)).getD (j / 8) 0 =
          packed.getD (j / 8) 0 ||| place i := by
        rw [hoctet, List.getD_eq_getElem?_getD, List.getElem?_set_self h, Option.getD_some]
      rw [Octets.bitAt, hget, UInt8.toNat_or, Nat.testBit_or, toNat_place, Nat.testBit_two_pow,
        decide_eq_decide.mpr hsame]
      rfl
    · have hother : (j == i) = false := by
        rw [beq_eq_false_iff_ne]
        rintro rfl
        exact hoctet rfl
      have hget : (packed.set (i / 8) (packed.getD (i / 8) 0 ||| place i)).getD (j / 8) 0 =
          packed.getD (j / 8) 0 := by
        rw [List.getD_eq_getElem?_getD, List.getElem?_set_ne (Ne.symm hoctet),
          List.getD_eq_getElem?_getD]
      rw [Octets.bitAt, hget, hother, Bool.or_false]
      rfl

theorem packFrom_run {bits : List Bool} {i : Nat} {packed : Octets}
    (h : i + bits.length ≤ 8 * packed.length) :
    ∃ after, (packFrom i bits packed).run u = .ok (after, u) ∧ after.length = packed.length ∧
      ∀ j, Octets.bitAt after j =
        (Octets.bitAt packed j || (decide (i ≤ j) && bits.getD (j - i) false)) := by
  induction bits generalizing i packed with
  | nil => exact ⟨packed, rfl, rfl, fun j => by simp⟩
  | cons bit bits ih =>
    simp only [List.length_cons] at h
    -- the bits from here on are the first one and those that come later
    have hsplit (j : Nat) : (decide (i ≤ j) && (bit :: bits).getD (j - i) false) =
        ((j == i && bit) || (decide (i + 1 ≤ j) && bits.getD (j - (i + 1)) false)) := by
      rcases Nat.lt_trichotomy j i with hlt | rfl | hgt
      · have hne : (j == i) = false := by simpa using Nat.ne_of_lt hlt
        simp [hne, Nat.not_le.mpr hlt, show ¬i + 1 ≤ j by omega]
      · simp
      · have hne : (j == i) = false := by simpa using Nat.ne_of_gt hgt
        obtain ⟨d, hd⟩ := Nat.exists_eq_add_of_lt hgt
        have hfirst : j - i = d + 1 := by omega
        have hlater : j - (i + 1) = d := by omega
        simp [hne, hfirst, hlater, Nat.le_of_lt hgt, Nat.succ_le_of_lt hgt]
    cases bit with
    | true =>
      have hroom : i / 8 < packed.length := by omega
      obtain ⟨set, hset, hlength, hbits⟩ := setBit_run (u := u) hroom
      have hlater : i + 1 + bits.length ≤ 8 * set.length := by omega
      obtain ⟨after, hafter, hlength', hbits'⟩ := ih hlater
      refine ⟨after, ?_, hlength'.trans hlength, fun j => ?_⟩
      · rw [packFrom, run_bind hset, hafter]
      · rw [hbits', hbits, hsplit, Bool.and_true, Bool.or_assoc]
    | false =>
      have hlater : i + 1 + bits.length ≤ 8 * packed.length := by omega
      obtain ⟨after, hafter, hlength, hbits⟩ := ih hlater
      refine ⟨after, hafter, hlength, fun j => ?_⟩
      rw [hbits, hsplit, Bool.and_false, Bool.false_or]

theorem pack_run {count : Nat} {bits : List Bool} (h : bits.length = count) :
    (pack count bits).run u = .ok (Octets.packBits bits, u) := by
  subst h
  have hroom : 0 + bits.length ≤
      8 * (List.replicate (Octets.ofBitCount bits.length) (0 : UInt8)).length := by
    rw [List.length_replicate, Octets.ofBitCount]
    omega
  obtain ⟨packed, hpacked, hlength, hbits⟩ := packFrom_run (u := u) hroom
  rw [List.length_replicate, ← Octets.length_packBits] at hlength
  have hzero (j : Nat) :
      Octets.bitAt (List.replicate (Octets.ofBitCount bits.length) 0) j = false := by
    rw [Octets.bitAt, List.getD_eq_getElem?_getD, List.getElem?_replicate]
    split <;> exact Nat.zero_testBit _
  have hsame : packed = Octets.packBits bits := by
    refine Octets.eq_of_unpackBits_eq hlength ?_
    rw [hlength]
    refine List.map_congr_left fun j _ => ?_
    rw [hbits, hzero, Octets.bitAt_packBits]
    simp
  rw [pack, hpacked, hsame]

end Checked
end RtuStation
