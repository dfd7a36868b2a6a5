import RtuStation.Bank.Lemmas
import RtuStation.Proofs.Requests

/-!
# What a request writes

Every request that changes anything replaces one range of one bank: of the coils
(`Request.coilBlock?`) or of the holding registers (`Request.registerBlock?`). `change_of_perform?`
says so once for all requests. For a range that was replaced, the octets of the memory are told
apart: those of its elements have their new values, all others stay.
-/

namespace RtuStation
namespace Bank

variable {w : Width}

/-! ### Replaced ranges -/

theorem set?_eq_write? (b : Bank w) (i : Nat) (v : w.Value) : b.set? i v = b.write? i [v] := by
  by_cases hi : i < b.length
  · have hc : b.contains i [v].length = true := (b.contains_iff i 1).mpr hi
    simp only [set?, write?, if_pos hi, if_pos hc, storeAll]
  · have hc : ¬b.contains i [v].length = true := fun h => hi ((b.contains_iff i 1).mp h)
    simp only [set?, write?, if_neg hi, if_neg hc]

theorem exists_set? {b : Bank w} {i : Nat} {old : w.Value} (h : b.get? i = some old)
    (new : w.Value) : ∃ after, b.set? i new = some after := by
  unfold get? at h
  split at h
  · next hi => exact ⟨_, if_pos hi⟩
  · cases h

theorem write?_eq_some_iff {b b' : Bank w} {start : Nat} {vs : List w.Value} :
    b.write? start vs = some b' ↔
      start + vs.length ≤ b.length ∧ b'.length = b.length ∧
        b'.cells = storeAll w b.cells start vs := by
  by_cases hc : b.contains start vs.length = true
  · have hfit := (b.contains_iff start vs.length).mp hc
    simp only [write?, if_pos hc, Option.some.injEq]
    constructor
    · rintro rfl
      exact ⟨hfit, rfl, rfl⟩
    · rintro ⟨-, hlen, hcells⟩
      cases b'
      cases hlen
      cases hcells
      rfl
  · have hfit : ¬start + vs.length ≤ b.length := fun h => hc ((b.contains_iff _ _).mpr h)
    simp only [write?, if_neg hc, hfit, false_and]
    constructor
    · intro h
      cases h
    · exact False.elim

theorem ofCells_of_write? {cells : Array UInt8} {size start : Nat} {vs : List w.Value} {b : Bank w}
    (h : (ofCells w cells size).write? start vs = some b) :
    b.cells.size = cells.size ∧ ofCells w b.cells size = b := by
  obtain ⟨-, hlength, hcells⟩ := write?_eq_some_iff.mp h
  have hsize : b.cells.size = cells.size := by
    rw [hcells, size_storeAll]
    rfl
  refine ⟨hsize, ?_⟩
  cases b with
  | mk replaced length fits =>
    simp only [ofCells, mk.injEq, true_and]
    rw [hsize]
    exact hlength.symm

theorem read?_eq_some_iff {b : Bank w} {start count : Nat} {vs : List w.Value} :
    b.read? start count = some vs ↔
      start + count ≤ b.length ∧ vs = (List.range' start count).map (load w b.cells) := by
  by_cases hc : b.contains start count = true
  · have hfit := (b.contains_iff start count).mp hc
    simp only [read?, if_pos hc, Option.some.injEq, hfit, true_and]
    exact eq_comm
  · have hfit : ¬start + count ≤ b.length := fun h => hc ((b.contains_iff _ _).mpr h)
    simp only [read?, if_neg hc, hfit, false_and]
    exact ⟨nofun, False.elim⟩

theorem isSome_read? (b : Bank w) (start count : Nat) :
    (b.read? start count).isSome ↔ start + count ≤ b.length := by
  rw [← contains_iff, read?]
  split <;> simp_all

theorem isSome_write? (b : Bank w) (start : Nat) (vs : List w.Value) :
    (b.write? start vs).isSome ↔ start + vs.length ≤ b.length := by
  rw [← contains_iff, write?]
  split <;> simp_all

theorem filterMap_get? {b : Bank w} {start count : Nat} (h : start + count ≤ b.length) :
    (List.range' start count).filterMap b.get? =
      (List.range' start count).map (load w b.cells) := by
  induction count generalizing start with
  | zero => rfl
  | succ count ih =>
    have hfirst : b.get? start = some (load w b.cells start) := if_pos (by omega)
    rw [List.range'_succ, List.filterMap_cons_some hfirst, ih (by omega), List.map_cons]

theorem load_write? {b b' : Bank w} {start : Nat} {vs : List w.Value}
    (h : b.write? start vs = some b') (j : Nat) :
    some (load w b'.cells j) =
      if start ≤ j ∧ j < start + vs.length then vs[j - start]? else some (load w b.cells j) := by
  obtain ⟨hfit, -, hcells⟩ := write?_eq_some_iff.mp h
  have hroom : (start + vs.length) * w.octets ≤ b.cells.size :=
    Nat.le_trans (Nat.mul_le_mul_right _ hfit) b.fits
  rw [hcells]
  by_cases hj : start ≤ j ∧ j < start + vs.length
  · obtain ⟨k, rfl⟩ := Nat.exists_eq_add_of_le hj.1
    have hk : k < vs.length := by omega
    rw [if_pos hj, load_storeAll w b.cells vs hk hroom, Nat.add_sub_cancel_left,
      List.getElem?_eq_getElem hk]
  · rw [if_neg hj]
    by_cases hlow : j < start
    · rw [load_storeAll_of_lt w b.cells vs hlow]
    · rw [load_storeAll_of_ge w b.cells vs (show start + vs.length ≤ j by omega)]

/-! ### Stores one after the other -/

theorem store_store (w : Width) (cells : Array UInt8) (i : Nat) (u v : w.Value) :
    store w (store w cells i u) i v = store w cells i v := by
  cases w with
  | bit => simp [store]
  | word =>
    have hne : 2 * i ≠ 2 * i + 1 := by omega
    apply Array.ext_getElem?
    intro j
    simp only [store, Array.getElem?_setIfInBounds, Array.size_setIfInBounds]
    grind

theorem store_comm (w : Width) (cells : Array UInt8) {i j : Nat} (u v : w.Value) (h : i ≠ j) :
    store w (store w cells i u) j v = store w (store w cells j v) i u := by
  cases w with
  | bit => exact Array.setIfInBounds_comm _ _ h
  | word =>
    apply Array.ext_getElem?
    intro k
    simp only [store, Array.getElem?_setIfInBounds, Array.size_setIfInBounds]
    grind

theorem store_storeAll_comm (w : Width) (cells : Array UInt8) {i j : Nat} (u : w.Value)
    (vs : List w.Value) (h : i < j ∨ j + vs.length ≤ i) :
    store w (storeAll w cells j vs) i u = storeAll w (store w cells i u) j vs := by
  induction vs generalizing cells j with
  | nil => rfl
  | cons v vs ih =>
    simp only [List.length_cons] at h
    rw [storeAll, storeAll, ih _ (by omega), store_comm w cells v u (by omega)]

theorem storeAll_storeAll (w : Width) (cells : Array UInt8) (i : Nat) {us vs : List w.Value}
    (h : vs.length = us.length) :
    storeAll w (storeAll w cells i us) i vs = storeAll w cells i vs := by
  induction us generalizing cells i vs with
  | nil =>
    obtain rfl := List.length_eq_zero_iff.mp h
    rfl
  | cons u us ih =>
    obtain ⟨v, vs, rfl⟩ := List.exists_cons_of_length_eq_add_one h
    -- the first element can be stored again before the others are
    rw [storeAll, storeAll, storeAll, store_storeAll_comm w _ v us (.inl (Nat.lt_succ_self i)),
      store_store, ih _ _ (Nat.succ.inj h)]

/-- What was in a range before makes no difference to what is written to it. -/
theorem write?_write? {b b' : Bank w} {start : Nat} {us vs : List w.Value}
    (h : b.write? start us = some b') (hlength : vs.length = us.length) :
    b'.write? start vs = b.write? start vs := by
  obtain ⟨-, hlength', hcells⟩ := write?_eq_some_iff.mp h
  apply Option.ext
  intro after
  rw [write?_eq_some_iff, write?_eq_some_iff, hlength', hcells, storeAll_storeAll w _ _ hlength]

theorem write?_again {b b' : Bank w} {start : Nat} {vs : List w.Value}
    (h : b.write? start vs = some b') : b'.write? start vs = some b' :=
  (write?_write? h rfl).trans h

theorem set?_again {b b' : Bank w} {i : Nat} {v : w.Value} (h : b.set? i v = some b') :
    b'.set? i v = some b' := by
  rw [set?_eq_write?] at h ⊢
  exact write?_again h

/-! ### Octets of a memory -/

theorem getElem?_store_of_outside (w : Width) (cells : Array UInt8) (i : Nat) (v : w.Value)
    {j : Nat} (h : j < i * w.octets ∨ (i + 1) * w.octets ≤ j) :
    (store w cells i v)[j]? = cells[j]? := by
  cases w with
  | bit =>
    simp only [Width.octets] at h
    have hj : i ≠ j := by omega
    simp [store, hj]
  | word =>
    simp only [Width.octets] at h
    have hlow : 2 * i ≠ j := by omega
    have hhigh : 2 * i + 1 ≠ j := by omega
    simp [store, hlow, hhigh]

theorem getElem?_storeAll_of_outside (w : Width) (cells : Array UInt8) (i : Nat)
    (vs : List w.Value) {j : Nat} (h : j < i * w.octets ∨ (i + vs.length) * w.octets ≤ j) :
    (storeAll w cells i vs)[j]? = cells[j]? := by
  induction vs generalizing cells i with
  | nil => rfl
  | cons v vs ih =>
    have hstep : i * w.octets + w.octets = (i + 1) * w.octets := (Nat.succ_mul i w.octets).symm
    have hlen : i + (v :: vs).length = i + 1 + vs.length := by simp only [List.length_cons]; omega
    have hmono : (i + 1) * w.octets ≤ (i + 1 + vs.length) * w.octets :=
      Nat.mul_le_mul_right _ (Nat.le_add_right ..)
    rw [hlen] at h
    rw [storeAll, ih _ (i + 1) (by omega), getElem?_store_of_outside w cells i v (by omega)]

theorem getElem?_storeAll_bit (cells : Array UInt8) (i : Nat) (vs : List Bool) {j : Nat}
    (h : i ≤ j ∧ j < i + vs.length) (hroom : i + vs.length ≤ cells.size) :
    (storeAll .bit cells i vs)[j]? = some 0 ∨ (storeAll .bit cells i vs)[j]? = some 1 := by
  induction vs generalizing cells i with
  | nil =>
    simp only [List.length_nil] at h
    omega
  | cons v vs ih =>
    simp only [List.length_cons] at h hroom
    rw [storeAll]
    by_cases hj : j = i
    · subst hj
      have hsize : j < cells.size := by omega
      rw [getElem?_storeAll_of_outside .bit _ (j + 1) vs
        (Or.inl (by simp only [Width.octets]; omega))]
      cases v
      · exact Or.inl (by simp [store, hsize])
      · exact Or.inr (by simp [store, hsize])
    · refine ih _ (i + 1) (by omega) ?_
      have hsame := size_store .bit cells i v
      omega

end Bank

/-! ### The block of a request -/

namespace Request

/-- The values that a request puts into coils, from an address on. -/
def coilBlock? : Request → Option (Nat × List Bool)
  | writeCoil a on => some (a.toNat, [on])
  | writeCoils s vs => some (s.toNat, vs)
  | _ => none

/-- The values that a request puts into holding registers, from an address on, if these hold what
`held` tells. -/
def registerBlock? (held : Nat → UInt16) : Request → Option (Nat × List UInt16)
  | writeRegister a v => some (a.toNat, [v])
  | writeRegisters s vs => some (s.toNat, vs)
  | maskWriteRegister a m o => some (a.toNat, [masked (held a.toNat) m o])
  | writeReadRegisters _ _ s vs => some (s.toNat, vs)
  | _ => none

end Request

/-- Whether a coil is set: its octet is not zero. -/
def Banks.coil (b : Banks) (a : Nat) : Bool := b.coils.cells.getD a 0 != 0

def Banks.discreteInput (b : Banks) (a : Nat) : Bool := b.discreteInputs.cells.getD a 0 != 0

/-- The word of a holding register, its low octet first in memory. -/
def Banks.holdingRegister (b : Banks) (a : Nat) : UInt16 :=
  word (b.holdingRegisters.cells.getD (2 * a + 1) 0) (b.holdingRegisters.cells.getD (2 * a) 0)

def Banks.inputRegister (b : Banks) (a : Nat) : UInt16 :=
  word (b.inputRegisters.cells.getD (2 * a + 1) 0) (b.inputRegisters.cells.getD (2 * a) 0)

namespace Request

theorem holdingRegister_of_get? {b : Banks} {a : Nat} {v : UInt16}
    (h : b.holdingRegisters.get? a = some v) : b.holdingRegister a = v := by
  unfold Bank.get? at h
  split at h
  · exact Option.some.inj h
  · cases h

/-- What carrying a request out changes: nothing, or the range of one bank that is the request's
block, which must fit the bank. -/
theorem change_of_perform? {unit : UInt8} {banks : Banks} {r : Request} {data : Octets}
    {change : Change} (h : r.perform? unit banks = some (data, change)) :
    (change = .nothing ∧ r.coilBlock? = none ∧ r.registerBlock? banks.holdingRegister = none) ∨
    (∃ start vs bank, change = .coils bank ∧ r.coilBlock? = some (start, vs) ∧
      r.registerBlock? banks.holdingRegister = none ∧
      banks.coils.write? start vs = some bank) ∨
    (∃ start vs bank, change = .holdingRegisters bank ∧ r.coilBlock? = none ∧
      r.registerBlock? banks.holdingRegister = some (start, vs) ∧
      banks.holdingRegisters.write? start vs = some bank) := by
  cases r with
  | readCoils s n | readDiscreteInputs s n | readHoldingRegisters s n | readInputRegisters s n =>
    obtain ⟨_, -, hr⟩ := Option.bind_eq_some_iff.mp h
    cases hr
    exact Or.inl ⟨rfl, rfl, rfl⟩
  | writeCoil a on =>
    obtain ⟨bank, hb, hr⟩ := Option.bind_eq_some_iff.mp h
    cases hr
    rw [Bank.set?_eq_write?] at hb
    exact Or.inr (Or.inl ⟨a.toNat, [on], bank, rfl, rfl, rfl, hb⟩)
  | writeRegister a v =>
    obtain ⟨bank, hb, hr⟩ := Option.bind_eq_some_iff.mp h
    cases hr
    rw [Bank.set?_eq_write?] at hb
    exact Or.inr (Or.inr ⟨a.toNat, [v], bank, rfl, rfl, rfl, hb⟩)
  | writeCoils s vs =>
    obtain ⟨bank, hb, hr⟩ := Option.bind_eq_some_iff.mp h
    cases hr
    exact Or.inr (Or.inl ⟨s.toNat, vs, bank, rfl, rfl, rfl, hb⟩)
  | writeRegisters s vs =>
    obtain ⟨bank, hb, hr⟩ := Option.bind_eq_some_iff.mp h
    cases hr
    exact Or.inr (Or.inr ⟨s.toNat, vs, bank, rfl, rfl, rfl, hb⟩)
  | reportServerId =>
    cases h
    exact Or.inl ⟨rfl, rfl, rfl⟩
  | maskWriteRegister a m o =>
    obtain ⟨value, hv, hrest⟩ := Option.bind_eq_some_iff.mp h
    obtain ⟨bank, hb, hr⟩ := Option.bind_eq_some_iff.mp hrest
    cases hr
    rw [Bank.set?_eq_write?] at hb
    refine Or.inr (Or.inr ⟨a.toNat, [masked value m o], bank, rfl, rfl, ?_, hb⟩)
    rw [registerBlock?, holdingRegister_of_get? hv]
  | writeReadRegisters rs rn ws vs =>
    obtain ⟨bank, hb, hrest⟩ := Option.bind_eq_some_iff.mp h
    obtain ⟨_, -, hr⟩ := Option.bind_eq_some_iff.mp hrest
    cases hr
    exact Or.inr (Or.inr ⟨ws.toNat, vs, bank, rfl, rfl, rfl, hb⟩)

end Request
end RtuStation
