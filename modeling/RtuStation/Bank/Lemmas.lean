import RtuStation.Bank.View

/-!
# Laws of bank views

What reading finds after writing: the range that was written has the new values, everything else is
as before. Together with the bounds of each access this makes a bank an array of its elements.
-/

namespace RtuStation
namespace Bank

theorem load_store_self (w : Width) (cells : Array UInt8) (i : Nat) (v : w.Value)
    (h : (i + 1) * w.octets ≤ cells.size) : load w (store w cells i v) i = v := by
  cases w with
  | bit =>
    have hi : i < cells.size := by simp only [Width.octets] at h; omega
    cases v <;> simp [load, store, hi]
  | word =>
    have hlow : 2 * i < cells.size := by simp only [Width.octets] at h; omega
    have hhigh : 2 * i + 1 < cells.size := by simp only [Width.octets] at h; omega
    have hne : 2 * i + 1 ≠ 2 * i := by omega
    simpa [load, store, Array.getElem?_setIfInBounds, hlow, hhigh, hne] using word_octets v

theorem load_store_of_ne (w : Width) (cells : Array UInt8) {i j : Nat} (v : w.Value)
    (h : i ≠ j) : load w (store w cells i v) j = load w cells j := by
  cases w with
  | bit => simp [load, store, h]
  | word =>
    have h1 : 2 * i ≠ 2 * j := by omega
    have h3 : 2 * i ≠ 2 * j + 1 := by omega
    have h4 : 2 * i + 1 ≠ 2 * j := by omega
    simp [load, store, h1, h3, h4]

theorem load_storeAll_of_lt (w : Width) (cells : Array UInt8) {i j : Nat} (vs : List w.Value)
    (h : j < i) : load w (storeAll w cells i vs) j = load w cells j := by
  induction vs generalizing cells i with
  | nil => rfl
  | cons v vs ih => rw [storeAll, ih _ (by omega), load_store_of_ne w cells v (by omega)]

theorem load_storeAll_of_ge (w : Width) (cells : Array UInt8) {i j : Nat} (vs : List w.Value)
    (h : i + vs.length ≤ j) : load w (storeAll w cells i vs) j = load w cells j := by
  induction vs generalizing cells i with
  | nil => rfl
  | cons v vs ih =>
    simp only [List.length_cons] at h
    rw [storeAll, ih _ (by omega), load_store_of_ne w cells v (by omega)]

theorem load_storeAll (w : Width) (cells : Array UInt8) {i k : Nat} (vs : List w.Value)
    (hk : k < vs.length) (h : (i + vs.length) * w.octets ≤ cells.size) :
    load w (storeAll w cells i vs) (i + k) = vs[k] := by
  induction vs generalizing cells i k with
  | nil => simp at hk
  | cons v vs ih =>
    rw [storeAll]
    cases k with
    | zero =>
      have hi : (i + 1) * w.octets ≤ cells.size :=
        Nat.le_trans (Nat.mul_le_mul_right _ (by simp only [List.length_cons]; omega)) h
      rw [load_storeAll_of_lt w _ vs (by omega), Nat.add_zero, load_store_self w cells i v hi]
      rfl
    | succ k =>
      have hlen : i + 1 + vs.length = i + (v :: vs).length := by simp; omega
      have hi : i + (k + 1) = i + 1 + k := by omega
      have hk' : k < vs.length := by simpa using hk
      rw [hi, ih _ hk' (by rw [hlen, size_store]; exact h)]
      rfl

variable {w : Width}

theorem fits_of_lt (b : Bank w) {i : Nat} (h : i < b.length) : (i + 1) * w.octets ≤ b.cells.size :=
  Nat.le_trans (Nat.mul_le_mul_right _ h) b.fits

theorem contains_iff (b : Bank w) (start count : Nat) :
    b.contains start count = true ↔ start + count ≤ b.length := by
  simp [contains]

theorem get?_set? {b b' : Bank w} {i : Nat} {v : w.Value} (h : b.set? i v = some b') (j : Nat) :
    b'.get? j = if j = i then some v else b.get? j := by
  unfold set? at h
  split at h
  · rename_i hi
    obtain rfl := Option.some.inj h
    by_cases hj : j = i
    · subst hj
      simp [get?, hi, load_store_self w b.cells j v (b.fits_of_lt hi)]
    · simp [get?, hj, load_store_of_ne w b.cells v (Ne.symm hj)]
  · simp at h

theorem get?_write? {b b' : Bank w} {start : Nat} {vs : List w.Value}
    (h : b.write? start vs = some b') (j : Nat) :
    b'.get? j = if start ≤ j ∧ j < start + vs.length then vs[j - start]? else b.get? j := by
  unfold write? at h
  split at h
  · rename_i hc
    obtain rfl := Option.some.inj h
    have hfit := (b.contains_iff start vs.length).mp hc
    by_cases hj : start ≤ j ∧ j < start + vs.length
    · obtain ⟨k, rfl⟩ := Nat.exists_eq_add_of_le hj.1
      have hk : k < vs.length := by omega
      have hlt : start + k < b.length := by omega
      have hroom : (start + vs.length) * w.octets ≤ b.cells.size :=
        Nat.le_trans (Nat.mul_le_mul_right _ hfit) b.fits
      simp [get?, hlt, hk, load_storeAll w b.cells vs hk hroom]
    · rw [if_neg hj]
      by_cases hlow : j < start
      · simp [get?, load_storeAll_of_lt w b.cells vs hlow]
      · simp [get?, load_storeAll_of_ge w b.cells vs (show start + vs.length ≤ j by omega)]
  · simp at h

theorem length_read? {b : Bank w} {start count : Nat} {vs : List w.Value}
    (h : b.read? start count = some vs) : vs.length = count := by
  unfold read? at h
  split at h
  · obtain rfl := Option.some.inj h
    simp
  · simp at h

theorem getElem?_read? {b : Bank w} {start count : Nat} {vs : List w.Value}
    (h : b.read? start count = some vs) {k : Nat} (hk : k < count) :
    vs[k]? = b.get? (start + k) := by
  unfold read? at h
  split at h
  · rename_i hc
    obtain rfl := Option.some.inj h
    have hlt : start + k < b.length := by
      have := (b.contains_iff start count).mp hc
      omega
    simp [get?, hk, hlt]
  · simp at h

end Bank
end RtuStation
