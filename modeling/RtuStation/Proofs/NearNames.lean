import RtuStation.Proofs.CanonicalNames

/-!
# Names of nearly equal texts

Two texts that differ in one octet have different names, also where both are cut and closed with a
hash. Each octet that a hash absorbs can be told from the hash before and the hash after it, and the
hash before from the octet and the hash after: so the hashes differ from the octet on in which the
texts do, whatever follows. Where the starts of the two texts are cut makes no difference.
-/

namespace RtuStation

/-! ### One octet -/

namespace Octets

/-- The number of positions at which two strings have different octets. -/
def distance (x y : Octets) : Nat := (x.zip y).countP fun (a, b) => a != b

theorem distance_cons (a b : UInt8) (x y : Octets) :
    distance (a :: x) (b :: y) = distance x y + if a = b then 0 else 1 := by
  by_cases h : a = b <;> simp [distance, h]

theorem eq_of_distance_eq_zero {x y : Octets} (hlength : x.length = y.length)
    (h : distance x y = 0) : x = y := by
  induction x generalizing y with
  | nil => exact (List.length_eq_zero_iff.mp hlength.symm).symm
  | cons a x ih =>
    obtain ⟨b, y, rfl⟩ := List.exists_cons_of_length_eq_add_one hlength.symm
    rw [distance_cons] at h
    by_cases hab : a = b
    · rw [hab, ih (Nat.succ.inj hlength) (by omega)]
    · simp [hab] at h

theorem exists_split_of_distance {x y : Octets} (hlength : x.length = y.length)
    (h : distance x y = 1) :
    ∃ p a b s, a ≠ b ∧ x = p ++ a :: s ∧ y = p ++ b :: s := by
  induction x generalizing y with
  | nil =>
    obtain rfl := List.length_eq_zero_iff.mp hlength.symm
    cases h
  | cons a x ih =>
    obtain ⟨b, y, rfl⟩ := List.exists_cons_of_length_eq_add_one hlength.symm
    rw [distance_cons] at h
    by_cases hab : a = b
    · subst hab
      obtain ⟨p, c, d, s, hcd, rfl, rfl⟩ := ih (Nat.succ.inj hlength) (by simpa using h)
      exact ⟨a :: p, c, d, s, hcd, rfl, rfl⟩
    · rw [if_neg hab] at h
      have hsame := eq_of_distance_eq_zero (Nat.succ.inj hlength) (Nat.succ.inj h)
      exact ⟨[], a, b, x, hab, rfl, by rw [hsame]; rfl⟩

end Octets

/-! ### Hashes -/

namespace Fnv

theorem absorb_injective_left {g h : UInt64} {b : UInt8} (heq : absorb g b = absorb h b) :
    g = h := by
  have hxor := mul_prime_injective heq
  exact (UInt64.xor_left_inj b.toUInt64).mp hxor

theorem foldl_absorb_injective {g h : UInt64} {octets : Octets}
    (heq : octets.foldl absorb g = octets.foldl absorb h) : g = h := by
  induction octets generalizing g h with
  | nil => exact heq
  | cons b octets ih => exact absorb_injective_left (ih heq)

theorem hash_ne_of_ne (p s : Octets) {a b : UInt8} (h : a ≠ b) :
    hash (p ++ a :: s) ≠ hash (p ++ b :: s) := by
  have hsplit (c : UInt8) : hash (p ++ c :: s) = s.foldl absorb (absorb (hash p) c) := by
    simp [hash]
  intro heq
  rw [hsplit, hsplit] at heq
  exact h (absorb_injective_right (foldl_absorb_injective heq))

end Fnv

/-! ### Names -/

namespace ObjectName

theorem canonical_ne_of_distance {x y : List Char}
    (hlength : (textOctets x).length = (textOctets y).length)
    (h : Octets.distance (textOctets x) (textOctets y) = 1) : canonical x ≠ canonical y := by
  obtain ⟨p, a, b, s, hab, hx, hy⟩ := Octets.exists_split_of_distance hlength h
  have hslash (cs : List Char) : textOctets ('/' :: cs) = textOctets ['/'] ++ textOctets cs :=
    textOctets_append ['/'] cs
  apply canonical_ne
  · rintro rfl
    rw [hx] at hy
    exact hab (List.cons.inj (List.append_cancel_left hy)).1
  · rw [← length_textOctets, ← length_textOctets, hlength]
  · rw [hslash x, hslash y, hx, hy, ← List.append_assoc, ← List.append_assoc]
    exact Fnv.hash_ne_of_ne _ s hab

/-- Strings that differ in one octet have different hashes. Texts that take the same number of
octets behind the slash, and differ there in one octet, have different names, whether or not these
are cut. -/
theorem near_texts_keep_apart :
    (∀ (p s : Octets) (a b : UInt8), a ≠ b → Fnv.hash (p ++ a :: s) ≠ Fnv.hash (p ++ b :: s)) ∧
    ∀ (text other : String) (name name' : ObjectName),
      ofText text = .ok name → ofText other = .ok name' →
      (textOctets (remainder text.toList)).length = (textOctets (remainder other.toList)).length →
      Octets.distance (textOctets (remainder text.toList)) (textOctets (remainder other.toList)) =
        1 →
      name ≠ name' := by
  refine ⟨fun p s a b h => Fnv.hash_ne_of_ne p s h, ?_⟩
  intro text other name name' htext hother hlength hdistance heq
  apply canonical_ne_of_distance hlength hdistance
  rw [← toList_of_ofText htext, ← toList_of_ofText hother, heq]

/-- Two long texts of accented letters, of which one has another accent near the start. -/
def acute : List Char := List.replicate 150 'é'

def grave : List Char := List.replicate 10 'é' ++ 'è' :: List.replicate 139 'é'

theorem acute_and_grave_keep_apart :
    Fnv.hash [0xC3, 0xA9, 0x78] ≠ Fnv.hash [0xC3, 0xA8, 0x78] ∧
      ∃ name name', ofText (String.ofList acute) = .ok name ∧
        ofText (String.ofList grave) = .ok name' ∧ name ≠ name' := by
  obtain ⟨hhashes, hnames⟩ := near_texts_keep_apart
  refine ⟨hhashes [0xC3] [0x78] 0xA9 0xA8 (by decide), ?_⟩
  have hbody : remainder acute = acute := by decide +kernel
  have hbody' : remainder grave = grave := by decide +kernel
  have hnameable : Nameable acute := by decide +kernel
  have hnameable' : Nameable grave := by decide +kernel
  have hlength : (textOctets acute).length = (textOctets grave).length := by decide +kernel
  have hdistance : Octets.distance (textOctets acute) (textOctets grave) = 1 := by decide +kernel
  have hnamed := hnames (String.ofList acute) (String.ofList grave)
  simp only [String.toList_ofList, hbody, hbody'] at hnamed
  obtain ⟨name, h⟩ : ∃ name, ofText (String.ofList acute) = .ok name := by
    rwa [exists_ofText_iff, String.toList_ofList, hbody]
  obtain ⟨name', h'⟩ : ∃ name, ofText (String.ofList grave) = .ok name := by
    rwa [exists_ofText_iff, String.toList_ofList, hbody']
  exact ⟨name, name', h, h', hnamed name name' h h' hlength hdistance⟩

end ObjectName
end RtuStation
