import Mathlib.Data.Nat.Bitwise
import RtuStation.Bank.Kind
import RtuStation.Name

/-!
# Names of banks

The four banks of a stem have four different names, also where the stem is so long that the names
are cut and closed with a hash. A hash absorbs one octet after the other, and each absorption can be
undone, so that texts which differ in the last octet alone have different hashes. Coils and discrete
inputs are kept apart from the registers by the parity of the hash, which is that of the sum of the
octets.
-/

namespace RtuStation

/-! ### Hashes -/

namespace Fnv

/-- The inverse of the prime modulo `2 ^ 64`. -/
def inverse : UInt64 := 0xce965057aff6957b

theorem prime_mul_inverse : prime * inverse = 1 := by decide

theorem mul_prime_injective {x y : UInt64} (h : x * prime = y * prime) : x = y := by
  have hundo (z : UInt64) : z * prime * inverse = z := by
    rw [UInt64.mul_assoc, prime_mul_inverse, UInt64.mul_one]
  rw [← hundo x, h, hundo]

theorem absorb_injective_right {h : UInt64} {a b : UInt8} (heq : absorb h a = absorb h b) :
    a = b := by
  have hxor := mul_prime_injective heq
  have hword : a.toUInt64 = b.toUInt64 := by
    rw [← UInt64.xor_right_inj h]
    exact hxor
  exact UInt8.toUInt64_inj.mp hword

/-- The prime is odd, so that the lowest place of a hash tells how many odd octets went in. -/
theorem absorb_parity (h : UInt64) (b : UInt8) :
    (absorb h b).toNat % 2 = (h.toNat + b.toNat) % 2 := by
  have hprime : prime.toNat % 2 = 1 := by decide
  rw [absorb, UInt64.toNat_mul, Nat.mod_mod_of_dvd _ (by decide), Nat.mul_mod, hprime, Nat.mul_one,
    Nat.mod_mod, UInt64.toNat_xor, Nat.xor_mod_two_eq, UInt8.toNat_toUInt64]

theorem hexDigits_injective {n x y : Nat} (hx : x < 16 ^ n) (hy : y < 16 ^ n)
    (h : hexDigits n x = hexDigits n y) : x = y := by
  induction n generalizing x y with
  | zero => omega
  | succ n ih =>
    rw [Nat.pow_succ] at hx hy
    obtain ⟨hhigh, hlow⟩ := List.append_inj' h rfl
    have hdigit : ∀ a b : Fin 16, (Octets.hexDigit a).toLower = (Octets.hexDigit b).toLower →
        a = b := by decide
    have hhigh := ih (by omega) (by omega) hhigh
    have hlow := hdigit ⟨x % 16, by omega⟩ ⟨y % 16, by omega⟩ (List.cons.inj hlow).1
    have hlow : x % 16 = y % 16 := congrArg Fin.val hlow
    omega

theorem length_hexDigits (n x : Nat) : (hexDigits n x).length = n := by
  induction n generalizing x with
  | zero => rfl
  | succ n ih => rw [hexDigits, List.length_append, ih]; rfl

theorem digits_injective {g h : UInt64} (heq : digits g = digits h) : g = h :=
  UInt64.toNat_inj.mp (hexDigits_injective g.toNat_lt h.toNat_lt heq)

end Fnv

/-! ### Names of texts -/

theorem textSize_append (a b : List Char) : textSize (a ++ b) = textSize a + textSize b := by
  induction a with
  | nil => exact (Nat.zero_add _).symm
  | cons c a ih =>
    show c.utf8Size + textSize (a ++ b) = c.utf8Size + textSize a + textSize b
    rw [ih, Nat.add_assoc]

theorem textOctets_append (a b : List Char) : textOctets (a ++ b) = textOctets a ++ textOctets b :=
  List.flatMap_append

namespace ObjectName

theorem remainder_of_ne {c : Char} {cs : List Char} (hc : c ≠ '/') :
    remainder (c :: cs) = c :: cs := by
  unfold remainder
  split
  · next heq =>
    cases heq
    exact absurd rfl hc
  · rfl

theorem remainder_append (cs : List Char) {c : Char} (tail : List Char) (hc : c ≠ '/') :
    remainder (cs ++ c :: tail) = remainder cs ++ c :: tail := by
  cases cs with
  | nil => exact remainder_of_ne hc
  | cons first cs =>
    by_cases hfirst : first = '/'
    · subst hfirst
      rfl
    · rw [List.cons_append, remainder_of_ne hfirst, remainder_of_ne hfirst, List.cons_append]

/-- Names of texts that differ but take the same room differ if the hashes of the texts do. -/
theorem canonical_ne {a b : List Char} (hne : a ≠ b) (hsize : textSize a = textSize b)
    (hhash : Fnv.hash (textOctets ('/' :: a)) ≠ Fnv.hash (textOctets ('/' :: b))) :
    canonical a ≠ canonical b := by
  have hfull : textSize ('/' :: a) = textSize ('/' :: b) :=
    congrArg (Char.utf8Size '/' + ·) hsize
  intro heq
  simp only [canonical, hfull] at heq
  split at heq
  · exact hne (List.cons.inj heq).2
  · have hlength (h g : UInt64) : ('_' :: Fnv.digits h).length = ('_' :: Fnv.digits g).length := by
      simp only [List.length_cons, Fnv.digits, Fnv.length_hexDigits]
    have hdigits := (List.append_inj' (List.cons.inj heq).2 (hlength _ _)).2
    exact hhash (Fnv.digits_injective (List.cons.inj hdigits).2)

theorem text_of_ofText {text : String} {name : ObjectName} (h : ofText text = .ok name) :
    name.text = String.ofList (canonical (remainder text.toList)) := by
  unfold ofText at h
  simp only at h
  split at h
  · cases h
  split at h
  · cases h
  · cases h
    rfl

end ObjectName

/-! ### Suffixes -/

namespace BankKind

/-- The octets of a suffix. -/
def letters (k : BankKind) : UInt8 × UInt8 :=
  match k with
  | coils => (0x44, 0x4f)
  | discreteInputs => (0x44, 0x49)
  | holdingRegisters => (0x41, 0x4f)
  | inputRegisters => (0x41, 0x49)

theorem textOctets_suffix (k : BankKind) :
    textOctets k.suffix.toList = [k.letters.1, k.letters.2] := by
  cases k <;> rfl

theorem textSize_suffix (k : BankKind) : textSize k.suffix.toList = 2 := by
  cases k <;> rfl

theorem letters_injective {k l : BankKind} (h : k.letters = l.letters) : k = l := by
  revert h
  cases k <;> cases l <;> decide

theorem first_of_parity {k l : BankKind}
    (h : (k.letters.1.toNat + k.letters.2.toNat) % 2 =
      (l.letters.1.toNat + l.letters.2.toNat) % 2) :
    k.letters.1 = l.letters.1 := by
  revert h
  cases k <;> cases l <;> decide

/-- Hashes of one stem with different suffixes differ: the parity tells bits from words, and where
it does not help, the suffixes differ in their last octet alone. -/
theorem hash_suffix_injective (octets : Octets) {k l : BankKind}
    (h : Fnv.hash (octets ++ textOctets k.suffix.toList) =
      Fnv.hash (octets ++ textOctets l.suffix.toList)) : k = l := by
  have hhash (k : BankKind) : Fnv.hash (octets ++ textOctets k.suffix.toList) =
      Fnv.absorb (Fnv.absorb (Fnv.hash octets) k.letters.1) k.letters.2 := by
    rw [textOctets_suffix, Fnv.hash, List.foldl_append]
    rfl
  rw [hhash, hhash] at h
  have hparity := congrArg (fun hash : UInt64 => hash.toNat % 2) h
  simp only [Fnv.absorb_parity, Nat.add_mod _ (UInt8.toNat _)] at hparity
  have hfirst : k.letters.1 = l.letters.1 := first_of_parity (by omega)
  rw [hfirst] at h
  exact letters_injective (Prod.ext hfirst (Fnv.absorb_injective_right h))

theorem remainder_bankName (stem : String) (k : BankKind) :
    ObjectName.remainder (bankName stem k.suffix).toList =
      ObjectName.remainder stem.toList ++ k.suffix.toList := by
  rw [bankName, String.toList_append]
  cases k <;> exact ObjectName.remainder_append _ _ (by decide)

/-- The four banks of a stem have four names. -/
theorem eq_of_ofText_bankName {stem : String} {k l : BankKind} {name : ObjectName}
    (hk : ObjectName.ofText (bankName stem k.suffix) = .ok name)
    (hl : ObjectName.ofText (bankName stem l.suffix) = .ok name) : k = l := by
  have htext := (ObjectName.text_of_ofText hk).symm.trans (ObjectName.text_of_ofText hl)
  rw [remainder_bankName, remainder_bankName] at htext
  have hcanonical := String.ofList_injective htext
  by_contra hne
  refine ObjectName.canonical_ne (fun heq => hne ?_) ?_ (fun heq => hne ?_) hcanonical
  · refine hash_suffix_injective [] ?_
    rw [List.append_cancel_left heq]
  · rw [textSize_append, textSize_append, textSize_suffix, textSize_suffix]
  · refine hash_suffix_injective (textOctets ('/' :: ObjectName.remainder stem.toList)) ?_
    rw [← textOctets_append, ← textOctets_append]
    exact heq

end BankKind
end RtuStation
