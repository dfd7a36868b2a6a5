import RtuStation.Proofs.Windows

/-!
# Ranges of a bank

A bank is an array of its elements. Here its ranges are read and replaced as a machine does it: the
end of a range is a sum of 64 bits, elements are taken one by one, and one that is not there is left
out or left alone. This is what the bank does with the range as a whole, at every position and for
every count: nothing is left out of a range that the bank has, and nothing happens to one that it
does not have.
-/

namespace RtuStation
namespace Bank

variable {w : Width}

/-! ### Element by element -/

/-- Whether the bank has so many elements from a position on, by a sum of 64 bits. -/
def holds (b : Bank w) (start count : Nat) : Bool := (Window.sum? start count).any (· ≤ b.length)

def gather (b : Bank w) (start count : Nat) : Option (List w.Value) :=
  if b.holds start count then some ((List.range' start count).filterMap b.get?) else none

/-- The bank with an element replaced, or as it is where there is none. -/
def put (b : Bank w) (i : Nat) (v : w.Value) : Bank w := (b.set? i v).getD b

def putAll (b : Bank w) : Nat → List w.Value → Bank w
  | _, [] => b
  | i, v :: vs => (b.put i v).putAll (i + 1) vs

/-- Whether a range was replaced, and the bank after it. -/
def fill (b : Bank w) (start : Nat) (vs : List w.Value) : Bool × Bank w :=
  if b.holds start vs.length then (true, b.putAll start vs) else (false, b)

/-! ### Ranges as a whole -/

variable {b b' : Bank w} {start count : Nat} {vs : List w.Value}

theorem holds_eq_contains (h : b.length < UInt64.size) (start count : Nat) :
    b.holds start count = b.contains start count := by
  have h64 : UInt64.size = Nat.pow 2 64 := by decide
  exact Window.any_sum? (h64 ▸ h) start count

theorem gather_eq_read? (h : b.length < UInt64.size) (start count : Nat) :
    b.gather start count = b.read? start count := by
  unfold gather read?
  rw [holds_eq_contains h]
  split
  · next hc => rw [filterMap_get? ((b.contains_iff start count).mp hc)]
  · rfl

theorem write?_eq_putAll (h : start + vs.length ≤ b.length) :
    b.write? start vs = some (b.putAll start vs) := by
  -- each step leaves the bank as long as it was, so the rest of the range still fits
  induction vs generalizing b start with
  | nil => exact write?_eq_some_iff.mpr ⟨h, rfl, rfl⟩
  | cons v vs ih =>
    simp only [List.length_cons] at h
    obtain ⟨next, hnext⟩ : ∃ next, b.set? start v = some next := ⟨_, if_pos (by omega)⟩
    have hput : b.put start v = next := by simp [put, hnext]
    rw [set?_eq_write?, write?_eq_some_iff] at hnext
    obtain ⟨-, hlength, hcells⟩ := hnext
    have hlater : next.write? (start + 1) vs = some (next.putAll (start + 1) vs) :=
      ih (by omega)
    obtain ⟨-, hlength', hcells'⟩ := write?_eq_some_iff.mp hlater
    rw [putAll, hput, write?_eq_some_iff]
    refine ⟨h, hlength'.trans hlength, ?_⟩
    rw [hcells', hcells]
    rfl

theorem fill_eq_write? (h : b.length < UInt64.size) (start : Nat) (vs : List w.Value) :
    b.fill start vs = ((b.write? start vs).isSome, (b.write? start vs).getD b) := by
  unfold fill
  rw [holds_eq_contains h]
  by_cases hc : b.contains start vs.length = true
  · rw [if_pos hc, write?_eq_putAll ((b.contains_iff ..).mp hc)]
    rfl
  · rw [if_neg hc, write?, if_neg hc]
    rfl

theorem read?_write? (h : b.write? start vs = some b') : b'.read? start vs.length = some vs := by
  obtain ⟨hfit, hlength, -⟩ := write?_eq_some_iff.mp h
  obtain ⟨found, hfound⟩ := Option.isSome_iff_exists.mp
    ((b'.isSome_read? start vs.length).mpr (by omega))
  have hsame : found = vs := by
    apply List.ext_getElem?
    intro k
    by_cases hk : k < vs.length
    · rw [getElem?_read? hfound hk, get?_write? h, if_pos (by omega), Nat.add_sub_cancel_left]
    · have hshort : found.length = vs.length := length_read? hfound
      simp [Nat.le_of_not_lt hk, hshort]
  rw [hfound, hsame]

theorem gather_of_write? (hlength : b.length < UInt64.size) (h : b.write? start vs = some b') :
    b'.gather start vs.length = some vs := by
  obtain ⟨-, hsame, -⟩ := write?_eq_some_iff.mp h
  rw [gather_eq_read? (hsame ▸ hlength), read?_write? h]

theorem fill_of_write? (hlength : b.length < UInt64.size) (h : b.write? start vs = some b')
    {later : List w.Value} (hlater : later.length = vs.length) :
    b'.fill start later = b.fill start later := by
  obtain ⟨hfit, hsame, -⟩ := write?_eq_some_iff.mp h
  rw [← hlater] at hfit
  have hagain : b'.write? start later = b.write? start later := write?_write? h hlater
  -- the later values fit, so neither bank answers with itself as it was
  rw [fill_eq_write? (hsame ▸ hlength), fill_eq_write? hlength, hagain, write?_eq_putAll hfit]
  rfl

/-! ### Arrays -/

/-- A bank has a range if and only if the end of it, as an unbounded number, is not past the end of
the bank. The values written to such a range are found there afterwards, one by one and all at once,
whatever was written there before, and all other elements are as before; a write to any other range
changes nothing. Exactly the ranges that the bank has are read, and found are their elements. -/
theorem ranges_are_arrays (b : Bank w) (hlength : b.length < UInt64.size) :
    (∀ start count, b.contains start count = b.holds start count ∧
      (b.holds start count = true ↔ start + count ≤ b.length)) ∧
    (∀ (start : Nat) (vs : List w.Value), ∃ done after, b.fill start vs = (done, after) ∧
      b.write? start vs = (if done then some after else none) ∧
      (done = true ↔ b.holds start vs.length = true) ∧
      after.length = b.length ∧
      (∀ i, after.get? i =
        if done = true ∧ start ≤ i ∧ i < start + vs.length then vs[i - start]? else b.get? i) ∧
      (done = true → after.gather start vs.length = some vs) ∧
      ∀ later : List w.Value, later.length = vs.length →
        after.fill start later = b.fill start later) ∧
    ∀ start count, b.gather start count = b.read? start count ∧
      ((b.gather start count).isSome = true ↔ b.holds start count = true) ∧
      ∀ found, b.gather start count = some found →
        found.length = count ∧ ∀ k < count, found[k]? = b.get? (start + k) := by
  refine ⟨?_, ?_, ?_⟩
  · intro start count
    have heq := holds_eq_contains hlength start count
    exact ⟨heq.symm, by rw [heq, contains_iff]⟩
  · intro start vs
    have hfill := fill_eq_write? hlength start vs
    have hdone : (b.write? start vs).isSome = true ↔ b.holds start vs.length = true := by
      rw [isSome_write?, holds_eq_contains hlength, contains_iff]
    cases hwrite : b.write? start vs with
    | none =>
      rw [hwrite] at hfill hdone
      exact ⟨false, b, hfill, rfl, hdone, rfl, fun i => by simp, nofun, fun _ _ => rfl⟩
    | some after =>
      rw [hwrite] at hfill hdone
      obtain ⟨-, hsame, -⟩ := write?_eq_some_iff.mp hwrite
      refine ⟨true, after, hfill, rfl, hdone, hsame, ?_, fun _ => gather_of_write? hlength hwrite,
        fun _ => fill_of_write? hlength hwrite⟩
      intro i
      rw [get?_write? hwrite]
      simp
  · intro start count
    have hread := gather_eq_read? hlength start count
    refine ⟨hread, ?_, ?_⟩
    · rw [hread, isSome_read?, holds_eq_contains hlength, contains_iff]
    · intro found hfound
      rw [hread] at hfound
      exact ⟨length_read? hfound, fun k hk => getElem?_read? hfound hk⟩

/-- Of three registers the last two are written, twice, and two from the last one on are not; a
range whose end is no number of 64 bits is not read. -/
theorem two_of_three_registers :
    (zeros .word 3).length < UInt64.size ∧
      (∃ after, (zeros .word 3).fill 1 [0xBEEF, 7] = (true, after) ∧ after.get? 0 = some 0 ∧
        after.gather 1 2 = some [0xBEEF, 7] ∧
        after.fill 1 [1, 2] = (zeros .word 3).fill 1 [1, 2]) ∧
      (∃ after, (zeros .word 3).fill 2 [0xBEEF, 7] = (false, after) ∧ after.get? 2 = some 0) ∧
      (zeros .word 3).gather (UInt64.size - 1) 2 = none := by
  have hlength : (zeros .word 3).length < UInt64.size := by decide
  obtain ⟨-, hfill, hgather⟩ := ranges_are_arrays (zeros .word 3) hlength
  refine ⟨hlength, ?_, ?_, ?_⟩
  · obtain ⟨done, after, heq, -, hdone, -, hget, hfound, hagain⟩ := hfill 1 [0xBEEF, 7]
    obtain rfl : done = true := hdone.mpr (by decide)
    exact ⟨after, heq, hget 0, hfound rfl, hagain [1, 2] rfl⟩
  · obtain ⟨done, after, heq, -, hdone, -, hget, -⟩ := hfill 2 [0xBEEF, 7]
    obtain rfl : done = false := Bool.eq_false_iff.mpr fun h => absurd (hdone.mp h) (by decide)
    exact ⟨after, heq, hget 2⟩
  · obtain ⟨-, hsome, -⟩ := hgather (UInt64.size - 1) 2
    exact Option.not_isSome_iff_eq_none.mp fun h => absurd (hsome.mp h) (by decide)

end Bank
end RtuStation
