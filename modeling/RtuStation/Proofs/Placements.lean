import RtuStation.Proofs.Refusals

/-!
# Placements of values

What a frame does to the banks is to place values on adjacent elements of one bank, or nothing.
`Station.exists_placement` tells that its placement and its reply are the same for all states of the
banks that have the same lengths and agree on the elements that the frame reads. Values that are
placed on different elements can be placed in either order (`Banks.stored_comm`).

A frame reads the elements whose values it returns in its reply, and those that it combines with a
mask. A frame to all stations returns nothing.
-/

namespace RtuStation

namespace Extent

/-- Whether the range has an element of a bank. -/
def Has (e : Extent) (k : BankKind) (i : Nat) : Prop :=
  e.bank = k ∧ e.start ≤ i ∧ i < e.start + e.count

/-- The elements whose values the answer to a function code with its data returns. -/
def returned? : Octets → Option Extent
  | 0x01 :: a :: b :: c :: d :: _ => some ⟨.coils, (word a b).toNat, (word c d).toNat⟩
  | 0x02 :: a :: b :: c :: d :: _ => some ⟨.discreteInputs, (word a b).toNat, (word c d).toNat⟩
  | 0x03 :: a :: b :: c :: d :: _ => some ⟨.holdingRegisters, (word a b).toNat, (word c d).toNat⟩
  | 0x04 :: a :: b :: c :: d :: _ => some ⟨.inputRegisters, (word a b).toNat, (word c d).toNat⟩
  | 0x17 :: a :: b :: c :: d :: _ => some ⟨.holdingRegisters, (word a b).toNat, (word c d).toNat⟩
  | _ => none

/-- The elements whose values are combined with a mask. -/
def combined? : Octets → Option Extent
  | 0x16 :: a :: b :: _ => some ⟨.holdingRegisters, (word a b).toNat, 1⟩
  | _ => none

end Extent

/-- Values for adjacent elements of a bank. -/
structure Placement where
  bank : BankKind
  start : Nat
  values : List bank.width.Value

namespace Placement

def extent (x : Placement) : Extent := ⟨x.bank, x.start, x.values.length⟩

/-- Whether two placements, as far as there are any, have no element in common. -/
def Apart (x y : Option Placement) : Prop :=
  ∀ p ∈ x, ∀ q ∈ y, ∀ k i, ¬(p.extent.Has k i ∧ q.extent.Has k i)

end Placement

/-! ### Banks with values placed -/

namespace Bank

variable {w : Width}

theorem fits_storeAll (b : Bank w) (start : Nat) (vs : List w.Value) :
    b.length * w.octets ≤ (storeAll w b.cells start vs).size := by
  rw [size_storeAll]
  exact b.fits

/-- The bank with values stored from a position on. -/
def stored (b : Bank w) (start : Nat) (vs : List w.Value) : Bank w :=
  { b with cells := storeAll w b.cells start vs, fits := b.fits_storeAll start vs }

theorem eq_stored_of_write? {b b' : Bank w} {start : Nat} {vs : List w.Value}
    (h : b.write? start vs = some b') : b' = b.stored start vs := by
  obtain ⟨-, hlength, hcells⟩ := write?_eq_some_iff.mp h
  cases b'
  cases hlength
  cases hcells
  rfl

theorem storeAll_comm (w : Width) (cells : Array UInt8) {i j : Nat} (us vs : List w.Value)
    (h : ∀ k, i ≤ k → k < i + us.length → ¬(j ≤ k ∧ k < j + vs.length)) :
    storeAll w (storeAll w cells i us) j vs = storeAll w (storeAll w cells j vs) i us := by
  induction us generalizing cells i with
  | nil => rfl
  | cons u us ih =>
    simp only [List.length_cons] at h
    have hhead := h i (Nat.le_refl i) (by omega)
    rw [storeAll, storeAll, ih _ fun k hlow hhigh => h k (by omega) (by omega),
      store_storeAll_comm w cells u vs (by omega)]

theorem stored_comm (b : Bank w) {i j : Nat} (us vs : List w.Value)
    (h : ∀ k, i ≤ k → k < i + us.length → ¬(j ≤ k ∧ k < j + vs.length)) :
    (b.stored i us).stored j vs = (b.stored j vs).stored i us := by
  simp only [stored, storeAll_comm w b.cells us vs h]

theorem get?_stored_of_outside (b : Bank w) {start i : Nat} (vs : List w.Value)
    (h : ¬(start ≤ i ∧ i < start + vs.length)) : (b.stored start vs).get? i = b.get? i := by
  have hload : load w (storeAll w b.cells start vs) i = load w b.cells i := by
    by_cases hlow : i < start
    · exact load_storeAll_of_lt w b.cells vs hlow
    · exact load_storeAll_of_ge w b.cells vs (by omega)
  simp only [get?, stored, hload]

theorem read?_congr {b b' : Bank w} {start count : Nat} (hlength : b.length = b'.length)
    (h : ∀ i, start ≤ i → i < start + count → b.get? i = b'.get? i) :
    b.read? start count = b'.read? start count := by
  by_cases hfit : start + count ≤ b.length
  · have hload : ∀ i ∈ List.range' start count, load w b.cells i = load w b'.cells i := by
      intro i hi
      obtain ⟨hlow, hhigh⟩ := List.mem_range'_1.mp hi
      have hget := h i hlow hhigh
      rw [get?, get?, if_pos (by omega), if_pos (by omega)] at hget
      exact Option.some.inj hget
    simp only [read?, contains, ← hlength, List.map_congr_left hload]
  · simp only [read?, contains, ← hlength, hfit, decide_false]
    rfl

end Bank

namespace Banks

/-- The banks with the values of a placement in them, if there is one. -/
def stored (b : Banks) : Option Placement → Banks
  | none => b
  | some x => b.put x.bank ((b.get x.bank).stored x.start x.values)

/-- Whether two states of the banks have the same lengths. -/
def Alike (b b' : Banks) : Prop := ∀ k, (b.get k).length = (b'.get k).length

/-- Whether two states of the banks have the same elements in a range. -/
def AgreeOn (b b' : Banks) (e : Extent) : Prop :=
  ∀ i, e.start ≤ i → i < e.start + e.count → (b.get e.bank).get? i = (b'.get e.bank).get? i

@[simp] theorem get_put_self (b : Banks) (k : BankKind) (x : Bank k.width) :
    (b.put k x).get k = x := by
  cases k <;> rfl

theorem get_put_of_ne (b : Banks) {k l : BankKind} (x : Bank k.width) (h : k ≠ l) :
    (b.put k x).get l = b.get l := by
  cases k <;> cases l <;> first | rfl | exact absurd rfl h

@[simp] theorem put_put_self (b : Banks) (k : BankKind) (x y : Bank k.width) :
    (b.put k x).put k y = b.put k y := by
  cases k <;> rfl

theorem put_comm (b : Banks) {k l : BankKind} (x : Bank k.width) (y : Bank l.width) (h : k ≠ l) :
    (b.put k x).put l y = (b.put l y).put k x := by
  cases k <;> cases l <;> first | rfl | exact absurd rfl h

theorem alike_stored (b : Banks) (x : Option Placement) : b.Alike (b.stored x) := by
  intro k
  cases x with
  | none => rfl
  | some x =>
    by_cases hk : x.bank = k
    · subst hk
      rw [stored, get_put_self]
      rfl
    · rw [stored, get_put_of_ne _ _ hk]

theorem get?_stored_of_not_has (b : Banks) {x : Option Placement} {k : BankKind} {i : Nat}
    (h : ∀ p ∈ x, ¬p.extent.Has k i) : ((b.stored x).get k).get? i = (b.get k).get? i := by
  cases x with
  | none => rfl
  | some x =>
    by_cases hk : x.bank = k
    · subst hk
      rw [stored, get_put_self]
      exact Bank.get?_stored_of_outside _ x.values fun hi => h x rfl ⟨rfl, hi⟩
    · rw [stored, get_put_of_ne _ _ hk]

theorem stored_comm (b : Banks) {x y : Option Placement} (h : Placement.Apart x y) :
    (b.stored x).stored y = (b.stored y).stored x := by
  cases x with
  | none => rfl
  | some x =>
    cases y with
    | none => rfl
    | some y =>
      obtain ⟨k, i, us⟩ := x
      obtain ⟨l, j, vs⟩ := y
      simp only [stored]
      by_cases hk : k = l
      · subst hk
        have hapart : ∀ n, i ≤ n → n < i + us.length → ¬(j ≤ n ∧ n < j + vs.length) :=
          fun n hlow hhigh hn => h _ rfl _ rfl k n ⟨⟨rfl, hlow, hhigh⟩, ⟨rfl, hn⟩⟩
        simp only [get_put_self, put_put_self, Bank.stored_comm _ us vs hapart]
      · rw [get_put_of_ne _ _ hk, get_put_of_ne _ _ (Ne.symm hk), put_comm _ _ _ hk]

end Banks

/-! ### The placement of a request -/

namespace Extent

theorem inside_congr {b b' : Banks} (halike : b.Alike b') (e : Extent) :
    e.Inside b ↔ e.Inside b' := by
  rw [Inside, Inside, halike e.bank]

end Extent

namespace Request

/-- What a request places, if the holding registers hold what `held` tells. -/
def placement? (held : Nat → UInt16) (r : Request) : Option Placement :=
  match r.coilBlock?, r.registerBlock? held with
  | some (start, vs), _ => some ⟨.coils, start, vs⟩
  | none, some (start, vs) => some ⟨.holdingRegisters, start, vs⟩
  | none, none => none

theorem map_extent_placement? (held : Nat → UInt16) (r : Request) :
    (r.placement? held).map Placement.extent = r.extent? held := by
  unfold placement? extent?
  cases r.coilBlock? with
  | some block => rfl
  | none => cases r.registerBlock? held <;> rfl

theorem apply_of_perform? {unit : UInt8} {banks : Banks} {r : Request} {data : Octets}
    {change : Change} (h : r.perform? unit banks = some (data, change)) :
    banks.apply change = banks.stored (r.placement? banks.holdingRegister) := by
  rcases change_of_perform? h with
    ⟨rfl, hc, hr⟩ | ⟨start, vs, bank, rfl, hc, hr, hb⟩ | ⟨start, vs, bank, rfl, hc, hr, hb⟩
  · simp only [placement?, hc, hr]
    rfl
  · simp only [placement?, hc, Bank.eq_stored_of_write? hb]
    rfl
  · simp only [placement?, hc, hr, Bank.eq_stored_of_write? hb]
    rfl

theorem isSome_perform?_congr {pdu : Octets} {r : Request} (hf : Form pdu r) (unit : UInt8)
    {banks other : Banks} (halike : banks.Alike other) :
    (r.perform? unit banks).isSome ↔ (r.perform? unit other).isSome := by
  rw [isSome_perform?_iff hf, isSome_perform?_iff hf]
  exact forall₂_congr fun e _ => e.inside_congr halike

theorem placement?_congr {pdu : Octets} {r : Request} (hf : Form pdu r) {unit : UInt8}
    {banks other : Banks} (hagree : ∀ e ∈ Extent.combined? pdu, banks.AgreeOn other e)
    {result : Octets × Change} (h : r.perform? unit banks = some result) :
    r.placement? other.holdingRegister = r.placement? banks.holdingRegister := by
  cases hf with
  | @maskWriteRegister a b =>
    obtain ⟨value, hv, -⟩ := Option.bind_eq_some_iff.mp h
    have hv' : other.holdingRegisters.get? (word a b).toNat = some value :=
      (hagree _ rfl _ (Nat.le_refl _) (Nat.lt_succ_self _)).symm.trans hv
    simp only [placement?, coilBlock?, registerBlock?, holdingRegister_of_get? hv,
      holdingRegister_of_get? hv']
  | _ => rfl

theorem data_congr {pdu : Octets} {r : Request} (hf : Form pdu r) {unit : UInt8}
    {banks other : Banks} (halike : banks.Alike other)
    (hagree : ∀ e ∈ Extent.returned? pdu, banks.AgreeOn other e) {data data' : Octets}
    {change change' : Change} (h : r.perform? unit banks = some (data, change))
    (h' : r.perform? unit other = some (data', change')) : data' = data := by
  -- the same access to both banks is followed by the same
  have hthen {α : Type} {x y : Option α} {f : α → Option (Octets × Change)} (hxy : x = y)
      (hx : x.bind f = some (data, change)) (hy : y.bind f = some (data', change')) :
      data' = data := by
    rw [← hxy, hx] at hy
    cases hy
    rfl
  cases hf with
  | readCoils => exact hthen (Bank.read?_congr (halike .coils) (hagree _ rfl)) h h'
  | readDiscreteInputs =>
    exact hthen (Bank.read?_congr (halike .discreteInputs) (hagree _ rfl)) h h'
  | readHoldingRegisters =>
    exact hthen (Bank.read?_congr (halike .holdingRegisters) (hagree _ rfl)) h h'
  | readInputRegisters =>
    exact hthen (Bank.read?_congr (halike .inputRegisters) (hagree _ rfl)) h h'
  | coilOn | coilOff | writeRegister | writeCoils | writeRegisters =>
    obtain ⟨_, -, hr⟩ := Option.bind_eq_some_iff.mp h
    obtain ⟨_, -, hr'⟩ := Option.bind_eq_some_iff.mp h'
    cases hr
    cases hr'
    rfl
  | reportServerId =>
    cases h
    cases h'
    rfl
  | maskWriteRegister =>
    obtain ⟨_, -, hrest⟩ := Option.bind_eq_some_iff.mp h
    obtain ⟨_, -, hrest'⟩ := Option.bind_eq_some_iff.mp h'
    obtain ⟨_, -, hr⟩ := Option.bind_eq_some_iff.mp hrest
    obtain ⟨_, -, hr'⟩ := Option.bind_eq_some_iff.mp hrest'
    cases hr
    cases hr'
    rfl
  | @writeReadRegisters a b c d =>
    obtain ⟨bank, hb, hrest⟩ := Option.bind_eq_some_iff.mp h
    obtain ⟨bank', hb', hrest'⟩ := Option.bind_eq_some_iff.mp h'
    obtain ⟨words, hwords, hr⟩ := Option.bind_eq_some_iff.mp hrest
    obtain ⟨words', hwords', hr'⟩ := Option.bind_eq_some_iff.mp hrest'
    have hlength : bank.length = bank'.length := by
      rw [(Bank.write?_eq_some_iff.mp hb).2.1, (Bank.write?_eq_some_iff.mp hb').2.1]
      exact halike .holdingRegisters
    -- what is read is what has been written, and else what was there
    have hread : bank.read? (word a b).toNat (word c d).toNat =
        bank'.read? (word a b).toNat (word c d).toNat := by
      refine Bank.read?_congr hlength fun i hlow hhigh => ?_
      have hheld : banks.holdingRegisters.get? i = other.holdingRegisters.get? i :=
        hagree _ rfl i hlow hhigh
      rw [Bank.get?_write? hb, Bank.get?_write? hb', hheld]
    cases hwords.symm.trans (hread.trans hwords')
    cases hr
    cases hr'
    rfl

theorem respond_congr_of_error {unit : UInt8} {pdu : Octets} {banks other : Banks} {e : Exception}
    (halike : banks.Alike other) (h : respond unit pdu banks = .error e) :
    respond unit pdu other = .error e := by
  unfold respond at h ⊢
  cases hd : decode pdu with
  | error e' =>
    rw [hd] at h
    exact h
  | ok r =>
    have hf := decode_eq_ok_iff.mp hd
    have hreach := isSome_perform?_congr hf unit halike
    simp only [hd] at h
    split at h
    · next hnone =>
      have hnone' : r.perform? unit other = none := by
        rw [hnone] at hreach
        exact Option.not_isSome_iff_eq_none.mp fun hsome => nomatch hreach.mpr hsome
      simp only [hnone']
      exact h
    · cases h

end Request

namespace Station

variable (s : Station) (frame : Octets) (banks : Banks)

/-- Whether a frame is carried out and writes an element. -/
def Writes (k : BankKind) (i : Nat) : Prop :=
  s.Accepts frame banks ∧ ∃ e ∈ Extent.written? (pdu frame), e.Has k i

/-- Whether a frame is carried out and combines the value of an element, or returns it. -/
def Reads (k : BankKind) (i : Nat) : Prop :=
  s.Accepts frame banks ∧
    ((∃ e ∈ Extent.combined? (pdu frame), e.Has k i) ∨
      (frame.headD 0 ≠ broadcast ∧ ∃ e ∈ Extent.returned? (pdu frame), e.Has k i))

/-- What a frame places, it places on the elements that it writes. On all banks of the same lengths
that agree on the elements that it reads, it places the same values and gets the same reply. -/
theorem exists_placement :
    ∃ x : Option Placement, (∀ p ∈ x, ∀ k i, p.extent.Has k i → s.Writes frame banks k i) ∧
      ∀ other, banks.Alike other →
        (∀ k i, s.Reads frame banks k i → (banks.get k).get? i = (other.get k).get? i) →
        s.process frame other = ((s.process frame banks).1, other.stored x) := by
  by_cases h : s.Accepts frame banks
  · obtain ⟨r, data, change, hf, hperform, -, -⟩ := request_of_accepts h
    refine ⟨r.placement? banks.holdingRegister, fun p hp k i hi => ⟨h, p.extent, ?_, hi⟩,
      fun other halike hreads => ?_⟩
    · rw [Request.written?_of_form hf banks.holdingRegister, ← Request.map_extent_placement?,
        Option.mem_def.mp hp]
      rfl
    · obtain ⟨⟨data', change'⟩, hperform'⟩ := Option.isSome_iff_exists.mp
        ((Request.isSome_perform?_congr hf s.unit halike).mp (hperform ▸ rfl))
      have hplacement := Request.placement?_congr hf (fun e he i hlow hhigh =>
        hreads e.bank i ⟨h, .inl ⟨e, he, rfl, hlow, hhigh⟩⟩) hperform
      rw [process_of_perform? h.1 hf hperform', process_of_perform? h.1 hf hperform,
        Request.apply_of_perform? hperform', hplacement]
      -- only a frame that is answered depends on what it returns
      by_cases hown : frame.headD 0 = broadcast
      · rw [if_pos hown, if_pos hown]
      · have hdata := Request.data_congr hf halike (fun e he i hlow hhigh =>
          hreads e.bank i ⟨h, .inr ⟨hown, e, he, rfl, hlow, hhigh⟩⟩) hperform hperform'
        rw [hdata]
  · refine ⟨none, nofun, fun other halike _ => ?_⟩
    by_cases hh : s.Hears frame
    · cases hr : Request.respond s.unit (pdu frame) banks with
      | ok result => exact absurd ⟨hh, result, hr⟩ h
      | error e =>
        have hr' := Request.respond_congr_of_error halike hr
        simp only [process, answer_of_hears hh, hr, hr']
        split <;> rfl
    · rw [process_of_not_hears hh, process_of_not_hears hh]
      rfl

end Station
end RtuStation
