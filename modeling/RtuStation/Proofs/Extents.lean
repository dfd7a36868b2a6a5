import RtuStation.Proofs.Answers
import RtuStation.Proofs.Payloads

/-!
# What a frame can change

The elements that a request writes are told by the octets of its function code and data
(`Extent.written?`). Over a store with four segments of its own, a frame that is not carried out
leaves every octet as it is, and one that is carried out leaves every octet outside those elements
as it is. The banks that are seen in the segments change as those of a station do
(`execute_eq_process`).
-/

namespace RtuStation

structure Extent where
  bank : BankKind
  start : Nat
  count : Nat
  deriving DecidableEq, Repr

namespace Extent

/-- Whether the octet at a position of the bank's segment belongs to an element of the range. -/
def Covers (e : Extent) (i : Nat) : Prop :=
  e.start ≤ i / e.bank.elementSize ∧ i / e.bank.elementSize < e.start + e.count

instance (e : Extent) (i : Nat) : Decidable (e.Covers i) := inferInstanceAs (Decidable (_ ∧ _))

/-- The elements that a function code with its data writes if it is carried out. -/
def written? : Octets → Option Extent
  | 0x05 :: a :: b :: _ => some ⟨.coils, (word a b).toNat, 1⟩
  | 0x06 :: a :: b :: _ => some ⟨.holdingRegisters, (word a b).toNat, 1⟩
  | 0x0F :: a :: b :: c :: d :: _ => some ⟨.coils, (word a b).toNat, (word c d).toNat⟩
  | 0x10 :: a :: b :: c :: d :: _ => some ⟨.holdingRegisters, (word a b).toNat, (word c d).toNat⟩
  | 0x16 :: a :: b :: _ => some ⟨.holdingRegisters, (word a b).toNat, 1⟩
  | 0x17 :: _ :: _ :: _ :: _ :: a :: b :: c :: d :: _ =>
    some ⟨.holdingRegisters, (word a b).toNat, (word c d).toNat⟩
  | _ => none

end Extent

namespace Request

def extent? (held : Nat → UInt16) (r : Request) : Option Extent :=
  match r.coilBlock?, r.registerBlock? held with
  | some (start, vs), _ => some ⟨.coils, start, vs.length⟩
  | none, some (start, vs) => some ⟨.holdingRegisters, start, vs.length⟩
  | none, none => none

theorem written?_of_form {pdu : Octets} {r : Request} (hf : Form pdu r) (held : Nat → UInt16) :
    Extent.written? pdu = r.extent? held := by
  cases hf with
  | writeCoils =>
    simp only [extent?, coilBlock?, Octets.length_unpackBits]
    rfl
  | writeRegisters _ _ _ paired =>
    simp only [extent?, coilBlock?, registerBlock?, Octets.length_words paired]
    rfl
  | writeReadRegisters _ _ _ _ _ paired =>
    simp only [extent?, coilBlock?, registerBlock?, Octets.length_words paired]
    rfl
  | _ => rfl

end Request

namespace Store

/-- Whether the banks lie in four segments of their own. -/
def Distinct (store : Store) : Prop :=
  ∀ k l, (store.mappings.get k).object = (store.mappings.get l).object → k = l

def memory (store : Store) (w : World) (k : BankKind) : Memory := (store.mappings.get k).memory w

variable {store : Store} {w : World} {k : BankKind} {bank : Bank k.width} {start : Nat}
  {vs : List k.width.Value}

theorem memory_putBank_of_ne {width : Width} (distinct : store.Distinct) (bank : Bank width)
    {l : BankKind} (h : l ≠ k) : store.memory ((store.putBank k bank).run w).2 l = store.memory w l :=
  Mapping.memory_setCells_of_ne bank.cells w fun ho => h (distinct l k ho)

theorem octet_putBank_of_not_covers (h : (store.bank w k).write? start vs = some bank) {i : Nat}
    (hi : ¬Extent.Covers ⟨k, start, vs.length⟩ i) :
    (store.memory ((store.putBank k bank).run w).2 k).octet i = (store.memory w k).octet i := by
  obtain ⟨-, -, hcells⟩ := Bank.write?_eq_some_iff.mp h
  apply Mapping.octet_setCells_of_eq
  rw [hcells]
  apply Bank.getElem?_storeAll_of_outside
  cases k
  all_goals
    simp only [Extent.Covers, BankKind.elementSize, BankKind.width, Width.octets] at hi ⊢
    omega

theorem octet_putBank_of_not_written (distinct : store.Distinct)
    (h : (store.bank w k).write? start vs = some bank) {l : BankKind} {i : Nat}
    (hi : ¬(k = l ∧ Extent.Covers ⟨k, start, vs.length⟩ i)) :
    (store.memory ((store.putBank k bank).run w).2 l).octet i = (store.memory w l).octet i := by
  by_cases hl : l = k
  · subst hl
    exact octet_putBank_of_not_covers h fun hcovers => hi ⟨rfl, hcovers⟩
  · rw [memory_putBank_of_ne distinct bank hl]

theorem octet_putBank_coils {bank : Bank .bit} {vs : List Bool}
    (h : (store.banks w).coils.write? start vs = some bank) {i : Nat}
    (hi : Extent.Covers ⟨.coils, start, vs.length⟩ i) :
    (store.memory ((store.putBank .coils bank).run w).2 .coils).octet i = 0 ∨
      (store.memory ((store.putBank .coils bank).run w).2 .coils).octet i = 1 := by
  obtain ⟨hfit, -, hcells⟩ := Bank.write?_eq_some_iff.mp h
  have hroom := (store.banks w).coils.fits
  simp only [Width.octets] at hroom
  simp only [Extent.Covers, BankKind.elementSize, BankKind.width, Width.octets,
    Nat.div_one] at hi
  have hsize : i < ((store.mappings.get .coils).cells w).size :=
    Nat.lt_of_lt_of_le (by omega) hroom
  rcases Bank.getElem?_storeAll_bit (store.banks w).coils.cells start vs hi (by omega) with h0 | h1
  · exact Or.inl (Mapping.octet_setCells_of_some _ hsize (by rw [hcells, h0]))
  · exact Or.inr (Mapping.octet_setCells_of_some _ hsize (by rw [hcells, h1]))

/-! ### The station's banks in the segments -/

theorem bank_putBank_self (h : (store.bank w k).write? start vs = some bank) :
    store.bank ((store.putBank k bank).run w).2 k = bank := by
  obtain ⟨hsize, hbank⟩ := Bank.ofCells_of_write? h
  have hcells : (store.mappings.get k).cells ((store.putBank k bank).run w).2 = bank.cells :=
    Mapping.cells_setCells _ hsize
  simp only [Store.bank, hcells]
  exact hbank

theorem bank_putBank_of_ne {width : Width} (distinct : store.Distinct) (bank : Bank width)
    {l : BankKind} (h : l ≠ k) :
    store.bank ((store.putBank k bank).run w).2 l = store.bank w l := by
  have hmemory : (store.mappings.get l).memory ((store.putBank k bank).run w).2 =
      (store.mappings.get l).memory w := memory_putBank_of_ne distinct bank h
  simp only [Store.bank, Mapping.cells, hmemory]

theorem banks_apply (distinct : store.Distinct) {r : Request} {unit : UInt8} {data : Octets}
    {change : Change} (h : r.perform? unit (store.banks w) = some (data, change)) :
    store.banks ((store.apply change).run w).2 = (store.banks w).apply change := by
  rcases Request.change_of_perform? h with
    ⟨rfl, -, -⟩ | ⟨start, vs, bank, rfl, -, -, hb⟩ | ⟨start, vs, bank, rfl, -, -, hb⟩
  · rfl
  · have hself : store.bank ((store.putBank .coils bank).run w).2 .coils = bank :=
      bank_putBank_self hb
    have hothers (l : BankKind) (hl : l ≠ .coils) :
        store.bank ((store.putBank .coils bank).run w).2 l = store.bank w l :=
      bank_putBank_of_ne distinct bank hl
    simp only [banks, apply, Banks.apply, hself, hothers .discreteInputs (by decide),
      hothers .holdingRegisters (by decide), hothers .inputRegisters (by decide)]
  · have hself : store.bank ((store.putBank .holdingRegisters bank).run w).2 .holdingRegisters =
        bank := bank_putBank_self hb
    have hothers (l : BankKind) (hl : l ≠ .holdingRegisters) :
        store.bank ((store.putBank .holdingRegisters bank).run w).2 l = store.bank w l :=
      bank_putBank_of_ne distinct bank hl
    simp only [banks, apply, Banks.apply, hself, hothers .coils (by decide),
      hothers .discreteInputs (by decide), hothers .inputRegisters (by decide)]

/-- A frame is answered over the segments, and changes them, as a station does with its banks. -/
theorem execute_eq_process (distinct : store.Distinct) (station : Station) (frame : Octets)
    (w : World) :
    ((store.execute station.engine frame).run w).1 = (station.process frame (store.banks w)).1 ∧
      store.banks ((store.execute station.engine frame).run w).2 =
        (station.process frame (store.banks w)).2 := by
  obtain ⟨hreply, hsegments⟩ := store.execute_run station.engine frame w
  refine ⟨hreply, (store.banks_congr hsegments).trans ?_⟩
  show store.banks ((store.apply (station.answer frame (store.banks w)).change).run w).2 =
    (store.banks w).apply (station.answer frame (store.banks w)).change
  by_cases ha : station.Accepts frame (store.banks w)
  · obtain ⟨r, data, change, -, hperform, hchange, -⟩ := Station.request_of_accepts ha
    rw [hchange]
    exact banks_apply distinct hperform
  · rw [Station.change_of_not_accepts ha]
    rfl

/-! ### What stays as it is -/

theorem memory_congr {w w' : World} (h : w'.segments = w.segments) (k : BankKind) :
    store.memory w' k = store.memory w k := by
  simp only [memory, Mapping.memory, h]

theorem segments_execute_of_nothing {station : Station} {frame : Octets}
    (h : (station.answer frame (store.banks w)).change = .nothing) :
    ((store.execute station.engine frame).run w).2.segments = w.segments := by
  have hchange : (station.engine.answer frame (store.banks w)).change = .nothing := h
  rw [(store.execute_run station.engine frame w).2, hchange]
  rfl

/-- What a carried out frame does to the segments: nothing, or it touches only the elements it
writes, and leaves 0 or 1 in the octets of coils among them. -/
theorem execute_of_accepts {station : Station} {frame : Octets} (distinct : store.Distinct)
    (h : station.Accepts frame (store.banks w)) :
    (Extent.written? (Station.pdu frame) = none ∧
      ((store.execute station.engine frame).run w).2.segments = w.segments) ∨
    ∃ e, Extent.written? (Station.pdu frame) = some e ∧
      (e.bank = .coils ∨ e.bank = .holdingRegisters) ∧
      (∀ k i, ¬(e.bank = k ∧ e.Covers i) →
        (store.memory ((store.execute station.engine frame).run w).2 k).octet i =
          (store.memory w k).octet i) ∧
      (e.bank = .coils → ∀ i, e.Covers i →
        (store.memory ((store.execute station.engine frame).run w).2 .coils).octet i = 0 ∨
        (store.memory ((store.execute station.engine frame).run w).2 .coils).octet i = 1) := by
  obtain ⟨r, data, change, hform, hperform, hchange, -⟩ := Station.request_of_accepts h
  have hwritten := Request.written?_of_form hform (store.banks w).holdingRegister
  have hsegments := (store.execute_run station.engine frame w).2
  rw [show (station.engine.answer frame (store.banks w)).change = change from hchange]
    at hsegments
  unfold Request.extent? at hwritten
  -- nothing, coils or holding registers
  rcases Request.change_of_perform? hperform with
    ⟨rfl, hc, hr⟩ | ⟨start, vs, bank, rfl, hc, -, hb⟩ | ⟨start, vs, bank, rfl, hc, hr, hb⟩
  · rw [hc, hr] at hwritten
    exact Or.inl ⟨hwritten, hsegments⟩
  · rw [hc] at hwritten
    have hafter (k : BankKind) : store.memory ((store.execute station.engine frame).run w).2 k =
        store.memory ((store.putBank .coils bank).run w).2 k := memory_congr hsegments k
    refine Or.inr ⟨_, hwritten, Or.inl rfl, ?_, ?_⟩
    · intro k i hk
      rw [hafter]
      exact octet_putBank_of_not_written distinct hb hk
    · intro _ i hcov
      rw [hafter]
      exact octet_putBank_coils hb hcov
  · rw [hc, hr] at hwritten
    have hafter (k : BankKind) : store.memory ((store.execute station.engine frame).run w).2 k =
        store.memory ((store.putBank .holdingRegisters bank).run w).2 k := memory_congr hsegments k
    refine Or.inr ⟨_, hwritten, Or.inr rfl, ?_, fun hcoils => nomatch hcoils⟩
    intro k i hk
    rw [hafter]
    exact octet_putBank_of_not_written distinct hb hk

/-- A short, damaged or foreign frame and a refused request change no octet of the four segments.
An accepted request changes octets of the elements it writes only, and leaves 0 or 1 in a coil.
Discrete inputs and input registers never change. -/
theorem execute_changes_only_written (station : Station) (store : Store) (w : World)
    (frame : Octets) (distinct : store.Distinct) :
    let banks := store.banks w
    let after := ((store.execute station.engine frame).run w).2
    (frame.length < minFrame ∨ Crc.intact frame = false ∨
        (frame.headD 0 ≠ station.unit ∧ frame.headD 0 ≠ broadcast) ∨
        (∃ e, Request.respond station.unit (Station.pdu frame) banks = .error e) →
      ∀ k, store.memory after k = store.memory w k) ∧
    (station.Accepts frame banks →
      (∀ k i, (store.memory after k).octet i ≠ (store.memory w k).octet i →
        ∃ e, Extent.written? (Station.pdu frame) = some e ∧ e.bank = k ∧ e.Covers i) ∧
      ∀ e, Extent.written? (Station.pdu frame) = some e → e.bank = .coils → ∀ i, e.Covers i →
        (store.memory after .coils).octet i = 0 ∨ (store.memory after .coils).octet i = 1) ∧
    ∀ k, k = .discreteInputs ∨ k = .inputRegisters →
      ∀ i, (store.memory after k).octet i = (store.memory w k).octet i := by
  intro banks after
  have hkept (h : ¬station.Accepts frame banks) (k : BankKind) :
      store.memory after k = store.memory w k :=
    memory_congr (segments_execute_of_nothing (Station.change_of_not_accepts h)) k
  refine ⟨?_, ?_, ?_⟩
  · intro hrefused
    apply hkept
    rintro ⟨⟨hlen, hintact, haddress⟩, result, hresult⟩
    rcases hrefused with h | h | h | ⟨e, h⟩
    · omega
    · rw [hintact] at h
      cases h
    · exact haddress.elim h.1 h.2
    · rw [hresult] at h
      cases h
  · intro ha
    rcases execute_of_accepts distinct ha with ⟨hnone, hsame⟩ | ⟨e, he, -, hkeep, hbits⟩
    · refine ⟨fun k i hne => absurd ?_ hne, fun e he => ?_⟩
      · rw [memory_congr hsame k]
      · rw [hnone] at he
        cases he
    · refine ⟨fun k i hne => ⟨e, he, ?_⟩, fun e' he' hcoils i hcov => ?_⟩
      · exact Decidable.byContradiction fun hn => hne (hkeep k i hn)
      · rw [he] at he'
        cases he'
        exact hbits hcoils i hcov
  · intro k hk i
    by_cases ha : station.Accepts frame banks
    · rcases execute_of_accepts distinct ha with ⟨-, hsame⟩ | ⟨e, -, hbank, hkeep, -⟩
      · rw [memory_congr hsame k]
      · refine hkeep k i ?_
        rintro ⟨rfl, -⟩
        rcases hbank with h | h <;> rcases hk with h' | h' <;> rw [h] at h' <;> cases h'
    · rw [hkept ha k]

def fourSegments : World where
  segments := BankKind.all.foldl
    (fun r k => r.add ⟨"/" ++ k.suffix⟩ { memory := .zeros 4, mode := 0o600 }) .empty

def overFour : Store :=
  attach (PerBank.ofFn fun k => ⟨BankKind.all.idxOf k, 4, k.suffix, ⟨"/" ++ k.suffix⟩⟩)

theorem distinct_overFour : overFour.Distinct := by
  intro k l
  cases k <;> cases l <;> decide

/-- Station 7 is asked to put 0x1234 into register 1: register 0 keeps its octets. -/
theorem execute_keeps_register_zero :
    overFour.Distinct ∧
      ∀ i < 2, (overFour.memory ((overFour.execute (Station.mk 7 (by decide)).engine
          (requestFrame 7 [0x06, 0x00, 0x01, 0x12, 0x34])).run fourSegments).2
            .holdingRegisters).octet i =
        (overFour.memory fourSegments .holdingRegisters).octet i := by
  refine ⟨distinct_overFour, fun i hi => Decidable.byContradiction fun hne => ?_⟩
  have ha : (Station.mk 7 (by decide)).Accepts (requestFrame 7 [0x06, 0x00, 0x01, 0x12, 0x34])
      (overFour.banks fourSegments) := by
    decide +kernel
  have hw : Extent.written? (Station.pdu (requestFrame 7 [0x06, 0x00, 0x01, 0x12, 0x34])) =
      some ⟨.holdingRegisters, 1, 1⟩ := by
    decide +kernel
  obtain ⟨e, he, -, hcov⟩ := ((execute_changes_only_written (Station.mk 7 (by decide)) overFour
    fourSegments (requestFrame 7 [0x06, 0x00, 0x01, 0x12, 0x34]) distinct_overFour).2.1 ha).1
      .holdingRegisters i hne
  rw [hw] at he
  cases he
  have hlow : 1 ≤ i / 2 := hcov.1
  omega
end Store
end RtuStation
