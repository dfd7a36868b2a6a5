import RtuStation.Proofs.Extents

/-!
# Accesses to the banks of a store

Whoever holds a store looks at elements, replaces them, or has a station answer a frame. Each access
leaves the segments as they are or writes one range of one bank (`Store.Wrote`), so what lies past
the last element of a bank stays as it is (`Store.octet_of_wrote`), and segments keep their sizes. An
element of a bank is told by the octets of the segment alone and does not depend on how much of the
segment is mapped (`Store.get?_bank`).
-/

namespace RtuStation

theorem BankKind.elementSize_pos (k : BankKind) : 0 < k.elementSize := by
  cases k <;> decide

namespace Memory

/-- The element that lies at a position of a bank over the memory. -/
def element (m : Memory) : (w : Width) → Nat → w.Value
  | .bit, i => m.octet i != 0
  | .word, i => word (m.octet (2 * i + 1)) (m.octet (2 * i))

/-- As much of the memory as a bank can reach is kept octet by octet. -/
def Sound (m : Memory) : Prop := m.near.size = min m.size reach

theorem sound_zeros (size : Nat) : (zeros size).Sound := Array.size_replicate

theorem load_near (m : Memory) (w : Width) {i : Nat} (h : (i + 1) * w.octets ≤ m.near.size) :
    Bank.load w m.near i = m.element w i := by
  cases w with
  | bit =>
    simp only [Width.octets] at h
    rw [Bank.load, element, octet_of_lt (by omega)]
  | word =>
    simp only [Width.octets] at h
    rw [Bank.load, element, octet_of_lt (by omega), octet_of_lt (by omega)]

theorem element_congr {m m' : Memory} (w : Width) {i : Nat}
    (h : ∀ j, i * w.octets ≤ j → m.octet j = m'.octet j) : m.element w i = m'.element w i := by
  cases w with
  | bit =>
    simp only [Width.octets] at h
    rw [element, element, h i (by omega)]
  | word =>
    simp only [Width.octets] at h
    rw [element, element, h (2 * i) (by omega), h (2 * i + 1) (by omega)]

end Memory

/-! ### What a mapping leads to -/

/-- The number leads to a segment of so many octets. -/
def Segment.Stands (r : Registry Segment) (n size : Nat) : Prop :=
  ∃ segment, r.get? n = some segment ∧ segment.memory.size = size ∧ segment.memory.Sound

namespace Mapping

/-- The mapping leads to a segment that has the octets that are mapped. -/
def Maps (m : Mapping) (r : Registry Segment) : Prop :=
  ∃ size, m.size ≤ size ∧ Segment.Stands r m.object size

variable {m other : Mapping} {v w : World}

theorem memory_congr (hobject : other.object = m.object)
    (h : v.segments.get? m.object = w.segments.get? m.object) : other.memory v = m.memory w := by
  rw [memory, memory, hobject, h]

theorem size_cells (h : m.Maps w.segments) : min m.size Memory.reach ≤ (m.cells w).size := by
  obtain ⟨_, hsize, segment, hsegment, rfl, hsound⟩ := h
  rw [cells, memory, hsegment]
  simp only [Option.map_some, Option.getD_some]
  rw [hsound]
  omega

end Mapping

namespace Store

variable {s : Store} {w : World} {k : BankKind}

/-- The store's mappings lead to segments that have the octets that are mapped. -/
def Mapped (s : Store) (r : Registry Segment) : Prop := ∀ k, (s.mappings.get k).Maps r

theorem get_banks (s : Store) (w : World) (k : BankKind) : (s.banks w).get k = s.bank w k := by
  cases k <;> rfl

theorem length_bank_le (s : Store) (w : World) (k : BankKind) :
    (s.bank w k).length ≤ s.length k := by
  have hdiv := Nat.div_le_div_right (c := k.elementSize)
    (Nat.min_le_left (s.mappings.get k).size ((s.mappings.get k).cells w).size)
  simp only [bank, Bank.ofCells, length]
  simp only [BankKind.elementSize] at hdiv
  exact Nat.le_min.mpr ⟨Nat.le_trans (Nat.min_le_left ..) hdiv, Nat.min_le_right ..⟩

theorem length_le (s : Store) (k : BankKind) :
    s.length k * k.elementSize ≤ min (s.mappings.get k).size Memory.reach := by
  have hmapped : s.length k * k.elementSize ≤ (s.mappings.get k).size :=
    Nat.le_trans (Nat.mul_le_mul_right _ (Nat.min_le_left ..)) (Nat.div_mul_le_self ..)
  have hreach : s.length k * k.elementSize ≤ maxBankSize * 2 :=
    Nat.mul_le_mul (Nat.min_le_right ..) (by cases k <;> decide)
  rw [Memory.reach]
  omega

theorem length_bank (h : (s.mappings.get k).Maps w.segments) :
    (s.bank w k).length = s.length k := by
  refine Nat.le_antisymm (s.length_bank_le w k) ?_
  have hcells := Mapping.size_cells h
  have hlength := s.length_le k
  simp only [bank, Bank.ofCells]
  refine Nat.le_min.mpr ⟨?_, Nat.min_le_right ..⟩
  exact (Nat.le_div_iff_mul_le k.elementSize_pos).mpr (by omega)

theorem length_of_size {count : Nat} (hcount : count ≤ maxBankSize)
    (hsize : (s.mappings.get k).size = count * k.elementSize) : s.length k = count := by
  rw [length, hsize, Nat.mul_div_cancel _ k.elementSize_pos, Nat.min_eq_left hcount]

/-- An element is told by the octets of the segment, however much of it is mapped. -/
theorem get?_bank (h : (s.mappings.get k).Maps w.segments) (i : Nat) :
    (s.bank w k).get? i =
      if i < s.length k then some ((s.memory w k).element k.width i) else none := by
  rw [Bank.get?, length_bank h]
  split
  · next hi =>
    have hfits := (s.bank w k).fits_of_lt (i := i) (by rw [length_bank h]; exact hi)
    rw [show (s.bank w k).cells = (s.memory w k).near from rfl] at hfits ⊢
    rw [Memory.load_near _ _ hfits]
  · rfl

theorem bank_congr {v : World} (h : s.memory v k = s.memory w k) : s.bank v k = s.bank w k := by
  have hcells : (s.mappings.get k).cells v = (s.mappings.get k).cells w :=
    congrArg Memory.near h
  rw [bank, bank, hcells]

/-! ### What is written -/

variable {after : World}

/-- The segments are as they were, or as after a write to a range that one of the banks has. -/
inductive Wrote (s : Store) (w after : World) : Prop where
  | nothing (hafter : after.segments = w.segments)
  | range {k : BankKind} {start : Nat} {vs : List k.width.Value} {bank : Bank k.width}
    (hwrite : (s.bank w k).write? start vs = some bank)
    (hafter : after.segments = ((s.putBank k bank).run w).2.segments)

/-- Octets past the last element of each bank that lies in a segment stay as they are. -/
theorem octet_of_wrote (h : s.Wrote w after) (m : Mapping) {i : Nat}
    (hi : ∀ k, (s.mappings.get k).object = m.object → s.length k * k.elementSize ≤ i) :
    (m.memory after).octet i = (m.memory w).octet i := by
  cases h with
  | nothing hafter => rw [Mapping.memory_congr rfl (congrArg (Registry.get? · m.object) hafter)]
  | @range k start vs bank hwrite hafter =>
    rw [Mapping.memory_congr rfl (congrArg (Registry.get? · m.object) hafter)]
    by_cases hobject : (s.mappings.get k).object = m.object
    · obtain ⟨hfit, -, -⟩ := Bank.write?_eq_some_iff.mp hwrite
      have hlimit := hi k hobject
      have houtside : ¬Extent.Covers ⟨k, start, vs.length⟩ i := by
        have hlength := s.length_bank_le w k
        have hdiv : s.length k ≤ i / k.elementSize :=
          (Nat.le_div_iff_mul_le k.elementSize_pos).mpr hlimit
        rintro ⟨-, hcovered⟩
        simp only at hcovered
        omega
      have hsame (u : World) : m.memory u = s.memory u k := Mapping.memory_congr hobject.symm rfl
      rw [hsame, hsame]
      exact octet_putBank_of_not_covers hwrite houtside
    · rw [putBank, Mapping.memory_setCells_of_ne _ _ (Ne.symm hobject)]

theorem memory_of_wrote (h : s.Wrote w after) {m : Mapping}
    (hm : ∀ k, (s.mappings.get k).object ≠ m.object) : m.memory after = m.memory w := by
  cases h with
  | nothing hafter => exact Mapping.memory_congr rfl (congrArg (Registry.get? · m.object) hafter)
  | @range k _ _ bank _ hafter =>
    rw [Mapping.memory_congr rfl (congrArg (Registry.get? · m.object) hafter)]
    exact Mapping.memory_setCells_of_ne bank.cells w (hm k).symm

/-- A write to a bank leaves the size of each segment as it is. -/
theorem stands_of_wrote (h : s.Wrote w after) {n size : Nat}
    (hstands : Segment.Stands w.segments n size) : Segment.Stands after.segments n size := by
  cases h with
  | nothing hafter => rwa [hafter]
  | @range k start vs bank hwrite hafter =>
    obtain ⟨segment, hsegment, hsize, hsound⟩ := hstands
    rw [hafter]
    simp only [putBank, Mapping.setCells]
    by_cases hobject : (s.mappings.get k).object = n
    · subst hobject
      have hcells : bank.cells.size = segment.memory.near.size := by
        rw [(Bank.ofCells_of_write? hwrite).1, Mapping.cells, Mapping.memory, hsegment]
        rfl
      refine ⟨{ segment with memory := { segment.memory with near := bank.cells } }, ?_, hsize, ?_⟩
      · exact (Registry.get?_modify_self ..).trans (by rw [hsegment]; rfl)
      · exact hcells.trans hsound
    · exact ⟨segment, (Registry.get?_modify_of_ne _ _ hobject).trans hsegment, hsize, hsound⟩

theorem mapped_of_wrote {t : Store} (h : s.Wrote w after) (ht : t.Mapped w.segments) :
    t.Mapped after.segments := by
  intro k
  obtain ⟨size, hsize, hstands⟩ := ht k
  exact ⟨size, hsize, stands_of_wrote h hstands⟩

end Store

/-! ### Accesses -/

inductive Access where
  | element (k : BankKind) (i : Nat)
  | setElement (k : BankKind) (i : Nat) (v : k.width.Value)
  | elements (k : BankKind) (start count : Nat)
  | writeElements (k : BankKind) (start : Nat) (vs : List k.width.Value)
  /-- A station answers a frame. -/
  | frame (station : Station) (octets : Octets)

namespace Access

abbrev Result : Access → Type
  | element k _ => Option k.width.Value
  | setElement .. | writeElements .. => Bool
  | elements k .. => Option (List k.width.Value)
  | frame .. => Option Octets

def perform (s : Store) : (a : Access) → Deed a.Result
  | element k i => do return (s.bank (← get) k).get? i
  | setElement k i v => s.setElement k i v
  | elements k start count => do return (s.bank (← get) k).read? start count
  | writeElements k start vs => s.writeElements k start vs
  | frame station octets => s.execute station.engine octets

theorem wrote_writeElements (s : Store) (w : World) (k : BankKind) (start : Nat)
    (vs : List k.width.Value) : s.Wrote w ((s.writeElements k start vs).run w).2 := by
  simp only [Store.writeElements, StateT.run_bind, StateT.run_get, pure_bind]
  cases hwrite : (s.bank w k).write? start vs with
  | none => exact .nothing rfl
  | some bank => exact .range hwrite rfl

theorem setElement_eq (s : Store) (k : BankKind) (i : Nat) (v : k.width.Value) :
    s.setElement k i v = s.writeElements k i [v] := by
  simp only [Store.setElement, Store.writeElements, Bank.set?_eq_write?]

theorem wrote_execute (s : Store) (w : World) (station : Station) (frame : Octets) :
    s.Wrote w ((s.execute station.engine frame).run w).2 := by
  have hafter := (s.execute_run station.engine frame w).2
  rw [show station.engine.answer frame (s.banks w) = station.answer frame (s.banks w) from rfl]
    at hafter
  by_cases haccepts : station.Accepts frame (s.banks w)
  · obtain ⟨r, data, change, -, hperform, hchange, -⟩ := Station.request_of_accepts haccepts
    rw [hchange] at hafter
    rcases Request.change_of_perform? hperform with
      ⟨rfl, -, -⟩ | ⟨start, vs, bank, rfl, -, -, hwrite⟩ | ⟨start, vs, bank, rfl, -, -, hwrite⟩
    · exact .nothing hafter
    · exact Store.Wrote.range (k := .coils) hwrite hafter
    · exact Store.Wrote.range (k := .holdingRegisters) hwrite hafter
  · rw [Station.change_of_not_accepts haccepts] at hafter
    exact .nothing hafter

/-- Every access writes one range of one bank, or nothing. -/
theorem wrote (a : Access) (s : Store) (w : World) : s.Wrote w ((a.perform s).run w).2 := by
  cases a with
  | element | elements => exact .nothing rfl
  | setElement k i v =>
    rw [perform, setElement_eq]
    exact wrote_writeElements s w k i [v]
  | writeElements k start vs => exact wrote_writeElements s w k start vs
  | frame station octets => exact wrote_execute s w station octets

end Access
end RtuStation
