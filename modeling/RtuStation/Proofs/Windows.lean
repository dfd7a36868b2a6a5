import RtuStation.Proofs.Accesses
import RtuStation.Proofs.Tables

/-!
# Banks octet by octet

A bank of a store is a window on what is mapped: a mapping with a number of elements. Here it is
read and written octet by octet, as a machine does, and each octet is looked at first: one that does
not belong to an element of the bank ends the access with a slip. No access to a window on a segment
slips, and each does what the bank of the store does.
-/

namespace RtuStation

/-! ### Checked steps -/

/-- What is out of bounds. -/
inductive Slip where
  /-- An octet of a segment that does not belong to the bank. -/
  | octet
  /-- A position past the end of a string of octets. -/
  | position
  | slice
  /-- A number that does not fit in an octet. -/
  | narrowing
  /-- A difference below zero. -/
  | difference
  /-- A sum that is no number of 64 bits. -/
  | sum
  deriving DecidableEq, Repr

/-- Steps in the world that end where something is out of bounds. -/
abbrev Checked (α : Type) : Type := StateT World (Except Slip) α

namespace Checked

variable {α β : Type} {c : Checked α} {f : α → Checked β} {u v : World} {a : α}

theorem run_bind (h : c.run u = .ok (a, v)) : (c >>= f).run u = (f a).run v := by
  rw [StateT.run_bind, h]
  rfl

theorem run_map {g : α → β} (h : c.run u = .ok (a, v)) : (g <$> c).run u = .ok (g a, v) := by
  rw [StateT.run_map, h]
  rfl

theorem run_mapM {xs : List β} {g : β → Checked α} {b : β → α}
    (h : ∀ x ∈ xs, (g x).run u = .ok (b x, u)) : (xs.mapM g).run u = .ok (xs.map b, u) := by
  induction xs with
  | nil => rfl
  | cons x xs ih =>
    rw [List.mapM_cons, run_bind (h x (List.mem_cons_self ..)),
      run_bind (ih fun y hy => h y (List.mem_cons_of_mem _ hy))]
    rfl

end Checked

/-! ### Octets of what is mapped -/

theorem Memory.write_singleton (m : Memory) {i : Nat} (b : UInt8) (hi : i < m.near.size)
    (hsize : m.near.size ≤ m.size) :
    m.write i [b] = { m with near := m.near.setIfInBounds i b } := by
  obtain ⟨room, hroom⟩ : ∃ room, m.size - i = room + 1 := ⟨m.size - i - 1, by omega⟩
  obtain ⟨within, hwithin⟩ : ∃ within, m.near.size - i = within + 1 :=
    ⟨m.near.size - i - 1, by omega⟩
  simp [write, hroom, hwithin, overwrite]

namespace Mapping

variable {m : Mapping} {u : World} {cells : Array UInt8}

/-- The world with other octets at the start of what is mapped. -/
def put (m : Mapping) (u : World) (cells : Array UInt8) : World := ((m.setCells cells).run u).2

theorem poke_run (h : m.Maps u.segments) {i : Nat} (hi : i < (m.cells u).size) (b : UInt8) :
    ((m.poke i [b]).run u).2 = m.put u ((m.cells u).setIfInBounds i b) := by
  obtain ⟨_, -, segment, hsegment, rfl, hsound⟩ := h
  have hcells : m.cells u = segment.memory.near := by
    rw [Mapping.cells, memory, hsegment]
    rfl
  rw [hcells] at hi ⊢
  have hsegments : u.segments.modify m.object (fun s =>
      { s with memory := s.memory.write i [b] }) = u.segments.modify m.object fun s =>
        { s with memory := { s.memory with near := segment.memory.near.setIfInBounds i b } } := by
    refine u.segments.modify_congr fun x hx => ?_
    obtain rfl := Option.some.inj (hsegment.symm.trans hx)
    rw [Memory.write_singleton _ b hi (by rw [hsound]; exact Nat.min_le_left ..)]
  exact congrArg (fun segments => { u with segments }) hsegments

theorem put_cells (m : Mapping) (u : World) : m.put u (m.cells u) = u := by
  have hsegments : u.segments.modify m.object (fun s =>
      { s with memory := { s.memory with near := m.cells u } }) = u.segments := by
    refine u.segments.modify_of_fixed fun x hx => ?_
    rw [cells, memory, hx]
    rfl
  exact congrArg (fun segments => { u with segments }) hsegments

theorem put_put (m : Mapping) (u : World) (cells later : Array UInt8) :
    m.put (m.put u cells) later = m.put u later :=
  congrArg (fun segments => { u with segments }) (Registry.modify_modify ..)

theorem cells_put (hsize : cells.size = (m.cells u).size) : m.cells (m.put u cells) = cells :=
  cells_setCells m hsize

theorem maps_put (h : m.Maps u.segments) (hsize : cells.size = (m.cells u).size) :
    m.Maps (m.put u cells).segments := by
  obtain ⟨size, hle, segment, hsegment, hmemory, hsound⟩ := h
  refine ⟨size, hle, { segment with memory := { segment.memory with near := cells } }, ?_,
    hmemory, ?_⟩
  · exact (Registry.get?_modify_self ..).trans (by rw [hsegment]; rfl)
  · have hcells : m.cells u = segment.memory.near := by
      rw [Mapping.cells, memory, hsegment]
      rfl
    exact (hsize.trans (congrArg Array.size hcells)).trans hsound

end Mapping

/-! ### Windows -/

/-- So many elements from the start of what is mapped. -/
structure Window (w : Width) where
  mapping : Mapping
  length : Nat

/-- The window on a bank of the store. -/
def Store.window (s : Store) (k : BankKind) : Window k.width := ⟨s.mappings.get k, s.length k⟩

namespace Window

variable {w : Width}

def peek (v : Window w) (i : Nat) : Checked UInt8 := do
  if i < v.length * w.octets then return (v.mapping.memory (← get)).octet i
  else throw .octet

def poke (v : Window w) (i : Nat) (b : UInt8) : Checked Unit :=
  if i < v.length * w.octets then modify fun u => ((v.mapping.poke i [b]).run u).2
  else throw .octet

/-- An element: a bit from the octet at its position, a word from two octets, the low one first. -/
def load : (w : Width) → Window w → Nat → Checked w.Value
  | .bit, v, i => do return (← v.peek i) != 0
  | .word, v, i => do
    let low ← v.peek (2 * i)
    let high ← v.peek (2 * i + 1)
    return word high low

def store : (w : Width) → Window w → Nat → w.Value → Checked Unit
  | .bit, v, i, x => v.poke i (if x then 1 else 0)
  | .word, v, i, x => do
    v.poke (2 * i) (lowOctet x)
    v.poke (2 * i + 1) (highOctet x)

def element (v : Window w) (i : Nat) : Checked (Option w.Value) :=
  if i < v.length then some <$> load w v i else return none

def setElement (v : Window w) (i : Nat) (x : w.Value) : Checked Bool :=
  if v.length ≤ i then return false
  else do
    store w v i x
    return true

/-- The sum of two numbers of 64 bits, unless it is none. -/
def sum? (a b : Nat) : Option Nat := if a + b < Nat.pow 2 64 then some (a + b) else none

def plus (a b : Nat) : Checked Nat := (sum? a b).elim (throw .sum) pure

def contains (v : Window w) (start count : Nat) : Bool :=
  (sum? start count).any (· ≤ v.length)

def elements (v : Window w) (start count : Nat) : Checked (Option (List w.Value)) :=
  if v.contains start count then do
    let stop ← plus start count
    let found ← (List.range' start (stop - start)).mapM v.element
    return some (found.filterMap id)
  else return none

/-- Writes values one by one, from the `i`th of a range on. -/
def writeFrom (v : Window w) (start : Nat) : Nat → List w.Value → Checked Unit
  | _, [] => return
  | i, x :: xs => do
    let _ ← v.setElement (← plus start i) x
    writeFrom v start (i + 1) xs

def writeElements (v : Window w) (start : Nat) (xs : List w.Value) : Checked Bool :=
  if v.contains start xs.length then do
    v.writeFrom start 0 xs
    return true
  else return false

/-! ### Windows show banks -/

/-- What the window shows in a world is a bank. -/
structure Shows (v : Window w) (u : World) (b : Bank w) : Prop where
  cells : b.cells = v.mapping.cells u
  length : b.length = v.length
  maps : v.mapping.Maps u.segments
  small : v.length ≤ maxBankSize

variable {v : Window w} {u : World} {b : Bank w} {i : Nat}

theorem Shows.fits (h : v.Shows u b) (hi : i < v.length * w.octets) :
    i < (v.mapping.cells u).size := by
  rw [← h.length] at hi
  rw [← h.cells]
  exact Nat.lt_of_lt_of_le hi b.fits

theorem Shows.lt_of_le (h : v.Shows u b) (hi : i ≤ b.length) : i < Nat.pow 2 64 := by
  rw [h.length] at hi
  exact Nat.lt_of_le_of_lt (Nat.le_trans hi h.small) (by decide)

/-- Where the limit is a number of 64 bits, a sum that is none counts as one that is too large. -/
theorem any_sum? {limit : Nat} (h : limit < Nat.pow 2 64) (a c : Nat) :
    (sum? a c).any (· ≤ limit) = decide (a + c ≤ limit) := by
  unfold sum?
  split
  · rfl
  · next hsum => exact (decide_eq_false fun hfit => hsum (Nat.lt_of_le_of_lt hfit h)).symm

theorem Shows.contains_eq (h : v.Shows u b) (start count : Nat) :
    v.contains start count = b.contains start count := by
  rw [contains, ← h.length, any_sum? (h.lt_of_le (Nat.le_refl _))]
  rfl

theorem plus_run {c d : Nat} (h : c + d < Nat.pow 2 64) : (plus c d).run u = .ok (c + d, u) := by
  rw [plus, sum?, if_pos h]
  rfl

theorem peek_run (h : v.Shows u b) (hi : i < v.length * w.octets) :
    (v.peek i).run u = .ok (b.cells.getD i 0, u) := by
  have hnear : i < (v.mapping.memory u).near.size := h.fits hi
  rw [h.cells, Mapping.cells, ← Memory.octet_of_lt hnear, peek, if_pos hi]
  rfl

theorem poke_run (h : v.Shows u b) (hi : i < v.length * w.octets) (x : UInt8) :
    (v.poke i x).run u = .ok ((), v.mapping.put u (b.cells.setIfInBounds i x)) := by
  rw [h.cells, ← Mapping.poke_run h.maps (h.fits hi), poke, if_pos hi]
  rfl

/-- The window on the world with other octets of the bank. -/
theorem Shows.put (h : v.Shows u b) {later : Bank w} (hlength : later.length = b.length)
    (hsize : later.cells.size = b.cells.size) : v.Shows (v.mapping.put u later.cells) later := by
  have hcells := hsize.trans (congrArg Array.size h.cells)
  exact ⟨(Mapping.cells_put hcells).symm, hlength.trans h.length, Mapping.maps_put h.maps hcells,
    h.small⟩

theorem octet_of_bit {length : Nat} (h : i < length) : i < length * Width.bit.octets := by
  simp only [Width.octets]
  omega

theorem octets_of_word {length : Nat} (h : i < length) :
    2 * i < length * Width.word.octets ∧ 2 * i + 1 < length * Width.word.octets := by
  simp only [Width.octets]
  omega

theorem load_run (h : v.Shows u b) (hi : i < v.length) :
    (load w v i).run u = .ok (Bank.load w b.cells i, u) := by
  cases w with
  | bit =>
    have hoctet : i < v.length * Width.bit.octets := octet_of_bit hi
    rw [load, Checked.run_bind (peek_run h hoctet)]
    rfl
  | word =>
    obtain ⟨hlow, hhigh⟩ := octets_of_word hi
    rw [load, Checked.run_bind (peek_run h hlow), Checked.run_bind (peek_run h hhigh)]
    rfl

theorem store_run (h : v.Shows u b) (hi : i < v.length) (x : w.Value) :
    (store w v i x).run u = .ok ((), v.mapping.put u (Bank.store w b.cells i x)) := by
  cases w with
  | bit =>
    have hoctet : i < v.length * Width.bit.octets := octet_of_bit hi
    exact poke_run h hoctet _
  | word =>
    obtain ⟨hlow, hhigh⟩ := octets_of_word hi
    -- the bank with the low octet stored
    let half : Bank .word :=
      { b with
        cells := b.cells.setIfInBounds (2 * i) (lowOctet x)
        fits := by rw [Array.size_setIfInBounds]; exact b.fits }
    have hhalf : v.Shows (v.mapping.put u half.cells) half :=
      h.put rfl (Array.size_setIfInBounds ..)
    rw [store, Checked.run_bind (poke_run h hlow _), poke_run hhalf hhigh, Mapping.put_put]
    rfl

theorem element_run (h : v.Shows u b) (i : Nat) : (v.element i).run u = .ok (b.get? i, u) := by
  rw [element, Bank.get?, h.length]
  split
  · next hi => exact Checked.run_map (load_run h hi)
  · rfl

theorem elements_run (h : v.Shows u b) (start count : Nat) :
    (v.elements start count).run u = .ok (b.read? start count, u) := by
  rw [elements, Bank.read?, h.contains_eq]
  split
  · next hc =>
    have hfit := (b.contains_iff start count).mp hc
    have hcount : start + count - start = count := by omega
    rw [Checked.run_bind (plus_run (h.lt_of_le hfit)), hcount,
      Checked.run_bind (Checked.run_mapM fun i _ => element_run h i)]
    rw [List.filterMap_map, Function.id_comp, Bank.filterMap_get? hfit]
    rfl
  · rfl

theorem setElement_run (h : v.Shows u b) (i : Nat) (x : w.Value) :
    (v.setElement i x).run u = (b.set? i x).elim (.ok (false, u)) fun after =>
      .ok (true, v.mapping.put u after.cells) := by
  have hlength := h.length
  unfold setElement Bank.set?
  by_cases hi : i < v.length
  · rw [if_neg (by omega), if_pos (by omega), Checked.run_bind (store_run h hi x)]
    rfl
  · rw [if_pos (by omega), if_neg (by omega)]
    rfl

theorem writeFrom_run (h : v.Shows u b) {start : Nat} {xs : List w.Value}
    (hfit : start + i + xs.length ≤ b.length) :
    (v.writeFrom start i xs).run u =
      .ok ((), v.mapping.put u (Bank.storeAll w b.cells (start + i) xs)) := by
  induction xs generalizing u b i with
  | nil =>
    rw [Bank.storeAll, h.cells, Mapping.put_cells]
    rfl
  | cons x xs ih =>
    simp only [List.length_cons] at hfit
    -- the bank with the first element stored
    obtain ⟨next, hnext⟩ : ∃ next, b.set? (start + i) x = some next := by
      rw [Bank.set?, if_pos (by omega)]
      exact ⟨_, rfl⟩
    have hrun := setElement_run h (start + i) x
    rw [hnext] at hrun
    rw [Bank.set?_eq_write?, Bank.write?_eq_some_iff] at hnext
    obtain ⟨-, hlength, hcells⟩ := hnext
    have hlater := h.put hlength (by rw [hcells, Bank.size_storeAll])
    have hsum : start + i < Nat.pow 2 64 := h.lt_of_le (by omega)
    rw [writeFrom, Checked.run_bind (plus_run hsum), Checked.run_bind hrun,
      ih hlater (by omega), Mapping.put_put, hcells]
    rfl

theorem writeElements_run (h : v.Shows u b) (start : Nat) (xs : List w.Value) :
    (v.writeElements start xs).run u = (b.write? start xs).elim (.ok (false, u)) fun after =>
      .ok (true, v.mapping.put u after.cells) := by
  unfold writeElements Bank.write?
  rw [h.contains_eq]
  split
  · next hc =>
    have hfit : start + 0 + xs.length ≤ b.length := (b.contains_iff start xs.length).mp hc
    rw [Checked.run_bind (writeFrom_run h hfit)]
    rfl
  · rfl

end Window

/-- The window on a bank of a store shows the bank. -/
theorem Store.shows_window {s : Store} {u : World} (h : s.Mapped u.segments) (k : BankKind) :
    (s.window k).Shows u (s.bank u k) :=
  ⟨rfl, length_bank (h k), h k, Nat.min_le_right ..⟩

end RtuStation
