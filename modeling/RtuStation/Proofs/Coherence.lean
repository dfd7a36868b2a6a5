import RtuStation.Proofs.Handles

/-!
# Stores over the same segments

A store is created, and others are opened while its names refer to its segments. They need not map
as much of the segments as the owner does, and all of them see the same elements. Names and segments
have lives of their own: what happens to the names later, and to segments that get the names later,
is nothing to the stores that are open. `Company.shared` is what all events keep.
-/

namespace RtuStation

/-! ### Events -/

/-- What anybody does with stores. -/
inductive Event where
  | access (s : Store) (a : Access)
  | create (sizes : Sizes) (stem : String) (force : Bool) (permissions : Nat)
  | openExisting (sizes : Sizes) (stem : String)
  | destroy (s : Store)
  | drop (s : Store)

namespace Event

def IsAccess : Event → Prop
  | access .. => True
  | _ => False

def perform : Event → Deed Unit
  | access s a => do
    let _ ← a.perform s
  | create sizes stem force permissions => do
    let _ ← (Store.create sizes stem force permissions).run
  | openExisting sizes stem => do
    let _ ← (Store.openExisting sizes stem).run
  | destroy s => do
    let _ ← s.destroy
  | drop s => s.drop

end Event

def World.after (w : World) (e : Event) : World := (e.perform.run w).2

theorem World.after_create (w : World) (sizes : Sizes) (stem : String) (force : Bool)
    (permissions : Nat) : w.after (.create sizes stem force permissions) =
      ((Store.create sizes stem force permissions).run.run w).2 := rfl

/-- Destroying a store removes names, and changes no segment. -/
theorem Store.get?_destroy (s : Store) (w : World) (n : Nat) :
    (s.destroy.run w).2.segments.get? n = w.segments.get? n := by
  cases hdestroyed : s.destroyed with
  | true => rw [destroy_of_done hdestroyed]
  | false =>
    cases hown : s.ownership with
    | attached => rw [destroy_of_attached hdestroyed hown]
    | owned =>
      rw [destroy_of_owned hdestroyed hown]
      exact (congrArg (Registry.get? · n) (segments_unlinkAll ..)).trans
        (Registry.get?_removeAll ..)

theorem Store.get?_create (sizes : Sizes) (stem : String) (force : Bool) (permissions : Nat)
    (w : World) {n : Nat} (hn : n < w.segments.next) :
    ((create sizes stem force permissions).run.run w).2.segments.get? n = w.segments.get? n := by
  have hcreate := yields_create sizes stem force permissions w w rfl
  generalize (create sizes stem force permissions).run.run w = course at hcreate
  obtain ⟨e | s, after⟩ := course
  · rcases hcreate with ⟨-, hafter⟩ | ⟨-, k, -, hbuilding⟩
    · rw [show after = w from hafter]
    · exact hbuilding.objects n hn
  · exact hcreate.building.objects n hn

theorem Store.segments_openExisting (sizes : Sizes) (stem : String) (w : World) :
    ((openExisting sizes stem).run.run w).2.segments = w.segments := by
  have hopen := yields_openExisting sizes stem (Segment.keeps_meet (· = w.segments)) w rfl
  generalize (openExisting sizes stem).run.run w = course at hopen
  obtain ⟨e | s, after⟩ := course
  · exact hopen
  · exact hopen.2.2.2

namespace Event

variable {w : World} {n size : Nat}

/-- Whatever is done with names, the segments that there are stay as they are. -/
theorem get?_after {e : Event} (h : ¬e.IsAccess) (hn : n < w.segments.next) :
    (w.after e).segments.get? n = w.segments.get? n := by
  cases e with
  | access s a => exact absurd trivial h
  | create sizes stem force permissions =>
    rw [World.after_create]
    exact Store.get?_create sizes stem force permissions w hn
  | openExisting sizes stem =>
    exact congrArg (Registry.get? · n) (Store.segments_openExisting sizes stem w)
  | destroy s => exact s.get?_destroy w n
  | drop s => exact s.get?_destroy w n

theorem stands_after (e : Event) (h : Segment.Stands w.segments n size) :
    Segment.Stands (w.after e).segments n size := by
  by_cases haccess : e.IsAccess
  · cases e with
    | access s a => exact Store.stands_of_wrote (a.wrote s w) h
    | _ => exact haccess.elim
  · obtain ⟨segment, hsegment, hrest⟩ := h
    exact ⟨segment, (get?_after haccess (Registry.lt_next_of_get? hsegment)).trans hsegment, hrest⟩

end Event

/-! ### The stores over an owner's segments -/

/-- A store with the sizes that were asked for. -/
structure Member where
  sizes : Sizes
  store : Store

/-- An owner that was created under a stem, and stores that were opened under it while its names
referred to the owner's segments. Anything else can have happened before, in between and since. -/
inductive Company (stem : String) (owner : Member) : List Member → World → Prop where
  | founded {force : Bool} {permissions : Nat} {before w : World}
    (hcreate : (Store.create owner.sizes stem force permissions).run.run before =
      (.ok owner.store, w)) : Company stem owner [owner] w
  | joined {members : List Member} {m : Member} {v w : World} (h : Company stem owner members v)
    (hnames : ∀ k, v.segments.find? (owner.store.mappings.get k).objectName =
      some (owner.store.mappings.get k).object)
    (hopen : (Store.openExisting m.sizes stem).run.run v = (.ok m.store, w)) :
    Company stem owner (m :: members) w
  | later {members : List Member} {w : World} (h : Company stem owner members w) (e : Event) :
    Company stem owner members (w.after e)

/-- A store maps the start of each of the owner's segments, as much of it as it asked for. -/
structure Member.Over (owner m : Member) : Prop where
  object : ∀ k, (m.store.mappings.get k).object = (owner.store.mappings.get k).object
  mapped : ∀ k, (m.store.mappings.get k).size = m.sizes.get k * k.elementSize
  small : ∀ k, m.sizes.get k ≤ owner.sizes.get k
  bounded : ∀ k, m.sizes.get k ≤ maxBankSize

structure Company.Shared (stem : String) (owner : Member) (members : List Member) (w : World) :
    Prop where
  distinct : owner.store.Distinct
  named : ∀ k : BankKind, ObjectName.ofText (bankName stem k.suffix) =
    .ok (owner.store.mappings.get k).objectName
  stands : ∀ k, Segment.Stands w.segments (owner.store.mappings.get k).object
    (owner.sizes.get k * k.elementSize)
  covered : ∀ m ∈ members, owner.Over m

namespace Company

variable {stem : String} {owner m : Member} {members : List Member} {v w : World}
  {k : BankKind}

theorem Shared.over_of_attached (h : Shared stem owner members v)
    (hnames : ∀ k, v.segments.find? (owner.store.mappings.get k).objectName =
      some (owner.store.mappings.get k).object)
    (hbounded : ∀ k, m.sizes.get k ≤ maxBankSize)
    (hattached : ∀ k : BankKind, Segment.Attached v.segments (bankName stem k.suffix)
      (m.sizes.get k * k.elementSize) (m.store.mappings.get k)) : owner.Over m := by
  have hobject (k : BankKind) :
      (m.store.mappings.get k).object = (owner.store.mappings.get k).object := by
    have hname := Except.ok.inj ((hattached k).named.symm.trans (h.named k))
    have hfound := (hattached k).found
    rw [hname, hnames k] at hfound
    exact (Option.some.inj hfound).symm
  refine ⟨hobject, fun k => (hattached k).mapped, fun k => ?_, hbounded⟩
  obtain ⟨segment, hsegment, hsize, -⟩ := h.stands k
  have hroom := (hattached k).room
  rw [hobject k, hsegment, Option.getD_some, hsize] at hroom
  exact Nat.le_of_mul_le_mul_right hroom k.elementSize_pos

theorem Shared.after (h : Shared stem owner members w) (e : Event) :
    Shared stem owner members (w.after e) :=
  ⟨h.distinct, h.named, fun k => e.stands_after (h.stands k), h.covered⟩

/-- All that happens keeps what the stores share. -/
theorem shared (h : Company stem owner members w) : Shared stem owner members w := by
  induction h with
  | @founded force permissions before w hcreate =>
    have hbuilt := Store.yields_create owner.sizes stem force permissions before before rfl
    rw [hcreate] at hbuilt
    refine ⟨hbuilt.distinct, hbuilt.named, fun k => ?_, fun m hm => ?_⟩
    · rw [← (hbuilt.made k).2]
      exact hbuilt.stands k
    · obtain rfl := List.mem_singleton.mp hm
      exact ⟨fun _ => rfl, fun k => (hbuilt.made k).2, fun _ => Nat.le_refl _, hbuilt.small⟩
  | @joined members m v w _ hnames hopen ih =>
    have hjoin := Store.yields_openExisting m.sizes stem (Segment.keeps_meet (· = v.segments)) v rfl
    rw [hopen] at hjoin
    obtain ⟨-, hbounded, hattached, hsegments⟩ := hjoin
    have hover : owner.Over m := by
      refine ih.over_of_attached hnames hbounded fun k => ?_
      obtain ⟨u, hu, hk⟩ := hattached k
      exact hu ▸ hk
    refine ⟨ih.distinct, ih.named, fun k => ?_, List.forall_mem_cons.mpr ⟨hover, ih.covered⟩⟩
    rw [hsegments]
    exact ih.stands k
  | later _ e ih => exact ih.after e

namespace Shared

theorem length (h : Shared stem owner members w) (hm : m ∈ members) (k : BankKind) :
    m.store.length k = m.sizes.get k :=
  Store.length_of_size ((h.covered m hm).bounded k) ((h.covered m hm).mapped k)

theorem mapped (h : Shared stem owner members w) (hm : m ∈ members) :
    m.store.Mapped w.segments := by
  intro k
  have hover := h.covered m hm
  refine ⟨_, ?_, hover.object k ▸ h.stands k⟩
  rw [hover.mapped k]
  exact Nat.mul_le_mul_right _ (hover.small k)

/-- An element is the owner's, whichever store it is looked at through. -/
theorem get?_bank (h : Shared stem owner members w) (hm : m ∈ members) (k : BankKind) (i : Nat) :
    (m.store.bank w k).get? i =
      if i < m.sizes.get k then some ((owner.store.memory w k).element k.width i) else none := by
  have hmemory : m.store.memory w k = owner.store.memory w k :=
    Mapping.memory_congr ((h.covered m hm).object k) rfl
  rw [Store.get?_bank (h.mapped hm k), h.length hm, hmemory]

theorem lt_next (h : Shared stem owner members w) (hm : m ∈ members) (k : BankKind) :
    (m.store.mappings.get k).object < w.segments.next := by
  obtain ⟨segment, hsegment, -⟩ := h.stands k
  rw [(h.covered m hm).object k]
  exact Registry.lt_next_of_get? hsegment

/-- An access through one store leaves what others have past the end of its bank. -/
theorem get?_bank_access {other : Member} (h : Shared stem owner members w) (hm : m ∈ members)
    (hother : other ∈ members) (a : Access) {i : Nat} (hi : m.sizes.get k ≤ i) :
    (other.store.bank (w.after (.access m.store a)) k).get? i =
      (other.store.bank w k).get? i := by
  have hwrote := a.wrote m.store w
  rw [(h.after (.access m.store a)).get?_bank hother, h.get?_bank hother]
  split
  · refine congrArg some (Memory.element_congr k.width fun j hj => ?_)
    refine Store.octet_of_wrote hwrote (owner.store.mappings.get k) fun l hl => ?_
    obtain rfl := h.distinct l k (((h.covered m hm).object l).symm.trans hl)
    rw [h.length hm]
    exact Nat.le_trans (Nat.mul_le_mul_right _ hi) hj
  · rfl

/-- What is written through one store is what all that have the element read. -/
theorem get?_bank_setElement {other : Member} (h : Shared stem owner members w) (hm : m ∈ members)
    (hother : other ∈ members) {i : Nat} (hi : i < m.sizes.get k) (hi' : i < other.sizes.get k)
    (x : k.width.Value) :
    (other.store.bank (w.after (.access m.store (.setElement k i x))) k).get? i = some x := by
  have hafter := h.after (.access m.store (.setElement k i x))
  have hroom : i < (m.store.bank w k).length := by
    rw [Store.length_bank (h.mapped hm k), h.length hm]
    exact hi
  obtain ⟨bank, hset⟩ : ∃ bank, (m.store.bank w k).set? i x = some bank := ⟨_, if_pos hroom⟩
  have hput : w.after (.access m.store (.setElement k i x)) =
      ((m.store.putBank k bank).run w).2 := by
    simp only [World.after, Event.perform, Access.perform, Store.setElement, StateT.run_bind,
      StateT.run_get, pure_bind, hset]
    rfl
  have hwritten : (m.store.bank (w.after (.access m.store (.setElement k i x))) k).get? i =
      some x := by
    rw [hput, Store.bank_putBank_self ((Bank.set?_eq_write? ..).symm.trans hset),
      Bank.get?_set? hset, if_pos rfl]
  rw [hafter.get?_bank hother, if_pos hi']
  rwa [hafter.get?_bank hm, if_pos hi] at hwritten

end Shared

/-- The stores over an owner's segments agree on each element that two of them have. What is done
through one of them changes no element past its end. What else is done by anybody, to the names and
with new segments under the names, changes nothing for them. -/
theorem coherent (h : Company stem owner members w) :
    (∀ m ∈ members, ∀ k, m.store.length k = m.sizes.get k ∧ m.sizes.get k ≤ owner.sizes.get k) ∧
    (∀ m ∈ members, ∀ other ∈ members, ∀ k i, i < m.store.length k → i < other.store.length k →
      ∃ v, (m.store.bank w k).get? i = some v ∧ (other.store.bank w k).get? i = some v) ∧
    (∀ m ∈ members, ∀ a, ∀ other ∈ members, ∀ k i, m.store.length k ≤ i →
      (other.store.bank (w.after (.access m.store a)) k).get? i =
        (other.store.bank w k).get? i) ∧
    (∀ e : Event, ¬e.IsAccess → ∀ m ∈ members, ∀ k,
      m.store.bank (w.after e) k = m.store.bank w k) ∧
    ∀ sizes newStem force permissions s v,
      (Store.create sizes newStem force permissions).run.run w = (.ok s, v) →
        ∀ events a, ∀ m ∈ members, ∀ k,
          let u := List.foldl World.after v events
          m.store.bank (u.after (.access s a)) k = m.store.bank u k := by
  have hshared := h.shared
  refine ⟨fun m hm k => ⟨hshared.length hm k, (hshared.covered m hm).small k⟩, ?_, ?_, ?_, ?_⟩
  · intro m hm other hother k i hi hi'
    rw [hshared.length hm] at hi
    rw [hshared.length hother] at hi'
    exact ⟨_, by rw [hshared.get?_bank hm, if_pos hi], by rw [hshared.get?_bank hother, if_pos hi']⟩
  · intro m hm a other hother k i hi
    rw [hshared.length hm] at hi
    exact hshared.get?_bank_access hm hother a hi
  · intro e he m hm k
    exact Store.bank_congr (Mapping.memory_congr rfl (Event.get?_after he (hshared.lt_next hm k)))
  · intro sizes newStem force permissions s v hcreate events a m hm k u
    have hbuilt := Store.yields_create sizes newStem force permissions w w rfl
    rw [hcreate] at hbuilt
    -- the segments of the new store are none of those that there were
    refine Store.bank_congr (Store.memory_of_wrote (a.wrote s u) fun l heq => ?_)
    exact Nat.not_lt.mpr (hbuilt.fresh l) (heq ▸ hshared.lt_next hm k)

/-- Once somebody else has created a store under the stem, the names are lost to the owner. -/
theorem find?_ne_of_create {sizes : Sizes} {force : Bool} {permissions : Nat} {s : Store}
    (h : Company stem owner members w) (howner : owner ∈ members)
    (hcreate : (Store.create sizes stem force permissions).run.run w = (.ok s, v)) (k : BankKind) :
    v.segments.find? (owner.store.mappings.get k).objectName ≠
      some (owner.store.mappings.get k).object := by
  have hbuilt := Store.yields_create sizes stem force permissions w w rfl
  rw [hcreate] at hbuilt
  have hname := Except.ok.inj ((h.shared.named k).symm.trans (hbuilt.named k))
  rw [hname, hbuilt.found k]
  intro heq
  exact Nat.not_lt.mpr (hbuilt.fresh k) (Option.some.inj heq ▸ h.shared.lt_next howner k)

/-- A store with one element in each bank is opened over one with two, and writes a register. Then
somebody else takes the names by force. -/
theorem taken_after_write :
    ∃ owner other v new w,
      let e := Event.access other (.setElement .holdingRegisters 0 (0x1234 : UInt16))
      Company "p" ⟨PerBank.ofFn fun _ => 2, owner⟩
        [⟨PerBank.ofFn fun _ => 1, other⟩, ⟨PerBank.ofFn fun _ => 2, owner⟩] v ∧
      (Store.create (PerBank.ofFn fun _ => 2) "p" true 0o660).run.run (v.after e) =
        (.ok new, w) := by
  have hcreated : ((Store.create (PerBank.ofFn fun _ => 2) "p" false 0o660).run.run {}).1.isOk =
      true := by decide +kernel
  obtain ⟨owner, u, hu, hcreate⟩ := Op.exists_of_isOk hcreated
  have hopened : ((Store.openExisting (PerBank.ofFn fun _ => 1) "p").run.run u).1.isOk = true := by
    rw [hu]
    decide +kernel
  obtain ⟨other, v, hv, hopen⟩ := Op.exists_of_isOk hopened
  have hreplaced : ((Store.openExisting (PerBank.ofFn fun _ => 1) "p").run.run u).1.toOption.all
      (fun s => ((Store.create (PerBank.ofFn fun _ => 2) "p" true 0o660).run.run (v.after
        (.access s (.setElement .holdingRegisters 0 (0x1234 : UInt16))))).1.isOk) = true := by
    rw [hv, hu]
    decide +kernel
  rw [hopen] at hreplaced
  obtain ⟨new, w, -, hreplace⟩ := Op.exists_of_isOk hreplaced
  have hbuilt := Store.yields_create (PerBank.ofFn fun _ => 2) "p" false 0o660 {} {} rfl
  rw [hcreate] at hbuilt
  exact ⟨owner, other, v, new, w, .joined (.founded hcreate) hbuilt.found hopen, hreplace⟩

/-- The names are lost to both, and both read what was written. -/
theorem opened_store_outlives_names :
    ∃ owner other w,
      Company "p" ⟨PerBank.ofFn fun _ => 2, owner⟩
        [⟨PerBank.ofFn fun _ => 1, other⟩, ⟨PerBank.ofFn fun _ => 2, owner⟩] w ∧
      (∀ k, w.segments.find? (owner.mappings.get k).objectName ≠
        some (owner.mappings.get k).object) ∧
      (owner.bank w .holdingRegisters).get? 0 = some (0x1234 : UInt16) ∧
      (other.bank w .holdingRegisters).get? 0 = some (0x1234 : UInt16) := by
  obtain ⟨owner, other, v, new, w, hjoined, hreplace⟩ := taken_after_write
  have hother := List.mem_cons_self (a := (⟨PerBank.ofFn fun _ => 1, other⟩ : Member))
    (l := [⟨PerBank.ofFn fun _ => 2, owner⟩])
  have howner := List.mem_cons_of_mem (⟨PerBank.ofFn fun _ => 1, other⟩ : Member)
    (List.mem_singleton_self ⟨PerBank.ofFn fun _ => 2, owner⟩)
  have hwritten := hjoined.later (.access other (.setElement .holdingRegisters 0 (0x1234 : UInt16)))
  have hlater := hwritten.later (.create (PerBank.ofFn fun _ => 2) "p" true 0o660)
  -- the creation leaves the owner's bank, and the two agree after it
  have hread := hjoined.shared.get?_bank_setElement (k := .holdingRegisters) hother howner
    (Nat.succ_pos 0) (Nat.succ_pos 1) (0x1234 : UInt16)
  obtain ⟨-, -, -, hkept, -⟩ := coherent hwritten
  have howned := (congrArg (Bank.get? · 0) (hkept
    (.create (PerBank.ofFn fun _ => 2) "p" true 0o660) id _ howner .holdingRegisters)).trans hread
  rw [World.after_create, hreplace] at hlater howned
  obtain ⟨hlengths, hagree, -⟩ := coherent hlater
  obtain ⟨x, hx, hshown⟩ := hagree _ howner _ hother .holdingRegisters 0
    ((hlengths _ howner _).1 ▸ Nat.succ_pos 1) ((hlengths _ hother _).1 ▸ Nat.succ_pos 0)
  obtain rfl := Option.some.inj (hx.symm.trans howned)
  exact ⟨owner, other, w, hlater, hwritten.find?_ne_of_create howner hreplace, hx, hshown⟩

end Company
end RtuStation
