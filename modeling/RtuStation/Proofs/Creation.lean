import Mathlib.Data.List.Nodup
import RtuStation.Proofs.Accesses
import RtuStation.Proofs.BankNames
import RtuStation.Proofs.Tables

/-!
# Creating a store

A store is created as a whole or not at all, whatever calls to the system fail on the way.
`Segment.Building` tells how the segments stand in between: what has been created has a name, its
size and nothing written to it, and what was there before is as it was. Acquiring a segment adds one
or leaves those that there are; when a bank fails, those before it are undone one by one. The error
tells the bank.
-/

namespace RtuStation

/-! ### Errors about a name -/

/-- The error is about the object that a text denotes, and tells the text. -/
inductive Error.Concerns (text : String) : Error → Prop where
  | badName (refusal : BadName) : Concerns text (.invalidArgument (.objectName refusal text))
  | rejected (fault : Fault) : Concerns text (.invalidArgument (.rejected text fault))
  | alreadyExists : Concerns text (.alreadyExists text)
  | permissionDenied (fault : Fault) : Concerns text (.permissionDenied text fault)
  | resourceExhausted (fault : Fault) : Concerns text (.resourceExhausted text fault)
  | system (fault : Fault) : Concerns text (.system (quoted text) fault)

theorem Error.ofObject_concerns (text : String) (fault : Fault) :
    Concerns text (.ofObject text fault) := by
  unfold ofObject
  split
  · exact .system fault
  split
  · exact .alreadyExists
  split
  · exact .permissionDenied fault
  split
  · exact .resourceExhausted fault
  split
  · exact .rejected fault
  · exact .system fault

theorem ObjectName.concerns_of_check {text : String} {e : Error}
    (h : ObjectName.check text = .error e) : e.Concerns text := by
  unfold ObjectName.check at h
  split at h
  · cases h
    exact .badName _
  · cases h

theorem quoted_injective {a b : String} (h : quoted a = quoted b) : a = b := by
  have hlist := congrArg String.toList h
  simp only [quoted, String.toList_append] at hlist
  exact String.toList_inj.mp (List.append_cancel_left (List.append_cancel_right hlist))

/-- An error tells one text only. -/
theorem Error.Concerns.unique {a b : String} {e : Error} (ha : e.Concerns a) (hb : e.Concerns b) :
    a = b := by
  cases ha with
  | system fault =>
    generalize htext : quoted a = text at hb
    cases hb
    exact quoted_injective htext
  | _ => cases hb; rfl

/-! ### Segments -/

theorem Memory.octet_zeros (size i : Nat) : (zeros size).octet i = 0 := by
  unfold octet
  split
  · next b hb =>
    simp only [zeros, Array.getElem?_replicate] at hb
    split at hb
    · cases hb
      rfl
    · cases hb
  · rfl

namespace Mapping

def entry (m : Mapping) : ObjectName × Nat := (m.objectName, m.object)

end Mapping

namespace Segment

variable {old r : Registry Segment} {permissions size : Nat} {tried : List String}
  {made : List Mapping} {m : Mapping} {text : String} {name : ObjectName}

/-- A segment that was created with permission bits, and to which nothing was written. -/
def blank (size permissions : Nat) : Segment where
  memory := .zeros size
  mode := sizedMode (permissions &&& modeBits)

/-- The segments while some are created with the same permission bits: those that the mappings
`made` lead to are new, have their size, and nothing was written to them. -/
structure Building (old : Registry Segment) (permissions : Nat) (tried : List String)
    (made : List Mapping) (r : Registry Segment) : Prop
    extends old.Gained tried (made.map Mapping.entry) r where
  objects : ∀ n < old.next, r.get? n = old.get? n
  blank : ∀ m ∈ made, r.get? m.object = some (.blank m.size permissions)
  named : ∀ m ∈ made, ObjectName.ofText m.name = .ok m.objectName

theorem Building.refl (r : Registry Segment) : Building r permissions [] [] r :=
  { Registry.Gained.refl r with
    objects := fun _ _ => rfl
    blank := nofun
    named := nofun }

theorem Building.retry (h : Building old permissions tried made r) (text : String) :
    Building old permissions (text :: tried) made r :=
  { h with toGained := h.toGained.retry text }

theorem Building.found_of_mem (h : Building old permissions tried made r) (hm : m ∈ made) :
    r.find? m.objectName = some m.object := h.found m.entry (List.mem_map_of_mem hm)

/-- What was left behind without a name changes nothing. -/
theorem Building.grown {after : Registry Segment} (h : Building old permissions tried made r)
    (hgrown : r.Grown (fun _ => True) [] after) : Building old permissions tried made after := by
  have hsame := hgrown.sameTable
  refine { h.toGained.of_names hsame.names hgrown.next with
    objects := fun n hn => ?_, blank := fun m hm => ?_, named := h.named }
  · rw [hsame.objects n (Nat.lt_of_lt_of_le hn h.next)]
    exact h.objects n hn
  · rw [hsame.objects _ (Registry.lt_next_of_find? (h.found_of_mem hm))]
    exact h.blank m hm

theorem Building.add (h : Building old permissions tried made r) (hfree : r.find? name = none)
    (hname : ObjectName.ofText text = .ok name) (hdenoted : name.DenotedBy tried) (size : Nat) :
    Building old permissions tried (⟨r.next, size, text, name⟩ :: made)
      (r.add name (.blank size permissions)) := by
  refine { h.toGained.add hfree hdenoted _ with
    objects := fun n hn => ?_, blank := ?_, named := List.forall_mem_cons.mpr ⟨hname, h.named⟩ }
  · rw [Registry.get?_add_of_ne r name _ (Nat.ne_of_lt (Nat.lt_of_lt_of_le hn h.next))]
    exact h.objects n hn
  · refine List.forall_mem_cons.mpr ⟨Registry.get?_add_next .., fun m hm => ?_⟩
    have hold := Registry.lt_next_of_find? (h.found_of_mem hm)
    rw [Registry.get?_add_of_ne r name _ (Nat.ne_of_lt hold)]
    exact h.blank m hm

theorem Building.remove (h : Building old permissions tried made r)
    (hname : name.DenotedBy tried) (hapart : ∀ m ∈ made, m.objectName ≠ name) :
    Building old permissions tried made (r.remove name) := by
  have hentries : ∀ entry ∈ made.map Mapping.entry, entry.1 ≠ name := by
    intro entry hentry
    obtain ⟨m, hm, rfl⟩ := List.mem_map.mp hentry
    exact hapart m hm
  exact { h.toGained.remove hname hentries with
    objects := h.objects, blank := h.blank, named := h.named }

theorem Building.undo (h : Building old permissions tried (m :: made) r) :
    Building old permissions tried made (r.remove m.objectName) :=
  { Registry.Gained.undo h.toGained with
    objects := h.objects
    blank := fun other hother => h.blank other (List.mem_cons_of_mem _ hother)
    named := fun other hother => h.named other (List.mem_cons_of_mem _ hother) }

/-! ### Calls that create segments -/

theorem keeps_meet (I : Registry Segment → Prop) : Deed.Keeps (fun w => I w.segments) meet := by
  intro w hw
  have hsame := (meet_unmoved (rfl : meet.run w = ((meet.run w).1, (meet.run w).2))).1.segments
  exact hsame ▸ hw

theorem keeps_meetDescriptor (I : Registry Segment → Prop) :
    Deed.Keeps (fun w => I w.segments) meetDescriptor := Deed.keeps_meetDescriptor (keeps_meet I)

theorem ensures_unlink (I : Registry Segment → Prop) (name : ObjectName) :
    Deed.Ensures (fun w => I (w.segments.remove name)) (unlink name) fun _ w => I w.segments := by
  intro w hw
  unfold unlink
  simp only [StateT.run_bind, StateT.run_get, pure_bind]
  cases hfound : w.segments.find? name with
  | some _ => exact hw
  | none =>
    rw [Registry.remove_of_free hfound] at hw
    exact hw

/-- What a segment is after its mode was set. -/
def moded (mode : Nat) (s : Segment) : Segment := { s with mode := mode &&& modeBits }

/-- What a segment is after its size was set. -/
def sized (size : Nat) (s : Segment) : Segment :=
  { s with memory := .zeros size, mode := sizedMode s.mode }

theorem ensures_modifySegment (number : Nat) (f : Segment → Segment) :
    Deed.Ensures (fun w => w.segments = r)
      (modify fun w => { w with segments := w.segments.modify number f })
      fun _ w => w.segments = r.modify number f :=
  Deed.ensures_modify fun _ hw => congrArg (Registry.modify · number f) hw

/-- Whatever fails, only the new segment is changed. -/
theorem ensures_prepare (number : Nat) {size mode : Nat} :
    Deed.Ensures (fun w => w.segments = r) (prepare number size mode) fun fault w =>
      ∃ f, w.segments = r.modify number f ∧ (fault = none → f = sized size ∘ moded mode) := by
  unfold prepare
  refine Deed.ensures_bind (keeps_meet (· = r)) fun fault => ?_
  cases fault with
  | some e =>
    have hid : r.modify number id = r := r.modify_of_fixed fun _ _ => rfl
    exact Deed.ensures_pure fun _ hw => ⟨id, hw.trans hid.symm, nofun⟩
  | none =>
    refine Deed.ensures_bind (ensures_modifySegment number (moded mode)) fun _ => ?_
    split
    · exact Deed.ensures_pure fun w hw => ⟨_, hw, nofun⟩
    refine Deed.ensures_bind (keeps_meet (· = r.modify number (moded mode))) fun fault => ?_
    cases fault with
    | some e => exact Deed.ensures_pure fun w hw => ⟨_, hw, nofun⟩
    | none =>
      refine Deed.ensures_bind (ensures_modifySegment number (sized size)) fun _ => ?_
      rw [Registry.modify_modify]
      split
      · exact Deed.ensures_pure fun w hw => ⟨_, hw, nofun⟩
      split
      · exact Deed.ensures_pure fun w hw => ⟨_, hw, fun _ => rfl⟩
      · exact (keeps_meet (· = _)).mono (fun _ hw => hw) fun _ _ hw => ⟨_, hw, fun _ => rfl⟩

theorem ensures_create (name : ObjectName) (size mode : Nat) :
    Deed.Ensures (fun w => w.segments = r) (create name size mode) fun result w =>
      match result with
      | .ok number => number = r.next ∧ r.find? name = none ∧
        w.segments = r.add name (.blank size mode)
      | .error _ => r.Grown (fun _ => True) [] w.segments := by
  unfold create
  refine Deed.ensures_bind (keeps_meetDescriptor (· = r)) fun fault => ?_
  cases fault with
  | some e => exact Deed.ensures_pure fun _ hw => Registry.Grown.of_eq hw
  | none =>
    refine Deed.ensures_bind Deed.ensures_get fun v => ?_
    split
    · exact Deed.ensures_pure fun _ hw => Registry.Grown.of_eq hw.2
    next hfree =>
    have hbind : Deed.Ensures (fun w => w = v ∧ w.segments = r) (bind name mode) fun number w =>
        (r.find? name = none ∧ number = r.next) ∧
          w.segments = r.add name { mode := mode } := by
      rintro w ⟨rfl, rfl⟩
      refine ⟨⟨?_, rfl⟩, rfl⟩
      cases hfound : w.segments.find? name with
      | none => rfl
      | some _ => simp [hfound] at hfree
    refine Deed.ensures_bind hbind fun number => Deed.ensures_of_fact ?_
    rintro ⟨hnone, rfl⟩
    have hgrown := (Registry.Grown.refl (fun _ => True) r).add hnone { mode := mode }
    refine Deed.ensures_bind (ensures_prepare r.next) fun fault => ?_
    cases fault with
    | none =>
      refine Deed.ensures_pure fun w hw => ⟨rfl, hnone, ?_⟩
      obtain ⟨f, hw, hf⟩ := hw
      rw [hw, hf rfl, Registry.modify_add_next]
      rfl
    | some e =>
      -- preparing may have changed the new segment in part, but its name is removed with it
      have hgone : Deed.Ensures (fun w => ∃ f, w.segments = (r.add name { mode := mode }).modify
          r.next f ∧ (some e = none → f = sized size ∘ moded mode)) (unlink name) fun _ w =>
            r.Grown (fun _ => True) [] w.segments := by
        refine (ensures_unlink (r.Grown (fun _ => True) []) name).mono ?_ fun _ _ hw => hw
        rintro w ⟨f, hw, -⟩
        rw [hw]
        exact (hgrown.modify (.inl (Nat.le_refl _)) f).remove
      exact Deed.ensures_bind hgone fun _ => Deed.ensures_pure fun _ hw => hw

/-- An attempt to create a segment under a name was made; if it succeeded, there is one more. -/
def Attempted (old : Registry Segment) (permissions : Nat) (tried : List String)
    (made : List Mapping) (text : String) (size : Nat) (name : ObjectName)
    (result : Except Fault Nat) (w : World) : Prop :=
  match result with
  | .ok number => Building old permissions tried (⟨number, size, text, name⟩ :: made) w.segments
  | .error _ => Building old permissions tried made w.segments

theorem building_create (hname : ObjectName.ofText text = .ok name)
    (hdenoted : name.DenotedBy tried) :
    Deed.Ensures (fun w => Building old permissions tried made w.segments)
      (create name size permissions) (Attempted old permissions tried made text size name) := by
  intro w hw
  have hcreate := ensures_create name size permissions w rfl
  generalize (create name size permissions).run w = course at hcreate
  obtain ⟨result, after⟩ := course
  cases result with
  | error fault => exact hw.grown hcreate
  | ok number =>
    obtain ⟨rfl, hfree, hafter⟩ := hcreate
    show Building old permissions tried _ after.segments
    rw [hafter]
    exact hw.add hfree hname hdenoted size

theorem keeps_report (I : Registry Segment → Prop) (notice : Notice) :
    Deed.Keeps (fun w => I w.segments) (report notice) := fun _ hw => hw

theorem building_reclaim (hname : ObjectName.ofText text = .ok name)
    (hdenoted : name.DenotedBy tried) (hapart : ∀ m ∈ made, m.objectName ≠ name) :
    Deed.Ensures (fun w => Building old permissions tried made w.segments)
      (reclaim text name size permissions)
      (Attempted old permissions tried made text size name) := by
  unfold reclaim
  refine Deed.ensures_bind (building_create hname hdenoted) fun result => ?_
  cases result with
  | ok number => exact Deed.ensures_pure fun _ hw => hw
  | error fault =>
    dsimp only
    split
    · refine Deed.ensures_bind (keeps_report _ _) fun _ => ?_
      have hunlink := (ensures_unlink (Building old permissions tried made) name).mono
        (fun w hw => Building.remove hw hdenoted hapart) fun _ _ hw => hw
      exact Deed.ensures_bind hunlink fun _ => building_create hname hdenoted
    · exact Deed.ensures_pure fun _ hw => hw

/-- A segment is acquired under a text that denotes none of the names that were made. -/
theorem building_acquire (force : Bool)
    (hapart : ∀ m ∈ made, ∀ name, ObjectName.ofText text = .ok name →
      ObjectName.ofText m.name ≠ .ok name) :
    Op.Yields (fun w => Building old permissions tried made w.segments)
      (acquire text size (if force then .force else .create) permissions)
      (fun m w => (m.name = text ∧ m.size = size) ∧
        Building old permissions (text :: tried) (m :: made) w.segments)
      (fun e w => e.Concerns text ∧
        Building old permissions (text :: tried) made w.segments) := by
  have hcheck : Op.Yields (fun w => Building old permissions tried made w.segments)
      (Op.ofExcept (ObjectName.check text))
      (fun name w => ObjectName.ofText text = .ok name ∧ (∀ m ∈ made, m.objectName ≠ name) ∧
        Building old permissions (text :: tried) made w.segments)
      (fun e w => e.Concerns text ∧
        Building old permissions (text :: tried) made w.segments) := by
    refine Op.yields_ofExcept (fun name hcheck w hw => ?_) fun e hcheck w hw => ?_
    · have hname := ObjectName.ofText_of_check hcheck
      exact ⟨hname, fun m hm heq => hapart m hm name hname (heq ▸ hw.named m hm), hw.retry text⟩
    · exact ⟨ObjectName.concerns_of_check hcheck, hw.retry text⟩
  unfold acquire
  refine Op.yields_bind hcheck fun name => Op.yields_of_fact fun hname =>
    Op.yields_of_fact fun hother => ?_
  have hdenoted : name.DenotedBy (text :: tried) := ObjectName.denotedBy_head hname
  cases force
  case' false =>
    refine Op.yields_bind (Op.yields_lift (building_create hname hdenoted)) fun result => ?_
  case' true =>
    refine Op.yields_bind (Op.yields_lift (building_reclaim hname hdenoted hother)) fun result => ?_
  all_goals
    cases result with
    | error fault => exact Op.yields_throw fun _ hw => ⟨Error.ofObject_concerns text fault, hw⟩
    | ok number => exact Op.yields_pure fun _ hw => ⟨⟨rfl, rfl⟩, hw⟩

/-- The segment that was made latest is undone. -/
theorem building_unlinkText :
    Deed.Ensures (fun w => Building old permissions tried (m :: made) w.segments)
      (unlinkText m.name) fun _ w => Building old permissions tried made w.segments := by
  intro w hw
  unfold unlinkText
  rw [hw.named m (List.mem_cons_self ..)]
  exact Deed.ensures_bind (ensures_unlink (Building old permissions tried made) m.objectName)
    (fun _ => Deed.keeps_pure) w hw.undo

end Segment

/-! ### Stores -/

/-- The banks up to one in the order of their creation, the latest first. -/
def BankKind.upTo : BankKind → List BankKind
  | .coils => [.coils]
  | .discreteInputs => [.discreteInputs, .coils]
  | .holdingRegisters => [.holdingRegisters, .discreteInputs, .coils]
  | .inputRegisters => [.inputRegisters, .holdingRegisters, .discreteInputs, .coils]

theorem BankKind.bankName_injective {stem : String} {k l : BankKind}
    (h : bankName stem k.suffix = bankName stem l.suffix) : k = l := by
  have hlist := congrArg String.toList h
  simp only [bankName, String.toList_append] at hlist
  have hsuffix := List.append_cancel_left hlist
  revert hsuffix
  cases k <;> cases l <;> decide

theorem BankKind.mem_all (k : BankKind) : k ∈ BankKind.all := by
  cases k <;> decide

namespace Sizes

theorem le_of_check {sizes : Sizes} (h : sizes.check = .ok ()) (k : BankKind) :
    sizes.get k ≤ maxBankSize := by
  unfold check at h
  split at h
  · cases h
  · next hnone =>
    have hle := List.find?_eq_none.mp hnone k (BankKind.mem_all k)
    exact Nat.not_lt.mp (by simpa using hle)

theorem oversized_of_check {sizes : Sizes} {e : Error} (h : sizes.check = .error e) :
    ∃ k, maxBankSize < sizes.get k ∧ e = .invalidArgument (.bankSize k (sizes.get k)) := by
  unfold check at h
  split at h
  · next k hsome =>
    cases h
    exact ⟨k, by simpa using List.find?_some hsome, rfl⟩
  · cases h

end Sizes

namespace Store

open Segment (Building)

variable {old : Registry Segment} {permissions : Nat} {stem : String} {made : List Mapping}

def bankNames (stem : String) (banks : List BankKind) : List String :=
  banks.map fun k => bankName stem k.suffix

/-- Creation has failed at a bank, which the error tells. -/
def Failed (old : Registry Segment) (permissions : Nat) (stem : String) (made : List Mapping)
    (e : Error) (w : World) : Prop :=
  ∃ k : BankKind, e.Concerns (bankName stem k.suffix) ∧
    Building old permissions (bankNames stem k.upTo) made w.segments

theorem building_orUnlink {α : Type} {m : Mapping} {P : World → Prop} {following : Op α}
    {Q : α → World → Prop} (h : Op.Yields P following Q (Failed old permissions stem (m :: made))) :
    Op.Yields P (orUnlink m following) Q (Failed old permissions stem made) := by
  refine Op.yields_undoing h fun e => ?_
  rintro w ⟨k, hconcerns, hbuilding⟩
  exact ⟨k, hconcerns, Segment.building_unlinkText w hbuilding⟩

theorem building_acquireAll (sizes : Sizes) (force : Bool) :
    Op.Yields (fun w => Building old permissions [] [] w.segments)
      (acquireAll fun k => Segment.acquire (bankName stem k.suffix) (sizes.get k * k.elementSize)
        (if force then .force else .create) permissions)
      (fun mappings w =>
        (∀ k, (mappings.get k).name = bankName stem k.suffix ∧
          (mappings.get k).size = sizes.get k * k.elementSize) ∧
        Building old permissions (bankNames stem BankKind.inputRegisters.upTo)
          mappings.toList.reverse w.segments)
      (Failed old permissions stem []) := by
  -- One bank: its name is none of those made before, since each suffix tells its bank.
  have hacquire (k : BankKind) {tried : List String} {made : List Mapping}
      (hmade : ∀ m ∈ made, ∃ l, l ≠ k ∧ m.name = bankName stem l.suffix)
      (htried : bankName stem k.suffix :: tried = bankNames stem k.upTo) :
      Op.Yields (fun w => Building old permissions tried made w.segments)
        (Segment.acquire (bankName stem k.suffix) (sizes.get k * k.elementSize)
          (if force then .force else .create) permissions)
        (fun m w => (m.name = bankName stem k.suffix ∧ m.size = sizes.get k * k.elementSize) ∧
          Building old permissions (bankNames stem k.upTo) (m :: made) w.segments)
        (Failed old permissions stem made) := by
    rw [← htried]
    refine (Segment.building_acquire force fun m hm name hname hother => ?_).mono
      (fun _ hw => hw) (fun _ _ hw => hw) fun e w hw => ⟨k, hw.1, htried ▸ hw.2⟩
    obtain ⟨l, hne, hl⟩ := hmade m hm
    exact hne (BankKind.eq_of_ofText_bankName (hl ▸ hother) hname)
  unfold acquireAll
  -- Each acquisition stands between the undoing of the one before it and its own.
  refine Op.yields_bind (hacquire .coils nofun rfl) fun coils => Op.yields_of_fact fun hcoils => ?_
  refine building_orUnlink ?_
  refine Op.yields_bind (hacquire .discreteInputs ?_ rfl) fun discreteInputs =>
    Op.yields_of_fact fun hdiscrete => ?_
  · exact List.forall_mem_cons.mpr ⟨⟨_, by decide, hcoils.1⟩, nofun⟩
  refine building_orUnlink ?_
  refine Op.yields_bind (hacquire .holdingRegisters ?_ rfl) fun holdingRegisters =>
    Op.yields_of_fact fun hholding => ?_
  · exact List.forall_mem_cons.mpr ⟨⟨_, by decide, hdiscrete.1⟩,
      List.forall_mem_cons.mpr ⟨⟨_, by decide, hcoils.1⟩, nofun⟩⟩
  refine building_orUnlink ?_
  refine Op.yields_bind (hacquire .inputRegisters ?_ rfl) fun inputRegisters =>
    Op.yields_of_fact fun hinput => ?_
  · exact List.forall_mem_cons.mpr ⟨⟨_, by decide, hholding.1⟩,
      List.forall_mem_cons.mpr ⟨⟨_, by decide, hdiscrete.1⟩,
        List.forall_mem_cons.mpr ⟨⟨_, by decide, hcoils.1⟩, nofun⟩⟩⟩
  refine Op.yields_pure fun w hw => ⟨fun k => ?_, hw⟩
  cases k with
  | coils => exact hcoils
  | discreteInputs => exact hdiscrete
  | holdingRegisters => exact hholding
  | inputRegisters => exact hinput

/-- The store is what was asked for: its names refer to four new segments of its own, which have
their sizes and permission bits and hold nothing but zeros, and its views have their lengths. -/
structure Established (sizes : Sizes) (stem : String) (permissions : Nat) (before after : World)
    (s : Store) : Prop where
  distinct : s.Distinct
  fresh : ∀ k, before.segments.next ≤ (s.mappings.get k).object
  named : ∀ k, ∃ name, ObjectName.ofText (bankName stem k.suffix) = .ok name ∧
    after.segments.find? name = some (s.mappings.get k).object
  segments : ∀ k, ∃ segment, after.segments.get? (s.mappings.get k).object = some segment ∧
    segment.memory.size = sizes.get k * k.elementSize ∧ segment.mode = permissions ∧
    ∀ i, segment.memory.octet i = 0
  views : ∀ k, ((s.banks after).get k).length = sizes.get k

/-- Names that banks do not have refer to what they referred to, and segments are as they were. -/
structure Spared (stem : String) (banks : List BankKind) (before after : World) : Prop where
  names : ∀ name, ¬name.DenotedBy (bankNames stem banks) →
    after.segments.find? name = before.segments.find? name
  objects : ∀ n < before.segments.next, after.segments.get? n = before.segments.get? n

theorem spared_of_building {k : BankKind} {before after : World}
    (h : Building before.segments permissions (bankNames stem k.upTo) made after.segments) :
    Spared stem k.upTo before after := ⟨h.others, h.objects⟩

/-- A store has just been created, with its four segments. -/
structure Built (before : Registry Segment) (sizes : Sizes) (stem : String) (permissions : Nat)
    (s : Store) (w : World) : Prop where
  whole : s.ownership = .owned ∧ s.destroyed = false
  small : ∀ k, sizes.get k ≤ maxBankSize
  made : ∀ k, (s.mappings.get k).name = bankName stem k.suffix ∧
    (s.mappings.get k).size = sizes.get k * k.elementSize
  building : Building before permissions (bankNames stem BankKind.inputRegisters.upTo)
    s.mappings.toList.reverse w.segments

theorem mem_mappings (s : Store) (k : BankKind) :
    s.mappings.get k ∈ s.mappings.toList.reverse :=
  List.mem_reverse.mpr (List.mem_map_of_mem (BankKind.mem_all k))

namespace Built

variable {before : Registry Segment} {sizes : Sizes} {s : Store} {w : World}

theorem distinct (h : s.Built before sizes stem permissions w) : s.Distinct := by
  have hnodup : (BankKind.all.map fun k => (s.mappings.get k).object).Nodup := by
    have hdistinct := h.building.distinct
    rw [List.pairwise_map, List.pairwise_reverse, PerBank.toList, List.pairwise_map] at hdistinct
    exact List.pairwise_map.mpr (hdistinct.imp Ne.symm)
  exact fun k l heq => List.inj_on_of_nodup_map hnodup (BankKind.mem_all k) (BankKind.mem_all l) heq

theorem fresh (h : s.Built before sizes stem permissions w) (k : BankKind) :
    before.next ≤ (s.mappings.get k).object :=
  h.building.fresh _ (List.mem_map_of_mem (s.mem_mappings k))

theorem named (h : s.Built before sizes stem permissions w) (k : BankKind) :
    ObjectName.ofText (bankName stem k.suffix) = .ok (s.mappings.get k).objectName := by
  rw [← (h.made k).1]
  exact h.building.named _ (s.mem_mappings k)

theorem found (h : s.Built before sizes stem permissions w) (k : BankKind) :
    w.segments.find? (s.mappings.get k).objectName = some (s.mappings.get k).object :=
  h.building.found_of_mem (s.mem_mappings k)

theorem stands (h : s.Built before sizes stem permissions w) (k : BankKind) :
    Segment.Stands w.segments (s.mappings.get k).object (s.mappings.get k).size :=
  ⟨_, h.building.blank _ (s.mem_mappings k), rfl, Memory.sound_zeros _⟩

theorem mapped (h : s.Built before sizes stem permissions w) : s.Mapped w.segments :=
  fun k => ⟨_, Nat.le_refl _, h.stands k⟩

theorem length (h : s.Built before sizes stem permissions w) (k : BankKind) :
    s.length k = sizes.get k := length_of_size (h.small k) (h.made k).2

theorem established {before : World} (h : s.Built before.segments sizes stem permissions w)
    (hmode : permissions ≤ 0o777) : s.Established sizes stem permissions before w where
  distinct := h.distinct
  fresh := h.fresh
  named := fun k => ⟨_, h.named k, h.found k⟩
  segments := fun k => ⟨_, h.building.blank _ (s.mem_mappings k), (h.made k).2,
    Segment.sizedMode_of_le hmode, Memory.octet_zeros _⟩
  views := fun k => by
    rw [get_banks, length_bank (h.mapped k), h.length k]

end Built

/-- Creation was given up: before anything was done, or at a bank. -/
def Abandoned (before : World) (sizes : Sizes) (stem : String) (permissions : Nat) (e : Error)
    (after : World) : Prop :=
  (sizes.check = .error e ∧ after = before) ∨
    (∀ k, sizes.get k ≤ maxBankSize) ∧ Failed before.segments permissions stem [] e after

theorem yields_create (sizes : Sizes) (stem : String) (force : Bool) (permissions : Nat)
    (before : World) :
    Op.Yields (fun w => w = before) (create sizes stem force permissions)
      (Built before.segments sizes stem permissions)
      (Abandoned before sizes stem permissions) := by
  have hcheck : Op.Yields (fun w => w = before) (Op.ofExcept sizes.check)
      (fun _ w => sizes.check = .ok () ∧ Building before.segments permissions [] [] w.segments)
      (Abandoned before sizes stem permissions) := by
    refine Op.yields_ofExcept (fun _ hcheck w hw => ?_) fun e hcheck w hw => .inl ⟨hcheck, hw⟩
    subst hw
    exact ⟨hcheck, .refl w.segments⟩
  unfold create
  refine Op.yields_bind hcheck fun _ => Op.yields_of_fact fun hcheck => ?_
  have hsizes := Sizes.le_of_check hcheck
  refine Op.yields_bind ((building_acquireAll sizes force).mono (fun _ hw => hw)
    (fun _ _ hw => hw) fun _ _ hw => .inr ⟨hsizes, hw⟩) fun mappings => ?_
  refine Op.yields_of_fact fun hmade => ?_
  refine Op.yields_bind (Op.yields_lift (Segment.keeps_report _ _)) fun _ => ?_
  exact Op.yields_pure fun after hw => ⟨⟨rfl, rfl⟩, hsizes, hmade, hw⟩

/-- A store is created as a whole or not at all, whatever the surroundings do at the calls to the
system. -/
theorem create_all_or_nothing (sizes : Sizes) (stem : String) (force : Bool) {permissions : Nat}
    (hmode : permissions ≤ 0o777) (before : World) :
    match (create sizes stem force permissions).run.run before with
    | (.ok s, after) =>
      (∀ k, sizes.get k ≤ maxBankSize) ∧ s.Established sizes stem permissions before after ∧
        Spared stem BankKind.inputRegisters.upTo before after
    | (.error e, after) =>
      ((∃ k, maxBankSize < sizes.get k ∧ e = .invalidArgument (.bankSize k (sizes.get k))) ∧
        after = before) ∨
      ((∀ k, sizes.get k ≤ maxBankSize) ∧
        (force = false → before.segments.SameTable after.segments) ∧
        (∀ name n, after.segments.find? name = some n → before.segments.find? name = some n) ∧
        ∃ k, (∀ l : BankKind, e.Concerns (bankName stem l.suffix) ↔ l = k) ∧
          Spared stem k.upTo before after) := by
  have hyields := yields_create sizes stem force permissions before before rfl
  have hstart : before.Since (fun _ => False) [] [] before :=
    ⟨.refl _ _, .refl _ _, fun _ _ _ _ _ => not_false⟩
  have hsame (hforce : force = false) : ∀ e after,
      (create sizes stem force permissions).run.run before = (.error e, after) →
        before.segments.SameTable after.segments := by
    intro e after hrun
    subst hforce
    have hcreate : Op.Ensures (before.Since (fun _ => False) [] [])
        (create sizes stem false permissions) _ _ := since_create
    have hsince := hcreate before hstart
    rw [hrun] at hsince
    exact hsince.segments.sameTable
  generalize (create sizes stem force permissions).run.run before = course at hyields hsame
  obtain ⟨e | s, after⟩ := course
  · rcases hyields with ⟨hcheck, hafter⟩ | ⟨hsizes, k, hconcerns, hbuilding⟩
    · exact .inl ⟨Sizes.oversized_of_check hcheck, hafter⟩
    · refine .inr ⟨hsizes, fun hforce => hsame hforce e after rfl, fun name n hfound => ?_, k,
        fun l => ⟨fun hl => ?_, fun heq => heq ▸ hconcerns⟩, spared_of_building hbuilding⟩
      · exact (hbuilding.bound name n hfound).resolve_right List.not_mem_nil
      · exact BankKind.bankName_injective (hl.unique hconcerns)
  · exact ⟨hyields.small, hyields.established hmode, spared_of_building hyields.building⟩

/-- A world in which another segment has the name of the third bank, and in which there is no
memory to map the one that takes its place. -/
def crowded : World where
  segments := Registry.empty.add ⟨"/pAO"⟩ { memory := .zeros 2, mode := 0o600 }
  agenda := List.replicate 12 {} ++ [{ fault := some .noMemory }]

/-- By force, the other segment loses its name, and the new ones are gone all the same. -/
theorem crowded_creation_leaves_nothing :
    0o660 ≤ 0o777 ∧
    ∃ e after,
      (create (PerBank.ofFn fun _ => 1) "p" true 0o660).run.run crowded = (.error e, after) ∧
      ∀ name n, after.segments.find? name = some n → crowded.segments.find? name = some n := by
  have hmode : 0o660 ≤ 0o777 := by decide
  refine ⟨hmode, ?_⟩
  have hcreated := create_all_or_nothing (PerBank.ofFn fun _ => 1) "p" true hmode crowded
  have hfails : ((create (PerBank.ofFn fun _ => 1) "p" true 0o660).run.run crowded).1.isOk =
      false := by decide +kernel
  generalize (create (PerBank.ofFn fun _ => 1) "p" true 0o660).run.run crowded = course
    at hcreated hfails
  obtain ⟨e | s, after⟩ := course
  · refine ⟨e, after, rfl, ?_⟩
    rcases hcreated with ⟨⟨k, hk, -⟩, -⟩ | ⟨-, -, hnames, -⟩
    · rw [PerBank.get_ofFn] at hk
      exact absurd hk (by decide)
    · exact hnames
  · cases hfails

end Store
end RtuStation
