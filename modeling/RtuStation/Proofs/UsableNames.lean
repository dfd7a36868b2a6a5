import RtuStation.Proofs.CanonicalNames
import RtuStation.Proofs.Outlines

/-!
# Names that both kinds of objects can have

Where no limit is met and no call is made to fail, what a call answers is told by the tables alone,
and `World.Open` keeps them in view: every accepted text serves to create a free segment and to
find it again. The system puts a mark in front of the names of semaphores and takes four octets less
for them. A name that is kept whole can be too long by that, and so can one that is cut, if the last
character that fits ends late.
-/

namespace RtuStation

/-! ### Calls that nothing hinders -/

/-- Descriptors can be had, and no call is made to fail. -/
structure World.Unhindered (w : World) : Prop where
  able : w.exhausted = false
  calm : ∀ happening ∈ w.agenda, happening.fault = none

/-- Nothing hinders a call, and the tables are given ones. Of the semaphores, others may change the
counts. -/
structure World.Open (segments : Registry Segment) (semaphores : Registry Unit) (w : World) : Prop
    extends w.Unhindered where
  segments : w.segments = segments
  semaphores : w.table .semaphore = semaphores

theorem World.Unhindered.isOpen {w : World} (h : w.Unhindered) :
    w.Open w.segments (w.table .semaphore) := ⟨h, rfl, rfl⟩

variable {r : Registry Segment} {t : Registry Unit} {name : ObjectName} {text : String}

theorem open_meet :
    Deed.Ensures (World.Open r t) meet fun fault w => fault = none ∧ w.Open r t := by
  intro w hw
  rw [meet_run]
  cases hagenda : w.agenda with
  | nil => exact ⟨rfl, hw⟩
  | cons happening later =>
    have hcalm := hw.calm
    rw [hagenda] at hcalm
    have hlater : ∀ other ∈ later, other.fault = none := fun other hother =>
      hcalm other (List.mem_cons_of_mem _ hother)
    exact ⟨hcalm happening (List.mem_cons_self ..), ⟨hw.able, hlater⟩, hw.segments,
      (w.table_pass happening later .semaphore).trans hw.semaphores⟩

theorem open_meetDescriptor :
    Deed.Ensures (World.Open r t) meetDescriptor fun fault w => fault = none ∧ w.Open r t := by
  intro w hw
  have hmeet := open_meet w hw
  unfold meetDescriptor
  rw [StateT.run_bind, StateT.run_get, pure_bind, hw.able]
  exact hmeet

namespace Segment

variable {size permissions : Nat}

theorem open_modify (number : Nat) (f : Segment → Segment) :
    Deed.Ensures (World.Open r t)
      (modify fun w => { w with segments := w.segments.modify number f })
      fun _ w => w.Open (r.modify number f) t :=
  Deed.ensures_modify fun _ hw =>
    ⟨⟨hw.able, hw.calm⟩, congrArg (Registry.modify · number f) hw.segments, hw.semaphores⟩

theorem open_prepare {number : Nat} (hsize : size ≤ mapLimit) :
    Deed.Ensures (World.Open r t) (prepare number size permissions) fun fault w =>
      fault = none ∧ w.Open (r.modify number (sized size ∘ moded permissions)) t := by
  have hlimit : mapLimit < sizeLimit := by decide
  unfold prepare
  refine Deed.ensures_bind_known open_meet ?_
  refine Deed.ensures_bind (open_modify number (moded permissions)) fun _ => ?_
  rw [if_neg (by omega)]
  refine Deed.ensures_bind_known open_meet ?_
  refine Deed.ensures_bind (open_modify number (sized size)) fun _ => ?_
  rw [if_neg (by omega), Registry.modify_modify]
  split
  · exact Deed.ensures_pure fun _ hw => ⟨rfl, hw⟩
  · exact open_meet

theorem open_create (hsize : size ≤ mapLimit) (hplain : name.isDirectory = false)
    (hfree : r.find? name = none) :
    Deed.Ensures (World.Open r t) (create name size permissions) fun result w =>
      result = .ok r.next ∧ w.Open (r.add name (.blank size permissions)) t := by
  have hbind : Deed.Ensures (World.Open r t) (bind name permissions) fun number w =>
      number = r.next ∧ w.Open (r.add name { mode := permissions }) t := by
    rintro w ⟨hw, rfl, rfl⟩
    exact ⟨rfl, ⟨hw.able, hw.calm⟩, rfl, rfl⟩
  unfold create
  refine Deed.ensures_bind_known open_meetDescriptor (Deed.ensures_get_bind fun v hv => ?_)
  rw [if_neg (by simp [hplain, hv.segments, hfree])]
  refine Deed.ensures_bind_known hbind (Deed.ensures_bind_known (open_prepare hsize) ?_)
  rw [Registry.modify_add_next]
  exact Deed.ensures_pure fun _ hw => ⟨rfl, hw⟩

theorem open_attach {number : Nat} {segment : Segment} (hsize : size ≤ segment.memory.size)
    (hplain : name.isDirectory = false) (hfound : r.find? name = some number)
    (hsegment : r.get? number = some segment)
    (hmode : segment.mode &&& ownerAccess = ownerAccess) :
    Deed.Ensures (World.Open r t) (attach name size) fun result w =>
      result = .ok number ∧ w.Open r t := by
  unfold attach
  refine Deed.ensures_bind_known open_meetDescriptor ?_
  dsimp only
  rw [if_neg (by simp [hplain])]
  refine Deed.ensures_get_bind fun v hv => ?_
  simp only [hv.segments, hfound, hsegment, Option.getD_some, hmode, ne_eq, not_true_eq_false,
    if_false]
  refine Deed.ensures_bind_known open_meet ?_
  dsimp only
  rw [if_neg (by omega)]
  split
  · exact Deed.ensures_pure fun _ hw => ⟨rfl, hw⟩
  · exact Deed.ensures_bind_known open_meet (Deed.ensures_pure fun _ hw => ⟨rfl, hw⟩)

theorem land_ownerAccess_blank (size permissions : Nat)
    (h : permissions &&& ownerAccess = ownerAccess) :
    (blank size permissions).mode &&& ownerAccess = ownerAccess := by
  have hmask (mask : Nat) (hmask : mask &&& ownerAccess = ownerAccess) (mode : Nat)
      (hmode : mode &&& ownerAccess = ownerAccess) :
      (mode &&& mask) &&& ownerAccess = ownerAccess := by
    rw [Nat.land_assoc, hmask, hmode]
  have hbits := hmask modeBits (by decide) permissions h
  unfold blank sizedMode
  dsimp only
  split
  · exact hmask 0o3777 (by decide) _ hbits
  · exact hmask 0o1777 (by decide) _ hbits

theorem open_acquire_create (hname : ObjectName.ofText text = .ok name) (hsize : size ≤ mapLimit)
    (hplain : name.isDirectory = false) (hfree : r.find? name = none) :
    Op.Yields (World.Open r t) (acquire text size .create permissions)
      (fun m w => m.object = r.next ∧ w.Open (r.add name (.blank size permissions)) t)
      fun _ _ => False := by
  unfold acquire
  refine Op.yields_known_bind (ObjectName.check_of_ofText hname) ?_
  refine Op.yields_bind (Op.yields_lift (open_create hsize hplain hfree)) fun result => ?_
  refine Op.yields_of_fact ?_
  rintro rfl
  exact Op.yields_pure fun _ hw => ⟨rfl, hw⟩

theorem open_acquire_attach {number : Nat} {segment : Segment}
    (hname : ObjectName.ofText text = .ok name) (hsize : size ≤ segment.memory.size)
    (hplain : name.isDirectory = false) (hfound : r.find? name = some number)
    (hsegment : r.get? number = some segment)
    (hmode : segment.mode &&& ownerAccess = ownerAccess) :
    Op.Yields (World.Open r t) (acquire text size .attach permissions)
      (fun m w => m.object = number ∧ w.Open r t) fun _ _ => False := by
  unfold acquire
  refine Op.yields_known_bind (ObjectName.check_of_ofText hname) ?_
  refine Op.yields_bind (Op.yields_lift (open_attach hsize hplain hfound hsegment hmode))
    fun result => ?_
  refine Op.yields_of_fact ?_
  rintro rfl
  exact Op.yields_pure fun _ hw => ⟨rfl, hw⟩

end Segment

namespace Semaphore

variable {value : Nat}

theorem open_make (hvalue : value ≤ maxCount) (hfree : t.find? name = none)
    (hshort : name.bodySize ≤ maxSemaphoreName) :
    Deed.Ensures (World.Open r t) (make name value) fun result w =>
      result = .ok t.next ∧ w.Open r (t.add name ()) := by
  unfold make
  rw [if_neg (by omega)]
  refine Deed.ensures_bind_known open_meetDescriptor ?_
  dsimp only
  rw [if_neg (by omega)]
  rintro w ⟨hw, rfl, rfl⟩
  have hnone : w.semaphores.find? name = none := hfree
  simp only [StateT.run_bind, StateT.run_get, pure_bind, hnone, Option.isSome_none,
    Bool.false_eq_true, if_false]
  refine ⟨congrArg Except.ok (Registry.next_outline _).symm, ⟨hw.able, hw.calm⟩, rfl, ?_⟩
  exact Registry.outline_add ..

theorem open_make_of_long (hvalue : value ≤ maxCount) (hlong : maxSemaphoreName < name.bodySize) :
    Deed.Ensures (World.Open r t) (make name value) fun result w =>
      result = .error (.system .nameTooLong) ∧ w.Open r t := by
  unfold make
  rw [if_neg (by omega)]
  refine Deed.ensures_bind_known open_meetDescriptor ?_
  dsimp only
  rw [if_pos hlong]
  exact Deed.ensures_pure fun _ hw => ⟨rfl, hw⟩

theorem open_locate {number : Nat} (hfound : t.find? name = some number)
    (hshort : name.bodySize ≤ maxSemaphoreName) :
    Deed.Ensures (World.Open r t) (locate name) fun result w =>
      result = .ok number ∧ w.Open r t := by
  unfold locate
  refine Deed.ensures_bind_known open_meetDescriptor ?_
  dsimp only
  rw [if_neg (by omega)]
  refine Deed.ensures_get_bind fun v hv => ?_
  have hnumber : v.semaphores.find? name = some number := by
    rw [← hfound, ← hv.semaphores]
    rfl
  rw [hnumber]
  exact Deed.ensures_pure fun _ hw => ⟨rfl, hw⟩

theorem open_create {force : Bool} (hname : ObjectName.ofText text = .ok name)
    (hvalue : value ≤ maxCount) (hfree : t.find? name = none)
    (hshort : name.bodySize ≤ maxSemaphoreName) :
    Op.Yields (World.Open r t) (create text value force)
      (fun s w => s.object = t.next ∧ w.Open r (t.add name ())) fun _ _ => False := by
  have hmake := @open_make r t name value hvalue hfree hshort
  have hreclaim : Deed.Ensures (World.Open r t) (reclaim text name value) fun result w =>
      result = .ok t.next ∧ w.Open r (t.add name ()) :=
    Deed.ensures_bind_known hmake (Deed.ensures_pure fun _ hw => ⟨rfl, hw⟩)
  unfold create
  refine Op.yields_known_bind (ObjectName.check_of_ofText hname) ?_
  cases force
  case' false => refine Op.yields_bind (Op.yields_lift hmake) fun result => ?_
  case' true => refine Op.yields_bind (Op.yields_lift hreclaim) fun result => ?_
  all_goals
    refine Op.yields_of_fact ?_
    rintro rfl
    exact Op.yields_pure fun _ hw => ⟨rfl, hw⟩

theorem open_create_of_long (hname : ObjectName.ofText text = .ok name) (hvalue : value ≤ maxCount)
    (hlong : maxSemaphoreName < name.bodySize) :
    Op.Yields (World.Open r t) (create text value false) (fun _ _ => False)
      fun e _ => e = .invalidArgument (.rejected text (.system .nameTooLong)) := by
  unfold create
  refine Op.yields_known_bind (ObjectName.check_of_ofText hname) ?_
  refine Op.yields_bind (Op.yields_lift (open_make_of_long hvalue hlong)) fun result => ?_
  refine Op.yields_of_fact ?_
  rintro rfl
  exact Op.yields_throw fun _ _ => rfl

theorem create_of_long {w : World} (hw : w.Unhindered) (hname : ObjectName.ofText text = .ok name)
    (hvalue : value ≤ maxCount) (hlong : maxSemaphoreName < name.bodySize) :
    ((create text value false).run.run w).1 =
      .error (.invalidArgument (.rejected text (.system .nameTooLong))) := by
  obtain ⟨e, after, hfails, rfl⟩ :=
    (open_create_of_long hname hvalue hlong).exists_error hw.isOpen
  rw [hfails]

theorem open_openExisting {number : Nat} (hname : ObjectName.ofText text = .ok name)
    (hfound : t.find? name = some number) (hshort : name.bodySize ≤ maxSemaphoreName) :
    Op.Yields (World.Open r t) (openExisting text)
      (fun s w => s.object = number ∧ w.Open r t) fun _ _ => False := by
  unfold openExisting
  refine Op.yields_known_bind (ObjectName.check_of_ofText hname) ?_
  refine Op.yields_bind (Op.yields_lift (open_locate hfound hshort)) fun result => ?_
  refine Op.yields_of_fact ?_
  rintro rfl
  exact Op.yields_pure fun _ hw => ⟨rfl, hw⟩

end Semaphore

/-! ### Texts that serve -/

namespace ObjectName

/-- The octets behind the slash of a name: those of the text, or of the start that is kept with an
underscore and sixteen digits. -/
theorem bodySize_of_ofText (h : ofText text = .ok name) :
    name.bodySize =
      if textSize (remainder text.toList) ≤ 254 then textSize (remainder text.toList)
      else textSize (fitting headRoom (remainder text.toList)) + 17 := by
  have hslash : '/'.utf8Size = 1 := rfl
  have hunderscore : '_'.utf8Size = 1 := rfl
  have hmax : maxName = 255 := rfl
  rw [bodySize, toList_of_ofText h]
  split
  · next hle =>
    rw [canonical_of_le hle, textSize_cons]
    omega
  · next hlong =>
    rw [canonical, if_neg]
    · rw [textSize_cons, textSize_append, textSize_cons, Fnv.textSize_digits]
      omega
    · rw [textSize_cons]
      omega

end ObjectName

/-- Where nothing hinders the calls and the name is free, the text serves to create a segment of any
size that can be mapped, and to find it again, if its permission bits let its owner in. -/
def Segment.Serves (text : String) : Prop :=
  ∃ name, ObjectName.ofText text = .ok name ∧
    ∀ w size permissions, w.Unhindered → name.isDirectory = false →
      w.segments.find? name = none → size ≤ mapLimit →
      ∃ m created, (acquire text size .create permissions).run.run w = (.ok m, created) ∧
        ∀ sought, sought ≤ size → permissions &&& ownerAccess = ownerAccess →
          ∃ found after,
            (acquire text sought .attach permissions).run.run created = (.ok found, after) ∧
              found.object = m.object

/-- Where nothing hinders the calls and the name is free, the text serves to create a semaphore with
any count, and to find it again. -/
def Semaphore.Serves (text : String) : Prop :=
  ∃ name, ObjectName.ofText text = .ok name ∧
    ∀ w value force, w.Unhindered → w.semaphores.find? name = none → value ≤ maxCount →
      ∃ s created, (create text value force).run.run w = (.ok s, created) ∧
        ∃ found after, (openExisting text).run.run created = (.ok found, after) ∧
          found.object = s.object

theorem Segment.serves_of_ofText (hname : ObjectName.ofText text = .ok name) :
    Segment.Serves text := by
  refine ⟨name, hname, fun w size permissions hw hplain hfree hsize => ?_⟩
  obtain ⟨m, created, hcreated, hobject, hopen⟩ :=
    (open_acquire_create hname hsize hplain hfree).exists_answer hw.isOpen
  refine ⟨m, created, hcreated, fun sought hsought hmode => ?_⟩
  have hblank := land_ownerAccess_blank size permissions hmode
  obtain ⟨found, after, hfound, hsame, -⟩ := (open_acquire_attach hname hsought hplain
    (Registry.find?_add_self ..) (Registry.get?_add_next ..) hblank).exists_answer hopen
  exact ⟨found, after, hfound, hsame.trans hobject.symm⟩

theorem Semaphore.serves_iff (hname : ObjectName.ofText text = .ok name) :
    Semaphore.Serves text ↔ name.bodySize ≤ maxSemaphoreName := by
  constructor
  · rintro ⟨other, hother, hserves⟩
    refine Nat.not_lt.mp fun hlong => ?_
    have hempty : World.Unhindered {} := ⟨rfl, nofun⟩
    obtain ⟨s, created, hcreated, -⟩ := hserves {} 0 false hempty rfl (Nat.zero_le _)
    have hfails := create_of_long hempty hname (Nat.zero_le _) hlong
    rw [hcreated] at hfails
    cases hfails
  · intro hshort
    refine ⟨name, hname, fun w value force hw hfree hvalue => ?_⟩
    obtain ⟨s, created, hcreated, hobject, hopen⟩ :=
      (open_create hname hvalue hfree hshort).exists_answer hw.isOpen
    obtain ⟨found, after, hopened, hsame, -⟩ :=
      (open_openExisting hname (Registry.find?_add_self ..) hshort).exists_answer hopen
    exact ⟨s, created, hcreated, found, after, hopened, hsame.trans hobject.symm⟩

/-- A text that gives a name serves for segments. For semaphores it serves if and only if no more
than 251 octets are behind the slash, of the text or, if it is cut, of what is kept and the hash. -/
theorem serves_both_iff_short (text : String) :
    let body := ObjectName.remainder text.toList
    (Segment.Serves text ↔ ObjectName.Nameable body) ∧
      (Semaphore.Serves text ↔ ObjectName.Nameable body ∧
        (textSize body ≤ 251 ∨
          254 < textSize body ∧ textSize (fitting ObjectName.headRoom body) ≤ 234)) := by
  intro body
  have hnameable {P : ObjectName → Prop}
      (h : ∃ name, ObjectName.ofText text = .ok name ∧ P name) : ObjectName.Nameable body := by
    obtain ⟨name, hname, -⟩ := h
    exact ObjectName.exists_ofText_iff.mp ⟨name, hname⟩
  have hshort {name : ObjectName} (hname : ObjectName.ofText text = .ok name) :
      name.bodySize ≤ maxSemaphoreName ↔ textSize body ≤ 251 ∨
        254 < textSize body ∧ textSize (fitting ObjectName.headRoom body) ≤ 234 := by
    have hlimit : maxSemaphoreName = 251 := rfl
    have hsize : name.bodySize = if textSize body ≤ 254 then textSize body
        else textSize (fitting ObjectName.headRoom body) + 17 := ObjectName.bodySize_of_ofText hname
    split at hsize <;> omega
  refine ⟨⟨hnameable, fun h => ?_⟩, fun h => ⟨hnameable h, ?_⟩, fun h => ?_⟩
  · obtain ⟨name, hname⟩ := ObjectName.exists_ofText_iff.mpr h
    exact Segment.serves_of_ofText hname
  · obtain ⟨name, hname⟩ := ObjectName.exists_ofText_iff.mpr (hnameable h)
    exact (hshort hname).mp ((Semaphore.serves_iff hname).mp h)
  · obtain ⟨name, hname⟩ := ObjectName.exists_ofText_iff.mpr h.1
    exact (Semaphore.serves_iff hname).mpr ((hshort hname).mpr h.2)

/-- A text that is kept whole, and leaves no room for the mark of a semaphore. -/
def longWhole : List Char := List.replicate 252 'n'

theorem long_whole_text_serves_for_segments_alone :
    Segment.Serves (String.ofList longWhole) ∧ ¬Semaphore.Serves (String.ofList longWhole) ∧
      ((Semaphore.create (String.ofList longWhole) 1 false).run.run {}).1 =
        .error (.invalidArgument (.rejected (String.ofList longWhole) (.system .nameTooLong))) := by
  have hbody : ObjectName.remainder (String.ofList longWhole).toList = longWhole := by
    have hremainder : ObjectName.remainder longWhole = longWhole := by decide +kernel
    rw [String.toList_ofList, hremainder]
  have hnameable : ObjectName.Nameable longWhole := by decide +kernel
  have hsize : textSize longWhole = 252 := by decide +kernel
  rw [← hbody] at hnameable hsize
  obtain ⟨name, hname⟩ := ObjectName.exists_ofText_iff.mpr hnameable
  have hlong : maxSemaphoreName < name.bodySize := by
    rw [ObjectName.bodySize_of_ofText hname, hsize]
    decide
  have hempty : World.Unhindered {} := ⟨rfl, nofun⟩
  refine ⟨Segment.serves_of_ofText hname, ?_, ?_⟩
  · rw [Semaphore.serves_iff hname]
    exact Nat.not_le.mpr hlong
  · exact Semaphore.create_of_long hempty hname (by decide) hlong

end RtuStation
