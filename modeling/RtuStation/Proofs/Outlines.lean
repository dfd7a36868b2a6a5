import RtuStation.Guard
import RtuStation.Proofs.Creation

/-!
# Tables of names apart

The names of segments and those of semaphores are two tables, and a call changes at most one of
them. Calls on segments leave the names of semaphores alone, calls on semaphores leave the names of
segments alone, and opening leaves both. What a semaphore that is created adds to its table is told
as it is for segments.
-/

namespace RtuStation

/-! ### Names alone -/

namespace Registry

variable {α : Type} {old r : Registry α} {tried : List String}

/-- The names of a table without its objects. -/
def outline (r : Registry α) : Registry Unit where
  names := r.names
  objects := r.objects.map fun _ => ()
  known := fun entry h => by
    rw [Array.size_map]
    exact r.known entry h

@[simp] theorem next_outline (r : Registry α) : r.outline.next = r.next := Array.size_map ..

theorem outline_modify (r : Registry α) (n : Nat) (f : α → α) :
    (r.modify n f).outline = r.outline := by
  have hobjects : (r.objects.modify n f).map (fun _ => ()) = r.objects.map fun _ => () := by
    apply Array.ext_getElem?
    intro m
    rw [Array.getElem?_map, Array.getElem?_modify, Array.getElem?_map]
    split
    · rw [Option.map_map]
    · rfl
  simp only [outline, modify, hobjects]

theorem Gained.outline {made : List (ObjectName × Nat)} (h : old.Gained tried made r) :
    old.outline.Gained tried made r.outline where
  next := by
    rw [next_outline, next_outline]
    exact h.next
  others := h.others
  bound := h.bound
  fresh := fun entry hentry => by
    rw [next_outline]
    exact h.fresh entry hentry
  found := h.found
  distinct := h.distinct

theorem outline_add (r : Registry α) (name : ObjectName) (x : α) :
    (r.add name x).outline = r.outline.add name () := by
  simp only [outline, add, next, Array.map_push, Array.size_map]

def removeAll (r : Registry α) (names : List ObjectName) : Registry α := names.foldl remove r

theorem find?_removeAll (r : Registry α) (names : List ObjectName) (name : ObjectName) :
    (r.removeAll names).find? name = if name ∈ names then none else r.find? name := by
  induction names generalizing r with
  | nil => simp [removeAll]
  | cons first names ih =>
    show ((r.remove first).removeAll names).find? name = _
    rw [ih, find?_remove]
    by_cases hfirst : name = first <;> by_cases hlater : name ∈ names <;> simp [hfirst, hlater]

theorem get?_removeAll (r : Registry α) (names : List ObjectName) (n : Nat) :
    (r.removeAll names).get? n = r.get? n := by
  induction names generalizing r with
  | nil => rfl
  | cons first names ih => exact ih (r.remove first)

theorem outline_removeAll (r : Registry α) (names : List ObjectName) :
    (r.removeAll names).outline = r.outline.removeAll names := by
  induction names generalizing r with
  | nil => rfl
  | cons first names ih => exact ih (r.remove first)

@[simp] theorem next_removeAll (r : Registry α) (names : List ObjectName) :
    (r.removeAll names).next = r.next := by
  induction names generalizing r with
  | nil => rfl
  | cons first names ih => exact ih (r.remove first)

end Registry

namespace World

def table (w : World) : ObjectKind → Registry Unit
  | .segment => w.segments.outline
  | .semaphore => w.semaphores.outline

theorem table_pass (w : World) (happening : Happening) (later : List Happening)
    (kind : ObjectKind) : (w.pass happening later).table kind = w.table kind := by
  cases kind with
  | segment => rfl
  | semaphore =>
    show (w.semaphores.bring? happening.brings).outline = w.semaphores.outline
    cases happening.brings with
    | none => rfl
    | some brought => exact w.semaphores.outline_modify ..

end World

variable {I : Registry Unit → Prop} {kind : ObjectKind}

theorem table_report (notice : Notice) :
    Deed.Keeps (fun w => I (w.table kind)) (report notice) := by
  cases kind <;> exact fun _ hw => hw

theorem table_meet : Deed.Keeps (fun w => I (w.table kind)) meet := by
  intro w hw
  rw [meet_run]
  cases w.agenda with
  | nil => exact hw
  | cons happening later =>
    show I ((w.pass happening later).table kind)
    rw [World.table_pass]
    exact hw

theorem table_meetDescriptor : Deed.Keeps (fun w => I (w.table kind)) meetDescriptor :=
  Deed.keeps_meetDescriptor table_meet

/-! ### Segments and semaphores apart -/

/-- What is asserted of a world, and kept while segments are made and removed, by force or not. -/
structure World.Steady (J : World → Prop) : Prop where
  meets : Deed.Keeps J meet
  notices : ∀ w notices, J w → J { w with notices }
  adds : ∀ w name mode, J w → J { w with segments := w.segments.add name { mode := mode } }
  removes : ∀ w name, J w → J { w with segments := w.segments.remove name }
  modifies : ∀ w number f, (∀ s : Segment, s.memory.Sound → (f s).memory.Sound) →
    J w → J { w with segments := w.segments.modify number f }

theorem steady_table : World.Steady fun w => I (w.table .semaphore) :=
  ⟨table_meet, fun _ _ hw => hw, fun _ _ _ hw => hw, fun _ _ hw => hw, fun _ _ _ _ hw => hw⟩

namespace Segment

variable {J : World → Prop} {name : ObjectName} {size permissions : Nat} {text : String}

theorem steady_report (h : World.Steady J) (notice : Notice) : Deed.Keeps J (report notice) :=
  fun w hw => h.notices w _ hw

theorem steady_unlink (h : World.Steady J) : Deed.Keeps J (unlink name) := by
  intro w hw
  unfold unlink
  simp only [StateT.run_bind, StateT.run_get, pure_bind]
  cases w.segments.find? name with
  | none => exact hw
  | some _ => exact h.removes w name hw

theorem steady_prepare (h : World.Steady J) {number : Nat} :
    Deed.Keeps J (prepare number size permissions) := by
  have hmode : Deed.Keeps J (modify fun w => { w with
      segments := w.segments.modify number fun s => { s with mode := permissions &&& modeBits } }) :=
    fun w hw => h.modifies w number _ (fun _ hs => hs) hw
  have hsize : Deed.Keeps J (modify fun w => { w with
      segments := w.segments.modify number fun s =>
        { s with memory := .zeros size, mode := sizedMode s.mode } }) :=
    fun w hw => h.modifies w number _ (fun _ _ => Memory.sound_zeros size) hw
  exact keeps_prepare h.meets hmode hsize

theorem steady_create (h : World.Steady J) : Deed.Keeps J (create name size permissions) := by
  unfold create
  refine Deed.keeps_bind (Deed.keeps_meetDescriptor h.meets) fun fault => ?_
  cases fault with
  | some e => exact Deed.keeps_pure
  | none =>
    refine Deed.keeps_bind Deed.keeps_get fun v => ?_
    split
    · exact Deed.keeps_pure
    have hbind : Deed.Keeps J (bind name permissions) := fun w hw => h.adds w name permissions hw
    refine Deed.keeps_bind hbind fun number => Deed.keeps_bind (steady_prepare h) fun fault => ?_
    cases fault with
    | none => exact Deed.keeps_pure
    | some e => exact Deed.keeps_bind (steady_unlink h) fun _ => Deed.keeps_pure

theorem steady_reclaim (h : World.Steady J) :
    Deed.Keeps J (reclaim text name size permissions) := by
  unfold reclaim
  refine Deed.keeps_bind (steady_create h) fun result => ?_
  cases result with
  | ok number => exact Deed.keeps_pure
  | error fault =>
    dsimp only
    split
    · exact Deed.keeps_bind (steady_report h _) fun _ => Deed.keeps_bind (steady_unlink h) fun _ =>
        steady_create h
    · exact Deed.keeps_pure

/-! ### Attaching -/

/-- A mapping was had by attaching: its name refers to a segment that has the octets asked for. -/
structure Attached (r : Registry Segment) (text : String) (size : Nat) (m : Mapping) : Prop where
  mapped : m.size = size
  named : ObjectName.ofText text = .ok m.objectName
  found : r.find? m.objectName = some m.object
  room : size ≤ ((r.get? m.object).getD { mode := 0 }).memory.size

/-- Attaching does nothing but meet what is on the agenda. -/
theorem ensures_attach (h : Deed.Keeps J meet) :
    Deed.Ensures J (attach name size) fun result w => J w ∧
      ∀ number, result = .ok number → ∃ v, J v ∧ v.segments.find? name = some number ∧
        size ≤ ((v.segments.get? number).getD { mode := 0 }).memory.size := by
  unfold attach
  refine Deed.ensures_bind (Deed.keeps_meetDescriptor h) fun fault => ?_
  cases fault with
  | some e => exact Deed.ensures_pure fun _ hw => ⟨hw, nofun⟩
  | none =>
    dsimp only
    split
    · exact Deed.ensures_pure fun _ hw => ⟨hw, nofun⟩
    refine Deed.ensures_get_bind fun v hv => ?_
    cases hfound : v.segments.find? name with
    | none => exact Deed.ensures_pure fun _ hw => ⟨hw, nofun⟩
    | some number =>
      dsimp only
      split
      · exact Deed.ensures_pure fun _ hw => ⟨hw, nofun⟩
      refine Deed.ensures_bind h fun fault => ?_
      cases fault with
      | some e => exact Deed.ensures_pure fun _ hw => ⟨hw, nofun⟩
      | none =>
        dsimp only
        split
        · exact Deed.ensures_pure fun _ hw => ⟨hw, nofun⟩
        next hroom =>
        -- the segment was looked up and measured in a world that is gone by the time it is mapped
        have hdone : ∀ w, J w → J w ∧ ∀ n, (.ok number : Except Fault Nat) = .ok n → ∃ v, J v ∧
            v.segments.find? name = some n ∧
              size ≤ ((v.segments.get? n).getD { mode := 0 }).memory.size := by
          intro w hw
          refine ⟨hw, fun n hn => ?_⟩
          cases hn
          exact ⟨v, hv, hfound, Nat.not_lt.mp hroom⟩
        split
        · exact Deed.ensures_pure hdone
        refine Deed.ensures_bind h fun fault => ?_
        cases fault with
        | some e => exact Deed.ensures_pure fun _ hw => ⟨hw, nofun⟩
        | none => exact Deed.ensures_pure hdone

theorem yields_acquire_attach (h : Deed.Keeps J meet) :
    Op.Yields J (acquire text size .attach permissions)
      (fun m w => (∃ v, J v ∧ Attached v.segments text size m) ∧ J w) fun _ => J := by
  unfold acquire
  refine Op.yields_bind (R := fun name w => ObjectName.ofText text = .ok name ∧ J w)
    (Op.yields_ofExcept (fun name hcheck w hw => ?_) fun _ _ _ hw => hw) fun name =>
      Op.yields_of_fact fun hname => ?_
  · exact ⟨ObjectName.ofText_of_check hcheck, hw⟩
  refine Op.yields_bind (Op.yields_lift (ensures_attach h)) fun result => ?_
  cases result with
  | error fault => exact Op.yields_throw fun _ hw => hw.1
  | ok number =>
    refine Op.yields_pure fun w hw => ⟨?_, hw.1⟩
    obtain ⟨v, hv, hfound, hroom⟩ := hw.2 number rfl
    exact ⟨v, hv, rfl, hname, hfound, hroom⟩

/-! ### Acquiring and removing -/

theorem steady_acquire (h : World.Steady J) (force : Bool) :
    Op.Keeps J (acquire text size (if force then .force else .create) permissions) := by
  unfold acquire
  refine Op.keeps_bind (Op.keeps_ofExcept _) fun name => ?_
  cases force
  case' false => refine Op.keeps_bind (Op.keeps_lift (steady_create h)) fun result => ?_
  case' true => refine Op.keeps_bind (Op.keeps_lift (steady_reclaim h)) fun result => ?_
  all_goals
    cases result with
    | error fault => exact Op.keeps_throw
    | ok number => exact Op.keeps_pure

theorem steady_unlinkText (h : World.Steady J) : Deed.Keeps J (unlinkText text) := by
  unfold unlinkText
  cases ObjectName.ofText text with
  | error refusal => exact Deed.keeps_pure
  | ok name => exact Deed.keeps_bind (steady_unlink h) fun _ => Deed.keeps_pure

end Segment

namespace Store

variable {J : World → Prop} {sizes : Sizes} {stem : String} {force : Bool} {permissions : Nat}

theorem steady_orUnlink {α : Type} (h : World.Steady J) {m : Mapping} {following : Op α}
    (hfollowing : Op.Keeps J following) : Op.Keeps J (orUnlink m following) :=
  Op.ensures_undoing hfollowing (Segment.steady_unlinkText h)

theorem steady_acquireAll (h : World.Steady J) {acquire : BankKind → Op Mapping}
    (hacquire : ∀ k, Op.Keeps J (acquire k)) : Op.Keeps J (acquireAll acquire) := by
  unfold acquireAll
  refine Op.keeps_bind (hacquire _) fun _ => steady_orUnlink h ?_
  refine Op.keeps_bind (hacquire _) fun _ => steady_orUnlink h ?_
  refine Op.keeps_bind (hacquire _) fun _ => steady_orUnlink h ?_
  exact Op.keeps_bind (hacquire _) fun _ => Op.keeps_pure

theorem steady_create (h : World.Steady J) :
    Op.Keeps J (create sizes stem force permissions) := by
  unfold create
  refine Op.keeps_bind (Op.keeps_ofExcept _) fun _ => ?_
  refine Op.keeps_bind (steady_acquireAll h fun _ => Segment.steady_acquire h force) fun _ => ?_
  exact Op.keeps_bind (Op.keeps_lift (Segment.steady_report h _)) fun _ => Op.keeps_pure

theorem yields_openExisting (sizes : Sizes) (stem : String) (h : Deed.Keeps J meet) :
    Op.Yields J (openExisting sizes stem)
      (fun s w => s.ownership = .attached ∧ (∀ k, sizes.get k ≤ maxBankSize) ∧
        (∀ k, ∃ v, J v ∧ Segment.Attached v.segments (bankName stem k.suffix)
          (sizes.get k * k.elementSize) (s.mappings.get k)) ∧ J w) fun _ => J := by
  unfold openExisting
  refine Op.yields_bind (R := fun _ w => (∀ k, sizes.get k ≤ maxBankSize) ∧ J w)
    (Op.yields_ofExcept (fun _ hcheck w hw => ?_) fun _ _ _ hw => hw) fun _ =>
      Op.yields_of_fact fun hsizes => ?_
  · exact ⟨Sizes.le_of_check hcheck, hw⟩
  refine Op.yields_bind (Segment.yields_acquire_attach h) fun _ => Op.yields_of_fact fun hcoils => ?_
  refine Op.yields_bind (Segment.yields_acquire_attach h) fun _ =>
    Op.yields_of_fact fun hdiscrete => ?_
  refine Op.yields_bind (Segment.yields_acquire_attach h) fun _ =>
    Op.yields_of_fact fun hholding => ?_
  refine Op.yields_bind (Segment.yields_acquire_attach h) fun _ => Op.yields_of_fact fun hinput => ?_
  refine Op.yields_pure fun w hw => ⟨rfl, hsizes, fun k => ?_, hw⟩
  cases k with
  | coils => exact hcoils
  | discreteInputs => exact hdiscrete
  | holdingRegisters => exact hholding
  | inputRegisters => exact hinput

/-- Opening a store changes no table of names, and gives no right to. -/
theorem table_openExisting :
    Op.Ensures (fun w => I (w.table kind)) (openExisting sizes stem)
      (fun s w => s.ownership = .attached ∧ I (w.table kind)) (fun w => I (w.table kind)) :=
  (yields_openExisting sizes stem table_meet).mono (fun _ hw => hw) (fun _ _ hw => ⟨hw.1, hw.2.2.2⟩)
    fun _ _ hw => hw

end Store

namespace Semaphore

variable {name : ObjectName} {value : Nat} {text : String} {force : Bool}

theorem segments_make : Deed.Keeps (fun w => I (w.table .segment)) (make name value) := by
  unfold make
  split
  · exact Deed.keeps_pure
  refine Deed.keeps_bind table_meetDescriptor fun fault => ?_
  cases fault with
  | some e => exact Deed.keeps_pure
  | none =>
    dsimp only
    split
    · exact Deed.keeps_pure
    intro w hw
    simp only [StateT.run_bind, StateT.run_get, pure_bind]
    split <;> exact hw

theorem segments_reclaim :
    Deed.Keeps (fun w => I (w.table .segment)) (reclaim text name value) := by
  unfold reclaim
  refine Deed.keeps_bind segments_make fun result => ?_
  cases result with
  | ok number => exact Deed.keeps_pure
  | error fault =>
    dsimp only
    split
    · refine Deed.keeps_bind (table_report _) fun _ => Deed.keeps_bind ?_ fun _ => segments_make
      exact Deed.keeps_modify fun _ hw => hw
    · exact Deed.keeps_pure

theorem segments_create : Op.Keeps (fun w => I (w.table .segment)) (create text value force) := by
  unfold create
  refine Op.keeps_bind (Op.keeps_ofExcept _) fun name => ?_
  cases force
  case' false => refine Op.keeps_bind (Op.keeps_lift segments_make) fun result => ?_
  case' true => refine Op.keeps_bind (Op.keeps_lift segments_reclaim) fun result => ?_
  all_goals
    cases result with
    | error fault => exact Op.keeps_throw
    | ok number => exact Op.keeps_pure

/-- Opening a semaphore changes no table of names, and gives no right to. -/
theorem table_openExisting :
    Op.Ensures (fun w => I (w.table kind)) (openExisting text)
      (fun s w => s.creator = false ∧ I (w.table kind)) (fun w => I (w.table kind)) := by
  have hlocate (name : ObjectName) : Deed.Keeps (fun w => I (w.table kind)) (locate name) := by
    unfold locate
    refine Deed.keeps_bind table_meetDescriptor fun fault => ?_
    cases fault with
    | some e => exact Deed.keeps_pure
    | none =>
      dsimp only
      split
      · exact Deed.keeps_pure
      refine Deed.keeps_bind Deed.keeps_get fun v => ?_
      cases v.semaphores.find? name <;> exact Deed.keeps_pure
  unfold openExisting
  refine Op.ensures_bind (Op.keeps_ofExcept _) fun name => ?_
  refine Op.ensures_bind (Op.keeps_lift (hlocate name)) fun result => ?_
  cases result with
  | error fault => exact Op.ensures_throw fun _ hw => hw
  | ok number => exact Op.ensures_pure fun _ hw => ⟨rfl, hw⟩

variable {t : Registry Unit} {tried : List String} {made : List (ObjectName × Nat)}

theorem gained_make (hdenoted : name.DenotedBy tried) :
    Deed.Ensures (fun w => t.Gained tried made (w.table .semaphore)) (make name value)
      fun result w =>
        match result with
        | .ok number => t.Gained tried ((name, number) :: made) (w.table .semaphore)
        | .error _ => t.Gained tried made (w.table .semaphore) := by
  unfold make
  split
  · exact Deed.keeps_pure
  refine Deed.ensures_bind table_meetDescriptor fun fault => ?_
  cases fault with
  | some e => exact Deed.keeps_pure
  | none =>
    dsimp only
    split
    · exact Deed.keeps_pure
    intro w hw
    simp only [StateT.run_bind, StateT.run_get, pure_bind]
    cases hfree : w.semaphores.find? name with
    | some _ => exact hw
    | none =>
      have hadd := hw.add hfree hdenoted ()
      have hnext : (w.table .semaphore).next = w.semaphores.next := Registry.next_outline _
      rw [hnext] at hadd
      show t.Gained tried _ (w.semaphores.add name value).outline
      rw [Registry.outline_add]
      exact hadd

theorem gained_create (text : String) (value : Nat) (force : Bool) :
    Op.Ensures (fun w => t.Gained [] [] (w.table .semaphore)) (create text value force)
      (fun s w => s.creator = true ∧
        t.Gained [text] [(s.objectName, s.object)] (w.table .semaphore))
      (fun w => t.Gained [text] [] (w.table .semaphore)) := by
  have hcheck : Op.Ensures (fun w => t.Gained [] [] (w.table .semaphore))
      (Op.ofExcept (ObjectName.check text))
      (fun name w => name.DenotedBy [text] ∧ t.Gained [text] [] (w.table .semaphore))
      (fun w => t.Gained [text] [] (w.table .semaphore)) :=
    Op.ensures_ofExcept (fun _ hname _ hw =>
      ⟨ObjectName.denotedBy_head (ObjectName.ofText_of_check hname), hw.retry text⟩)
      fun _ hw => hw.retry text
  unfold create
  refine Op.ensures_bind hcheck fun name => Op.ensures_of_fact fun hdenoted => ?_
  -- A name that was taken is removed and made once more, so that it is added once at most.
  have hreclaim : Deed.Ensures (fun w => t.Gained [text] [] (w.table .semaphore))
      (reclaim text name value) fun result w =>
        match result with
        | .ok number => t.Gained [text] [(name, number)] (w.table .semaphore)
        | .error _ => t.Gained [text] [] (w.table .semaphore) := by
    unfold reclaim
    refine Deed.ensures_bind (gained_make hdenoted) fun result => ?_
    cases result with
    | ok number => exact Deed.keeps_pure
    | error fault =>
      dsimp only
      split
      · have hunlink : Deed.Keeps (fun w => t.Gained [text] [] (w.table .semaphore))
            (unlink name) := Deed.keeps_modify fun w hw => hw.remove hdenoted nofun
        exact Deed.ensures_bind (table_report _) fun _ => Deed.ensures_bind hunlink fun _ =>
          gained_make hdenoted
      · exact Deed.keeps_pure
  cases force
  case' false => refine Op.ensures_bind (Op.ensures_lift (gained_make hdenoted)) fun result => ?_
  case' true => refine Op.ensures_bind (Op.ensures_lift hreclaim) fun result => ?_
  all_goals
    cases result with
    | error fault => exact Op.ensures_throw fun _ hw => hw
    | ok number => exact Op.ensures_pure fun _ hw => ⟨rfl, hw⟩

end Semaphore

namespace Guard

variable {text : String} {force : Bool} {policy : GuardPolicy}

theorem segments_create :
    Op.Keeps (fun w => I (w.table .segment)) (create text force policy) := by
  unfold create
  refine Op.keeps_bind (Op.keeps_ofExcept _) fun _ => ?_
  refine Op.keeps_bind Semaphore.segments_create fun _ => ?_
  exact Op.keeps_bind (Op.keeps_lift (table_report _)) fun _ => Op.keeps_pure

theorem gained_create {t : Registry Unit} :
    Op.Ensures (fun w => t.Gained [] [] (w.table .semaphore)) (create text force policy)
      (fun g w => g.semaphore.creator = true ∧
        t.Gained [text] [(g.semaphore.objectName, g.semaphore.object)] (w.table .semaphore))
      (fun w => t.Gained [text] [] (w.table .semaphore)) := by
  unfold create
  refine Op.ensures_bind (Op.ensures_ofExcept (fun _ _ _ hw => hw) fun _ hw => hw.retry text)
    fun _ => ?_
  refine Op.ensures_bind (Semaphore.gained_create text 1 force) fun s => ?_
  refine Op.ensures_of_fact fun hcreator => ?_
  refine Op.ensures_bind (Op.ensures_lift (table_report _)) fun _ => ?_
  exact Op.ensures_pure fun _ hw => ⟨hcreator, hw⟩

theorem table_join :
    Op.Ensures (fun w => I (w.table kind)) (join text policy)
      (fun g w => g.semaphore.creator = false ∧ I (w.table kind)) (fun w => I (w.table kind)) := by
  unfold join
  refine Op.ensures_bind (Op.keeps_ofExcept _) fun _ => ?_
  exact Op.ensures_bind Semaphore.table_openExisting fun _ => Op.ensures_pure fun _ hw => hw

end Guard

end RtuStation
