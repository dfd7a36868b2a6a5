import RtuStation.Proofs.Calls
import RtuStation.Proofs.Triples
import RtuStation.Store

/-!
# Belongings

What a program adds to the named objects of its surroundings: names of its own, and objects under
numbers that were not in use. `World.Since` tells how a world stands that has come from an earlier
one: apart from the names that belong to the program, the tables of names are the earlier ones, and
earlier objects are as they were. Each call that makes an object adds its name to the belongings, each
one that removes a name takes it off, and a call that fails leaves them alone.
-/

namespace RtuStation

/-! ### Registries -/

namespace Registry

variable {α : Type} {kept : Nat → Prop} {own : List ObjectName} {old r : Registry α}
  {name : ObjectName}

/-- A registry has come from an old one: all names but the owned ones are the old ones, and the old
objects to be kept are as they were. -/
structure Grown (kept : Nat → Prop) (own : List ObjectName) (old r : Registry α) : Prop where
  names : r.names.filter (fun entry => entry.1 ∉ own) = old.names
  next : old.next ≤ r.next
  objects : ∀ n < old.next, kept n → r.get? n = old.get? n

theorem Grown.refl (kept : Nat → Prop) (r : Registry α) : Grown kept [] r r :=
  ⟨by simp, Nat.le_refl _, fun _ _ _ => rfl⟩

theorem Grown.reorder {own' : List ObjectName} (h : Grown kept own old r)
    (hsame : ∀ name, name ∈ own' ↔ name ∈ own) : Grown kept own' old r := by
  refine ⟨?_, h.next, h.objects⟩
  rw [← h.names]
  refine List.filter_congr fun entry _ => ?_
  simp only [hsame]

theorem not_mem_of_find? (h : r.find? name = none) : ∀ entry ∈ r.names, entry.1 ≠ name := by
  intro entry hmem heq
  have hnone := List.lookup_eq_none_iff.mp h entry hmem
  simp [heq] at hnone

theorem Grown.add (h : Grown kept own old r) (hfree : r.find? name = none) (x : α) :
    Grown kept (name :: own) old (r.add name x) := by
  refine ⟨?_, ?_, fun n hn hkept => ?_⟩
  · show List.filter _ ((name, r.next) :: r.names) = _
    rw [List.filter_cons_of_neg (by simp), ← h.names]
    refine List.filter_congr fun entry hmem => ?_
    simp [not_mem_of_find? hfree entry hmem]
  · have hsize : (r.add name x).next = r.next + 1 := Array.size_push ..
    rw [hsize]
    exact Nat.le_succ_of_le h.next
  · rw [get?_add_of_ne r name x (Nat.ne_of_lt (Nat.lt_of_lt_of_le hn h.next))]
    exact h.objects n hn hkept

theorem Grown.remove (h : Grown kept (name :: own) old r) : Grown kept own old (r.remove name) := by
  refine ⟨?_, h.next, h.objects⟩
  rw [← h.names]
  refine (List.filter_filter ..).trans (List.filter_congr fun entry _ => ?_)
  simp [Bool.and_comm]

theorem remove_of_find? (h : r.find? name = none) : (r.remove name).names = r.names := by
  refine List.filter_eq_self.mpr fun entry hmem => ?_
  simpa using not_mem_of_find? h entry hmem

theorem Grown.modify (h : Grown kept own old r) {n : Nat} (hn : old.next ≤ n ∨ ¬kept n)
    (f : α → α) : Grown kept own old (r.modify n f) := by
  refine ⟨h.names, ?_, fun m hm hkept => ?_⟩
  · have hsize : (r.modify n f).next = r.next := Array.size_modify ..
    rw [hsize]
    exact h.next
  · have hne : n ≠ m := by
      rintro rfl
      rcases hn with hn | hn
      · omega
      · exact hn hkept
    rw [get?_modify_of_ne r f hne]
    exact h.objects m hm hkept

end Registry

/-! ### Worlds -/

/-- A world has come from `start` with names of segments and semaphores that belong to the program.
Others bring no semaphore that is to be kept to another count. -/
structure World.Since (start : World) (kept : Nat → Prop) (segments semaphores : List ObjectName)
    (w : World) : Prop where
  segments : start.segments.Grown (fun _ => True) segments w.segments
  semaphores : start.semaphores.Grown kept semaphores w.semaphores
  brings : ∀ happening ∈ w.agenda, ∀ n count, happening.brings = some (n, count) → ¬kept n

variable {start : World} {kept : Nat → Prop} {segments semaphores : List ObjectName}

theorem World.Since.congr {w after : World} (h : start.Since kept segments semaphores w)
    (hsegments : after.segments = w.segments) (hsemaphores : after.semaphores = w.semaphores)
    (hagenda : after.agenda = w.agenda) : start.Since kept segments semaphores after := by
  refine ⟨?_, ?_, ?_⟩
  · rw [hsegments]
    exact h.segments
  · rw [hsemaphores]
    exact h.semaphores
  · rw [hagenda]
    exact h.brings

theorem since_modify {f : World → World}
    (h : ∀ w, (f w).segments = w.segments ∧ (f w).semaphores = w.semaphores ∧
      (f w).agenda = w.agenda) :
    Deed.Keeps (start.Since kept segments semaphores) (modify f) :=
  Deed.keeps_modify fun w hw => hw.congr (h w).1 (h w).2.1 (h w).2.2

theorem since_report (notice : Notice) :
    Deed.Keeps (start.Since kept segments semaphores) (report notice) :=
  since_modify fun _ => ⟨rfl, rfl, rfl⟩

theorem since_enter (entry : Entry) :
    Deed.Keeps (start.Since kept segments semaphores) (enter entry) :=
  since_modify fun _ => ⟨rfl, rfl, rfl⟩

theorem since_meet : Deed.Keeps (start.Since kept segments semaphores) meet := by
  intro w hw
  rw [meet_run]
  cases hagenda : w.agenda with
  | nil => exact hw
  | cons happening later =>
    have hbrings := hw.brings
    rw [hagenda] at hbrings
    refine ⟨hw.segments, ?_, fun other hmem => hbrings other (List.mem_cons_of_mem _ hmem)⟩
    show start.semaphores.Grown kept semaphores (w.semaphores.bring? happening.brings)
    cases hbrought : happening.brings with
    | none => exact hw.semaphores
    | some brought =>
      have hother := hbrings happening (List.mem_cons_self ..) brought.1 brought.2 hbrought
      exact hw.semaphores.modify (.inr hother) _

theorem since_meetDescriptor :
    Deed.Keeps (start.Since kept segments semaphores) meetDescriptor :=
  Deed.keeps_meetDescriptor since_meet

/-! ### Segments -/

namespace Segment

variable {name : ObjectName} {size mode : Nat}

theorem since_unlink :
    Deed.Ensures (start.Since kept (name :: segments) semaphores) (unlink name) fun _ =>
      start.Since kept segments semaphores := by
  intro w hw
  have hgone := hw.segments.remove
  unfold unlink
  simp only [StateT.run_bind, StateT.run_get, pure_bind]
  cases hfound : w.segments.find? name with
  | some _ => exact ⟨hgone, hw.semaphores, hw.brings⟩
  | none =>
    -- the name has already gone
    refine ⟨⟨?_, hw.segments.next, hw.segments.objects⟩, hw.semaphores, hw.brings⟩
    rw [← hgone.names, Registry.remove_of_find? hfound]
    rfl

/-- Setting up a segment keeps what meeting the agenda and setting its mode and its size keep. -/
theorem keeps_prepare {J : World → Prop} {number : Nat} (hmeet : Deed.Keeps J meet)
    (hmode : Deed.Keeps J (modify fun w => { w with
      segments := w.segments.modify number fun s => { s with mode := mode &&& modeBits } }))
    (hsize : Deed.Keeps J (modify fun w => { w with
      segments := w.segments.modify number fun s =>
        { s with memory := .zeros size, mode := sizedMode s.mode } })) :
    Deed.Keeps J (prepare number size mode) := by
  unfold prepare
  refine Deed.keeps_bind hmeet fun fault => ?_
  cases fault with
  | some e => exact Deed.keeps_pure
  | none =>
    refine Deed.keeps_bind hmode fun _ => ?_
    split
    · exact Deed.keeps_pure
    refine Deed.keeps_bind hmeet fun fault => ?_
    cases fault with
    | some e => exact Deed.keeps_pure
    | none =>
      refine Deed.keeps_bind hsize fun _ => ?_
      split
      · exact Deed.keeps_pure
      split
      · exact Deed.keeps_pure
      · exact hmeet

theorem since_prepare {number : Nat} (hnew : start.segments.next ≤ number) :
    Deed.Keeps (start.Since kept segments semaphores) (prepare number size mode) := by
  have hmodify (f : Segment → Segment) :
      Deed.Keeps (start.Since kept segments semaphores)
        (modify fun w => { w with segments := w.segments.modify number f }) :=
    Deed.keeps_modify fun w hw => ⟨hw.segments.modify (.inl hnew) f, hw.semaphores, hw.brings⟩
  exact keeps_prepare since_meet (hmodify _) (hmodify _)

theorem since_bind :
    Deed.Ensures (fun w => w.segments.find? name = none ∧ start.Since kept segments semaphores w)
      (bind name mode) fun number w =>
        start.segments.next ≤ number ∧ start.Since kept (name :: segments) semaphores w :=
  fun _ hw => ⟨hw.2.segments.next, hw.2.segments.add hw.1 _, hw.2.semaphores, hw.2.brings⟩

theorem since_create :
    Deed.Ensures (start.Since kept segments semaphores) (create name size mode) fun result w =>
      match result with
      | .ok number =>
        start.segments.next ≤ number ∧ start.Since kept (name :: segments) semaphores w
      | .error _ => start.Since kept segments semaphores w := by
  unfold create
  refine Deed.ensures_bind since_meetDescriptor fun fault => ?_
  cases fault with
  | some e => exact Deed.keeps_pure
  | none =>
    refine Deed.ensures_bind Deed.ensures_get fun v => ?_
    split
    · exact Deed.ensures_pure fun _ hw => hw.2
    · next hfree =>
      have hnone : v.segments.find? name = none := by
        cases hfound : v.segments.find? name with
        | none => rfl
        | some _ => simp [hfound] at hfree
      have hbind : Deed.Ensures (fun w => w = v ∧ start.Since kept segments semaphores w)
          (bind name mode) fun number w =>
            start.segments.next ≤ number ∧ start.Since kept (name :: segments) semaphores w := by
        refine since_bind.mono (fun w hw => ?_) fun _ _ hw => hw
        obtain ⟨rfl, hsince⟩ := hw
        exact ⟨hnone, hsince⟩
      refine Deed.ensures_bind hbind fun number => Deed.ensures_of_fact fun hnew => ?_
      refine Deed.ensures_bind (since_prepare hnew) fun fault => ?_
      cases fault with
      | none => exact Deed.ensures_pure fun _ hw => ⟨hnew, hw⟩
      | some e => exact Deed.ensures_bind since_unlink fun _ => Deed.keeps_pure

end Segment

/-! ### Stores -/

/-- A mapping belongs to the program: it leads to an object that was not there before. -/
structure Mapping.Own (start : World) (m : Mapping) : Prop where
  fresh : start.segments.next ≤ m.object
  named : ObjectName.ofText m.name = .ok m.objectName

theorem ObjectName.ofText_of_check {text : String} {name : ObjectName}
    (h : ObjectName.check text = .ok name) : ObjectName.ofText text = .ok name := by
  unfold ObjectName.check at h
  split at h
  · cases h
  · next hname =>
    cases h
    exact hname

theorem ObjectName.check_of_ofText {text : String} {name : ObjectName}
    (h : ObjectName.ofText text = .ok name) : ObjectName.check text = .ok name := by
  rw [ObjectName.check, h]

theorem Segment.since_acquire (text : String) (size mode : Nat) :
    Op.Ensures (start.Since kept segments semaphores) (acquire text size .create mode)
      (fun m w => m.Own start ∧ start.Since kept (m.objectName :: segments) semaphores w)
      (start.Since kept segments semaphores) := by
  have hcheck : Op.Ensures (start.Since kept segments semaphores)
      (Op.ofExcept (ObjectName.check text))
      (fun name w => ObjectName.ofText text = .ok name ∧ start.Since kept segments semaphores w)
      (start.Since kept segments semaphores) :=
    Op.ensures_ofExcept (fun _ hname _ hw => ⟨ObjectName.ofText_of_check hname, hw⟩) fun _ hw => hw
  unfold acquire
  refine Op.ensures_bind hcheck fun name => Op.ensures_of_fact fun hname => ?_
  refine Op.ensures_bind (Op.ensures_lift since_create) fun result => ?_
  cases result with
  | error fault => exact Op.ensures_throw fun _ hw => hw
  | ok number => exact Op.ensures_pure fun _ hw => ⟨⟨hw.1, hname⟩, hw.2⟩

theorem Segment.since_unlinkText {m : Mapping} (hown : m.Own start) :
    Deed.Ensures (start.Since kept (m.objectName :: segments) semaphores) (unlinkText m.name)
      fun _ => start.Since kept segments semaphores := by
  unfold unlinkText
  rw [hown.named]
  exact Deed.ensures_bind since_unlink fun _ => Deed.keeps_pure

theorem Mapping.ensures_unlink {P Q : World → Prop} {m : Mapping}
    (h : Deed.Ensures P (Segment.unlink m.objectName) fun _ => Q) :
    Deed.Ensures P m.unlink.run fun _ => Q := by
  unfold unlink
  refine Op.Ensures.run (Op.ensures_bind (Op.ensures_lift h) fun result => ?_)
  cases result with
  | error fault => exact Op.keeps_throw
  | ok _ => exact Op.keeps_pure

namespace Store

theorem since_orUnlink {α : Type} {m : Mapping} {following : Op α} {Q : α → World → Prop}
    (hown : m.Own start)
    (h : Op.Ensures (start.Since kept (m.objectName :: segments) semaphores) following Q
      (start.Since kept (m.objectName :: segments) semaphores)) :
    Op.Ensures (start.Since kept (m.objectName :: segments) semaphores) (orUnlink m following) Q
      (start.Since kept segments semaphores) :=
  Op.ensures_undoing h (Segment.since_unlinkText hown)

/-- A store belongs to the program: it was created, and has its names still. -/
structure Own (start : World) (s : Store) : Prop where
  mappings : ∀ k, (s.mappings.get k).Own start
  owned : s.ownership = .owned
  whole : s.destroyed = false

def names (s : Store) : List ObjectName := s.mappings.toList.map (·.objectName)

theorem since_acquireAll {acquire : BankKind → Op Mapping}
    (h : ∀ k segments, Op.Ensures (start.Since kept segments semaphores) (acquire k)
      (fun m w => m.Own start ∧ start.Since kept (m.objectName :: segments) semaphores w)
      (start.Since kept segments semaphores)) :
    Op.Ensures (start.Since kept [] semaphores) (acquireAll acquire)
      (fun mappings w => (∀ k, (mappings.get k).Own start) ∧
        start.Since kept (mappings.toList.map (·.objectName)) semaphores w)
      (start.Since kept [] semaphores) := by
  unfold acquireAll
  refine Op.ensures_bind (h .coils _) fun coils => Op.ensures_of_fact fun hcoils => ?_
  refine since_orUnlink hcoils ?_
  refine Op.ensures_bind (h .discreteInputs _) fun discreteInputs =>
    Op.ensures_of_fact fun hdiscrete => ?_
  refine since_orUnlink hdiscrete ?_
  refine Op.ensures_bind (h .holdingRegisters _) fun holdingRegisters =>
    Op.ensures_of_fact fun hholding => ?_
  refine since_orUnlink hholding ?_
  refine Op.ensures_bind (h .inputRegisters _) fun inputRegisters =>
    Op.ensures_of_fact fun hinput => ?_
  refine Op.ensures_pure fun w hw => ⟨fun k => ?_, ?_⟩
  · cases k with
    | coils => exact hcoils
    | discreteInputs => exact hdiscrete
    | holdingRegisters => exact hholding
    | inputRegisters => exact hinput
  · -- the names were added in the opposite order
    have hreverse : [inputRegisters, holdingRegisters, discreteInputs, coils].map
        (·.objectName) = ([coils, discreteInputs, holdingRegisters, inputRegisters].map
          (·.objectName)).reverse := rfl
    refine ⟨hw.segments.reorder fun name => ?_, hw.semaphores, hw.brings⟩
    show name ∈ [coils, discreteInputs, holdingRegisters, inputRegisters].map (·.objectName) ↔
      name ∈ [inputRegisters, holdingRegisters, discreteInputs, coils].map (·.objectName)
    rw [hreverse, List.mem_reverse]

theorem since_create {sizes : Sizes} {stem : String} {permissions : Nat} :
    Op.Ensures (start.Since kept [] semaphores) (create sizes stem false permissions)
      (fun s w => s.Own start ∧ start.Since kept s.names semaphores w)
      (start.Since kept [] semaphores) := by
  unfold create
  refine Op.ensures_bind (Op.keeps_ofExcept _) fun _ => ?_
  refine Op.ensures_bind (since_acquireAll fun k _ => Segment.since_acquire _ _ _) fun mappings =>
    Op.ensures_of_fact fun hown => ?_
  refine Op.ensures_bind (Op.ensures_lift (since_report _)) fun _ => ?_
  exact Op.ensures_pure fun _ hw => ⟨⟨hown, rfl, rfl⟩, hw⟩

/-- What is asserted of a world, as names are removed one by one, depends on those still to come. -/
theorem ensures_unlinkAll {P : List ObjectName → World → Prop}
    (hunlink : ∀ name later, Deed.Ensures (P (name :: later)) (Segment.unlink name)
      fun _ => P later)
    (hreport : ∀ names notice, Deed.Keeps (P names) (report notice)) (mappings : List Mapping) :
    Deed.Ensures (P (mappings.map (·.objectName))) (unlinkAll mappings) fun _ => P [] := by
  induction mappings with
  | nil => exact Deed.keeps_pure
  | cons m later ih =>
    refine Deed.ensures_bind (Mapping.ensures_unlink (hunlink _ _)) fun outcome => ?_
    cases outcome with
    | ok _ => exact ih
    | error e => exact Deed.ensures_bind (hreport _ _) fun _ => ih

theorem since_unlinkAll (mappings : List Mapping) :
    Deed.Ensures (start.Since kept (mappings.map (·.objectName)) semaphores) (unlinkAll mappings)
      fun _ => start.Since kept [] semaphores :=
  ensures_unlinkAll (P := fun names => start.Since kept names semaphores)
    (fun _ _ => Segment.since_unlink) (fun _ _ => since_report _) mappings

theorem since_drop {s : Store} (howned : s.ownership = .owned) (hwhole : s.destroyed = false) :
    Deed.Ensures (start.Since kept s.names semaphores) s.drop fun _ =>
      start.Since kept [] semaphores := by
  have hdestroy : Deed.Ensures (start.Since kept s.names semaphores) s.destroy fun _ =>
      start.Since kept [] semaphores := by
    unfold destroy
    rw [hwhole, howned]
    exact Deed.ensures_bind (since_unlinkAll _) fun _ => Deed.keeps_pure
  exact Deed.ensures_bind hdestroy fun _ => Deed.keeps_pure

end Store

/-! ### Semaphores and guards -/

namespace Semaphore

variable {name : ObjectName} {value : Nat}

/-- A semaphore belongs to the program: it was created, and was not there before. -/
structure Own (start : World) (s : Semaphore) : Prop where
  fresh : start.semaphores.next ≤ s.object
  created : s.creator = true

theorem since_make :
    Deed.Ensures (start.Since kept segments semaphores) (make name value) fun result w =>
      match result with
      | .ok number =>
        start.semaphores.next ≤ number ∧ start.Since kept segments (name :: semaphores) w
      | .error _ => start.Since kept segments semaphores w := by
  unfold make
  split
  · exact Deed.keeps_pure
  refine Deed.ensures_bind since_meetDescriptor fun fault => ?_
  cases fault with
  | some e => exact Deed.keeps_pure
  | none =>
    dsimp only
    split
    · exact Deed.keeps_pure
    refine Deed.ensures_bind Deed.ensures_get fun v => ?_
    split
    · exact Deed.ensures_pure fun _ hw => hw.2
    · next hfree =>
      have hnone : v.semaphores.find? name = none := by
        cases hfound : v.semaphores.find? name with
        | none => rfl
        | some _ => simp [hfound] at hfree
      rintro w ⟨rfl, hsince⟩
      exact ⟨hsince.semaphores.next, hsince.segments, hsince.semaphores.add hnone value,
        hsince.brings⟩

theorem since_unlink :
    Deed.Ensures (start.Since kept segments (name :: semaphores)) (unlink name) fun _ =>
      start.Since kept segments semaphores :=
  Deed.ensures_modify fun _ hw => ⟨hw.segments, hw.semaphores.remove, hw.brings⟩

theorem since_create (text : String) :
    Op.Ensures (start.Since kept segments semaphores) (create text value false)
      (fun s w => s.Own start ∧ start.Since kept segments (s.objectName :: semaphores) w)
      (start.Since kept segments semaphores) := by
  unfold create
  refine Op.ensures_bind (Op.keeps_ofExcept _) fun name => ?_
  refine Op.ensures_bind (Op.ensures_lift since_make) fun result => ?_
  cases result with
  | error fault => exact Op.ensures_throw fun _ hw => hw
  | ok number => exact Op.ensures_pure fun _ hw => ⟨⟨hw.1, rfl⟩, hw.2⟩

variable {s : Semaphore}

theorem since_count (hown : s.Own start) (f : Nat → Nat) :
    Deed.Keeps (start.Since kept segments semaphores)
      (modify fun w => { w with semaphores := w.semaphores.modify s.object f }) :=
  Deed.keeps_modify fun _ hw => ⟨hw.segments, hw.semaphores.modify (.inl hown.fresh) f, hw.brings⟩

theorem since_take (hown : s.Own start) (call : String) :
    Op.Keeps (start.Since kept segments semaphores) (s.take call) := by
  unfold take
  refine Op.keeps_bind (Op.keeps_lift since_meet) fun fault => ?_
  cases fault with
  | some e =>
    exact Op.keeps_bind (Op.keeps_lift (since_enter _)) fun _ => Op.keeps_throw
  | none =>
    refine Op.keeps_bind (Op.keeps_lift Deed.keeps_get) fun v => ?_
    refine Op.keeps_bind (Op.keeps_lift (since_enter _)) fun _ => ?_
    split
    · exact Op.keeps_pure
    · exact Op.keeps_bind (Op.keeps_lift (since_count hown _)) fun _ =>
        Op.keeps_pure

/-- Posting keeps what noting the call, meeting the agenda and counting keep. -/
theorem keeps_post {J : World → Prop} (henter : ∀ entry, Deed.Keeps J (enter entry))
    (hmeet : Deed.Keeps J meet)
    (hcount : Deed.Keeps J (modify fun w => { w with
      semaphores := w.semaphores.modify s.object fun n => n + 1 })) : Op.Keeps J s.post := by
  unfold post
  refine Op.keeps_bind (Op.keeps_lift (henter _)) fun _ => ?_
  refine Op.keeps_bind (Op.keeps_lift hmeet) fun fault => ?_
  cases fault with
  | some e => exact Op.keeps_throw
  | none =>
    refine Op.keeps_bind (Op.keeps_lift Deed.keeps_get) fun v => ?_
    split
    · exact Op.keeps_throw
    · exact Op.keeps_lift hcount

theorem since_post (hown : s.Own start) :
    Op.Keeps (start.Since kept segments semaphores) s.post :=
  keeps_post since_enter since_meet (since_count hown _)

end Semaphore

namespace Guard

variable {g : Guard}

theorem since_create {name : String} {policy : GuardPolicy} :
    Op.Ensures (start.Since kept segments semaphores) (create name false policy)
      (fun g w => g.semaphore.Own start ∧
        start.Since kept segments (g.semaphore.objectName :: semaphores) w)
      (start.Since kept segments semaphores) := by
  unfold create
  refine Op.ensures_bind (Op.keeps_ofExcept _) fun _ => ?_
  refine Op.ensures_bind (Semaphore.since_create name) fun semaphore =>
    Op.ensures_of_fact fun hown => ?_
  refine Op.ensures_bind (Op.ensures_lift (since_report _)) fun _ => ?_
  exact Op.ensures_pure fun _ hw => ⟨hown, hw⟩

theorem since_tryAcquire (hown : g.semaphore.Own start) :
    Deed.Ensures (start.Since kept segments semaphores) g.tryAcquire fun result w =>
      result.2.semaphore = g.semaphore ∧ start.Since kept segments semaphores w := by
  have hkept {result : Except Error Acquisition × Guard} (h : result.2.semaphore = g.semaphore) :
      Deed.Ensures (start.Since kept segments semaphores) (pure result) fun result w =>
        result.2.semaphore = g.semaphore ∧ start.Since kept segments semaphores w :=
    Deed.ensures_pure fun _ hw => ⟨h, hw⟩
  unfold tryAcquire
  split
  · exact hkept rfl
  split
  · exact hkept rfl
  refine Deed.ensures_bind (Semaphore.since_take hown "sem_timedwait").run fun taken => ?_
  rcases taken with e | _ | _
  · exact hkept rfl
  · refine Deed.ensures_bind (since_report _) fun _ => ?_
    dsimp only
    split
    · exact hkept rfl
    · exact hkept rfl
  · exact hkept rfl

theorem since_release (hown : g.semaphore.Own start) :
    Deed.Ensures (start.Since kept segments semaphores) g.release fun result w =>
      result.2.semaphore = g.semaphore ∧ start.Since kept segments semaphores w := by
  unfold release
  split
  · exact Deed.ensures_pure fun _ hw => ⟨rfl, hw⟩
  refine Deed.ensures_bind (Semaphore.since_post hown).run fun outcome => ?_
  cases outcome <;> exact Deed.ensures_pure fun _ hw => ⟨rfl, hw⟩

theorem since_drop (hown : g.semaphore.Own start) :
    Deed.Ensures (start.Since kept segments (g.semaphore.objectName :: semaphores)) g.drop fun _ =>
      start.Since kept segments semaphores := by
  have hdrop : Deed.Ensures (start.Since kept segments (g.semaphore.objectName :: semaphores))
      g.semaphore.drop fun _ => start.Since kept segments semaphores := by
    unfold Semaphore.drop
    rw [hown.created]
    exact Semaphore.since_unlink
  unfold drop
  refine Deed.ensures_bind (since_release hown) fun result => Deed.ensures_of_fact fun _ => ?_
  obtain ⟨_ | _, _⟩ := result
  · exact Deed.ensures_bind (since_report _) fun _ => hdrop
  · exact hdrop

end Guard

end RtuStation
