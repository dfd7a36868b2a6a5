import RtuStation.Proofs.Outlines

/-!
# Handles

Stores, semaphores and guards are handles to named objects. `Handle.entries` are the objects that a
handle has created and not removed yet, with their names. Making a handle adds its entries to the
table of names and takes names from others by force alone; dropping it removes the names of its
entries, and no others, whatever they refer to by then.
-/

namespace RtuStation

variable {I : Registry Unit → Prop} {kind : ObjectKind}

/-! ### Handles and how they are made -/

inductive Handle where
  | store (s : Store)
  | semaphore (s : Semaphore)
  | guard (g : Guard)

namespace Handle

/-- The names that a handle has given to objects that it created, with these objects. -/
def entries : Handle → ObjectKind → List (ObjectName × Nat)
  | store s, .segment =>
    if s.ownership = .owned ∧ s.destroyed = false then s.mappings.toList.map Mapping.entry else []
  | semaphore s, .semaphore | guard { semaphore := s, .. }, .semaphore =>
    if s.creator then [(s.objectName, s.object)] else []
  | _, _ => []

theorem entries_of_attached {s : Store} (h : s.ownership = .attached) (kind : ObjectKind) :
    (store s).entries kind = [] := by
  cases kind with
  | segment =>
    refine if_neg fun hown => ?_
    rw [h] at hown
    cases hown.1
  | semaphore => rfl

theorem entries_of_destroyed {s : Store} (h : s.destroyed = true) (kind : ObjectKind) :
    (store s).entries kind = [] := by
  cases kind with
  | segment =>
    refine if_neg fun hown => ?_
    rw [h] at hown
    cases hown.2
  | semaphore => rfl

theorem entries_of_opened {s : Semaphore} (h : s.creator = false) (kind : ObjectKind) :
    (semaphore s).entries kind = [] := by
  cases kind with
  | segment => rfl
  | semaphore => exact if_neg (Bool.not_eq_true _ ▸ h)

theorem entries_guard (g : Guard) (kind : ObjectKind) :
    (guard g).entries kind = (semaphore g.semaphore).entries kind := by
  cases kind <;> rfl

def drop : Handle → Deed Unit
  | store s => s.drop
  | semaphore s => s.drop
  | guard g => g.drop

end Handle

/-- A call that makes a handle. -/
inductive Making where
  | store (sizes : Sizes) (stem : String) (force : Bool) (permissions : Nat)
  | openStore (sizes : Sizes) (stem : String)
  | attachStore (mappings : PerBank Mapping)
  | semaphore (text : String) (value : Nat) (force : Bool)
  | openSemaphore (text : String)
  | guard (text : String) (force : Bool) (policy : GuardPolicy)
  | joinGuard (text : String) (policy : GuardPolicy)

namespace Making

def perform : Making → Op Handle
  | store sizes stem force permissions =>
    return .store (← Store.create sizes stem force permissions)
  | openStore sizes stem => return .store (← Store.openExisting sizes stem)
  | attachStore mappings => return .store (.attach mappings)
  | semaphore text value force => return .semaphore (← Semaphore.create text value force)
  | openSemaphore text => return .semaphore (← Semaphore.openExisting text)
  | guard text force policy => return .guard (← Guard.create text force policy)
  | joinGuard text policy => return .guard (← Guard.join text policy)

/-- The texts whose names the call may give to objects that it creates. -/
def texts : Making → ObjectKind → List String
  | store _ stem _ _, .segment => Store.bankNames stem BankKind.inputRegisters.upTo
  | semaphore text _ _, .semaphore | guard text _ _, .semaphore => [text]
  | _, _ => []

/-- Whether the call takes names from others. -/
def force : Making → Bool
  | store _ _ force _ | semaphore _ _ force | guard _ force _ => force
  | _ => false

/-- The new handle has what was gained, or nothing was. -/
def Gains (m : Making) (kind : ObjectKind) (before : World) : Prop :=
  Op.Ensures (fun w => w = before) m.perform
    (fun h w => (before.table kind).Gained (m.texts kind) (h.entries kind) (w.table kind))
    (fun w => (before.table kind).Gained (m.texts kind) [] (w.table kind))

variable {before : World}

theorem gains_store (sizes : Sizes) (stem : String) (force : Bool) (permissions : Nat) :
    (store sizes stem force permissions).Gains .segment before := by
  refine Op.ensures_bind ?_ fun s => Op.ensures_pure fun w hw => hw
  refine Op.Yields.mono (Store.yields_create sizes stem force permissions before)
    (fun _ hw => hw) (fun s w hw => ?_) fun e w hw => ?_
  · have hgained := hw.building.toGained.reverse.outline
    rw [← List.map_reverse, List.reverse_reverse] at hgained
    rw [Handle.entries, if_pos hw.whole]
    exact hgained
  · rcases hw with ⟨-, rfl⟩ | ⟨-, k, -, hbuilding⟩
    · exact (Registry.Gained.refl _).mono (List.nil_subset _)
    · refine hbuilding.toGained.outline.mono (List.map_subset _ ?_)
      cases k <;> decide

theorem gains_of_gained {α : Type} {op : Op α} {f : α → Handle} {m : Making} {kind : ObjectKind}
    (hop : Op.Ensures (fun w => (before.table kind).Gained [] [] (w.table kind)) op
      (fun a w => (before.table kind).Gained (m.texts kind) ((f a).entries kind) (w.table kind))
      (fun w => (before.table kind).Gained (m.texts kind) [] (w.table kind)))
    (hperform : m.perform = op >>= fun a => pure (f a)) : m.Gains kind before := by
  unfold Gains
  rw [hperform]
  refine Op.ensures_bind (hop.mono ?_ (fun _ _ hw => hw) fun _ hw => hw) fun a =>
    Op.ensures_pure fun _ hw => hw
  rintro w rfl
  exact .refl _

/-- A call that keeps a table of names, and whose handle has no names in it. -/
theorem gains_of_kept {α : Type} {op : Op α} {f : α → Handle} {m : Making} {kind : ObjectKind}
    (hop : Op.Ensures (fun w => (before.table kind).Gained [] [] (w.table kind)) op
      (fun a w => (f a).entries kind = [] ∧ (before.table kind).Gained [] [] (w.table kind))
      (fun w => (before.table kind).Gained [] [] (w.table kind)))
    (hperform : m.perform = op >>= fun a => pure (f a)) : m.Gains kind before := by
  refine gains_of_gained (hop.mono (fun _ hw => hw) ?_ ?_) hperform
  · intro a w hw
    rw [hw.1]
    exact hw.2.mono (List.nil_subset _)
  · intro w hw
    exact hw.mono (List.nil_subset _)

/-- What a call adds to the table of names. -/
theorem gains (m : Making) (kind : ObjectKind) (before : World) : m.Gains kind before := by
  cases m with
  | store sizes stem force permissions =>
    cases kind with
    | segment => exact gains_store sizes stem force permissions
    | semaphore =>
      exact gains_of_kept ((Store.steady_create steady_table).mono (fun _ hw => hw)
        (fun _ _ hw => ⟨rfl, hw⟩) fun _ hw => hw) rfl
  | openStore sizes stem =>
    refine gains_of_kept (Store.table_openExisting.mono (fun _ hw => hw)
      (fun s _ hw => ⟨Handle.entries_of_attached hw.1 kind, hw.2⟩) fun _ hw => hw) rfl
  | attachStore mappings =>
    have hop : Op.Ensures (fun w => (before.table kind).Gained [] [] (w.table kind))
        (pure mappings) (fun mappings w => (Handle.store (.attach mappings)).entries kind = [] ∧
          (before.table kind).Gained [] [] (w.table kind))
        (fun w => (before.table kind).Gained [] [] (w.table kind)) :=
      Op.ensures_pure fun _ hw => ⟨Handle.entries_of_attached rfl kind, hw⟩
    exact gains_of_kept hop rfl
  | semaphore text value force =>
    cases kind with
    | segment =>
      exact gains_of_kept (Semaphore.segments_create.mono (fun _ hw => hw)
        (fun _ _ hw => ⟨rfl, hw⟩) fun _ hw => hw) rfl
    | semaphore =>
      refine gains_of_gained ((Semaphore.gained_create text value force).mono (fun _ hw => hw)
        ?_ fun _ hw => hw) rfl
      intro s w hw
      rw [Handle.entries, if_pos hw.1]
      exact hw.2
  | openSemaphore text =>
    exact gains_of_kept (Semaphore.table_openExisting.mono (fun _ hw => hw)
      (fun s _ hw => ⟨Handle.entries_of_opened hw.1 kind, hw.2⟩) fun _ hw => hw) rfl
  | guard text force policy =>
    cases kind with
    | segment =>
      exact gains_of_kept (Guard.segments_create.mono (fun _ hw => hw)
        (fun _ _ hw => ⟨rfl, hw⟩) fun _ hw => hw) rfl
    | semaphore =>
      refine gains_of_gained (Guard.gained_create.mono (fun _ hw => hw) ?_ fun _ hw => hw) rfl
      intro g w hw
      rw [Handle.entries, if_pos hw.1]
      exact hw.2
  | joinGuard text policy =>
    exact gains_of_kept (Guard.table_join.mono (fun _ hw => hw)
      (fun g _ hw => ⟨(Handle.entries_guard g kind).trans (Handle.entries_of_opened hw.1 kind),
        hw.2⟩) fun _ hw => hw) rfl

end Making

/-! ### Teardown -/

namespace Store

theorem steady_unlinkAll {J : World → Prop} (h : World.Steady J) (mappings : List Mapping) :
    Deed.Keeps J (unlinkAll mappings) :=
  ensures_unlinkAll (P := fun _ => J) (fun _ _ => Segment.steady_unlink h)
    (fun _ => Segment.steady_report h) mappings

theorem segments_unlinkAll (mappings : List Mapping) (w : World) :
    ((unlinkAll mappings).run w).2.segments =
      w.segments.removeAll (mappings.map (·.objectName)) := by
  -- what is left once the names still to come are removed does not change on the way
  have hunlink (name : ObjectName) (later : List ObjectName) (r : Registry Segment) :
      Deed.Ensures (fun v => v.segments.removeAll (name :: later) = r) (Segment.unlink name)
        fun _ v => v.segments.removeAll later = r :=
    Segment.ensures_unlink (fun segments => segments.removeAll later = r) name
  exact ensures_unlinkAll (P := fun names v => v.segments.removeAll names = _)
    (fun name later => hunlink name later _) (fun _ _ _ hv => hv) mappings w rfl

variable {s : Store} {w : World}

theorem destroy_of_done (h : s.destroyed = true) : s.destroy.run w = (s, w) := by
  unfold destroy
  rw [if_pos h]
  rfl

theorem destroy_of_attached (h : s.destroyed = false) (hown : s.ownership = .attached) :
    s.destroy.run w = ({ s with destroyed := true }, w) := by
  unfold destroy
  rw [h, hown]
  rfl

theorem destroy_of_owned (h : s.destroyed = false) (hown : s.ownership = .owned) :
    s.destroy.run w =
      ({ s with destroyed := true }, ((unlinkAll s.mappings.toList).run w).2) := by
  unfold destroy
  rw [h, hown]
  rfl

/-- Destroying a store removes the names that it has, and leaves it without any. -/
theorem destroy_table (s : Store) (kind : ObjectKind) (w : World) :
    (s.destroy.run w).2.table kind =
      (w.table kind).removeAll (((Handle.store s).entries kind).map Prod.fst) ∧
    (Handle.store (s.destroy.run w).1).entries kind = [] := by
  have hgone (kind : ObjectKind) : (Handle.store { s with destroyed := true }).entries kind = [] :=
    Handle.entries_of_destroyed rfl kind
  cases hdestroyed : s.destroyed with
  | true =>
    rw [destroy_of_done hdestroyed, Handle.entries_of_destroyed hdestroyed]
    exact ⟨rfl, rfl⟩
  | false =>
    cases hown : s.ownership with
    | attached =>
      rw [destroy_of_attached hdestroyed hown, Handle.entries_of_attached hown]
      exact ⟨rfl, hgone kind⟩
    | owned =>
      rw [destroy_of_owned hdestroyed hown]
      refine ⟨?_, hgone kind⟩
      cases kind with
      | segment =>
        rw [Handle.entries, if_pos ⟨hown, hdestroyed⟩, List.map_map]
        exact (congrArg Registry.outline (segments_unlinkAll ..)).trans
          (Registry.outline_removeAll ..)
      | semaphore =>
        exact steady_unlinkAll (@steady_table (· = w.table .semaphore)) s.mappings.toList w rfl

end Store

namespace Semaphore

variable {s : Semaphore}

theorem table_post : Op.Keeps (fun w => I (w.table kind)) s.post := by
  have hentry (entry : Entry) : Deed.Keeps (fun w => I (w.table kind)) (enter entry) := by
    cases kind <;> exact fun _ hw => hw
  refine keeps_post hentry table_meet (Deed.keeps_modify fun w hw => ?_)
  cases kind with
  | segment => exact hw
  | semaphore =>
    show I (w.semaphores.modify s.object _).outline
    rw [Registry.outline_modify]
    exact hw

theorem drop_table (s : Semaphore) (kind : ObjectKind) (t : Registry Unit) :
    Deed.Ensures (fun w => w.table kind = t) s.drop fun _ w =>
      w.table kind = t.removeAll (((Handle.semaphore s).entries kind).map Prod.fst) := by
  unfold drop
  cases hcreator : s.creator with
  | false =>
    rw [Handle.entries_of_opened hcreator]
    exact Deed.keeps_pure
  | true =>
    cases kind with
    | segment => exact Deed.keeps_modify fun _ hw => hw
    | semaphore =>
      rw [Handle.entries, if_pos hcreator]
      exact Deed.ensures_modify fun w hw => congrArg (Registry.remove · s.objectName) hw

end Semaphore

namespace Handle

/-- Dropping a handle removes the names of its entries. -/
theorem drop_table (h : Handle) (kind : ObjectKind) (w : World) :
    (h.drop.run w).2.table kind = (w.table kind).removeAll ((h.entries kind).map Prod.fst) := by
  cases h with
  | store s => exact (s.destroy_table kind w).1
  | semaphore s => exact s.drop_table kind _ w rfl
  | guard g =>
    have hrelease : Deed.Keeps (fun after => after.table kind = w.table kind) g.release := by
      unfold Guard.release
      split
      · exact Deed.keeps_pure
      · exact Deed.keeps_bind (Op.Keeps.run (@Semaphore.table_post (· = w.table kind) kind _))
          fun _ => Deed.keeps_pure
    have hdrop : Deed.Ensures (fun after => after.table kind = w.table kind) g.drop fun _ after =>
        after.table kind =
          (w.table kind).removeAll (((semaphore g.semaphore).entries kind).map Prod.fst) := by
      unfold Guard.drop
      refine Deed.ensures_bind hrelease fun result => ?_
      obtain ⟨e | _, _⟩ := result
      · exact Deed.ensures_bind (@table_report (· = w.table kind) kind _) fun _ =>
          g.semaphore.drop_table kind _
      · exact g.semaphore.drop_table kind _
    rw [entries_guard]
    exact hdrop w rfl

end Handle

end RtuStation
