import Mathlib.Data.List.Induction
import RtuStation.Proofs.Handles

/-!
# Teardown

Handles are made, destroyed, forgotten and dropped in any order, several of them under one name as
well. A handle that goes takes away the names under which it has created objects itself, and only
these; one that was opened or attached takes none, and neither does a store that was destroyed
before. Names are removed as such, though: a handle keeps its names until another handle is made by
force under one of them, or until an earlier holder goes, from whom the name was taken.
-/

namespace RtuStation

/-- The handles in the order in which they were made, with gaps for those that are gone. -/
structure Scene where
  handles : List (Option Handle)
  world : World

inductive Act where
  | make (m : Making)
  | destroy (i : Nat)
  | forget (i : Nat)
  | drop (i : Nat)

namespace Act

/-- The handle whose names of a kind are removed; only a store can be destroyed. -/
def ends? : Act → ObjectKind → Option Nat
  | drop i, _ | destroy i, .segment => some i
  | _, _ => none

end Act

namespace Scene

variable {s : Scene} {act : Act} {m : Making} {kind : ObjectKind} {i j : Nat}
  {entry other : ObjectName × Nat}

def handle? (s : Scene) (i : Nat) : Option Handle := s.handles[i]?.join

def entries (s : Scene) (i : Nat) (kind : ObjectKind) : List (ObjectName × Nat) :=
  ((s.handle? i).map fun h => h.entries kind).getD []

def find? (s : Scene) (kind : ObjectKind) (name : ObjectName) : Option Nat :=
  (s.world.table kind).find? name

def settle (s : Scene) : Except Error Handle × World → Scene
  | (.ok h, w) => ⟨s.handles ++ [some h], w⟩
  | (.error _, w) => ⟨s.handles, w⟩

def after (s : Scene) : Act → Scene
  | .make m => s.settle (m.perform.run.run s.world)
  | .destroy i =>
    match s.handle? i with
    | some (.store store) =>
      ⟨s.handles.set i (some (.store (store.destroy.run s.world).1)),
        (store.destroy.run s.world).2⟩
    | _ => s
  | .forget i => ⟨s.handles.set i none, s.world⟩
  | .drop i =>
    match s.handle? i with
    | some h => ⟨s.handles.set i none, (h.drop.run s.world).2⟩
    | none => s

/-- The names that an act removes on account of a handle that goes. -/
def removed (s : Scene) (act : Act) (kind : ObjectKind) : List ObjectName :=
  match act.ends? kind with
  | some i => (s.entries i kind).map Prod.fst
  | none => []

/-! ### Handles in their places -/

theorem entries_of_handle? {h : Handle} (hi : s.handle? i = some h) :
    s.entries i kind = h.entries kind := by
  rw [entries, hi]
  rfl

theorem entries_of_gap (hi : s.handle? i = none) : s.entries i kind = [] := by
  rw [entries, hi]
  rfl

theorem entries_append (s : Scene) (h : Handle) (w : World) :
    (Scene.mk (s.handles ++ [some h]) w).entries i kind =
      if i = s.handles.length then h.entries kind else s.entries i kind := by
  simp only [entries, handle?]
  split
  · next hi =>
    subst hi
    rw [List.getElem?_concat_length]
    rfl
  · next hi =>
    rcases Nat.lt_or_gt_of_ne hi with hlt | hgt
    · rw [List.getElem?_append_left hlt]
    · have hlength : (s.handles ++ [some h]).length ≤ i := by
        rw [List.length_append]
        exact hgt
      rw [List.getElem?_eq_none hlength, List.getElem?_eq_none (Nat.le_of_lt hgt)]

/-- A handle without names of a kind takes the place of another one, or leaves a gap. -/
theorem entries_set (s : Scene) {o : Option Handle} (w : World)
    (h : ∀ handle, o = some handle → handle.entries kind = []) :
    (Scene.mk (s.handles.set i o) w).entries j kind = if i = j then [] else s.entries j kind := by
  simp only [entries, handle?]
  split
  · next hij =>
    subst hij
    rw [List.getElem?_set_self']
    cases s.handles[i]? with
    | none => rfl
    | some old =>
      cases o with
      | none => rfl
      | some handle => exact h handle rfl
  · next hij => rw [List.getElem?_set_ne hij]

/-- What happens when a handle goes: its names do, and no others. -/
structure Ended (s : Scene) (act : Act) (kind : ObjectKind) (later : Scene) : Prop where
  table : later.world.table kind = (s.world.table kind).removeAll (s.removed act kind)
  entries : ∀ i, later.entries i kind = s.entries i kind ∨ later.entries i kind = []
  gone : ∀ i, act.ends? kind = some i → later.entries i kind = []
  length : later.handles.length = s.handles.length

theorem ended_of_set {o : Option Handle} {w : World}
    (htable : w.table kind = (s.world.table kind).removeAll (s.removed act kind))
    (h : ∀ handle, o = some handle → handle.entries kind = [])
    (hends : ∀ j, act.ends? kind = some j → i = j) :
    s.Ended act kind ⟨s.handles.set i o, w⟩ where
  table := htable
  entries := fun j => by
    rw [entries_set s w h]
    split
    · exact .inr rfl
    · exact .inl rfl
  gone := fun j hj => by
    rw [entries_set s w h, if_pos (hends j hj)]
  length := List.length_set

theorem ended_of_nothing (h : ∀ i, act.ends? kind = some i → s.entries i kind = []) :
    s.Ended act kind s where
  table := by
    unfold removed
    split
    · next i hi =>
      rw [h i hi]
      rfl
    · rfl
  entries := fun _ => .inl rfl
  gone := h
  length := rfl

theorem ended_after (hact : ∀ m, act ≠ .make m) (kind : ObjectKind) :
    s.Ended act kind (s.after act) := by
  -- a gap and a handle of another kind are left as they are, so that nothing is owed by them
  cases act with
  | make m => exact absurd rfl (hact m)
  | forget i => exact ended_of_set rfl nofun nofun
  | drop i =>
    cases hi : s.handle? i with
    | none =>
      have hsame : s.after (.drop i) = s := by simp only [after, hi]
      rw [hsame]
      refine ended_of_nothing fun j hj => ?_
      cases hj
      exact entries_of_gap hi
    | some h =>
      have hafter : s.after (.drop i) = ⟨s.handles.set i none, (h.drop.run s.world).2⟩ := by
        simp only [after, hi]
      rw [hafter]
      refine ended_of_set ?_ nofun fun j hj => Option.some.inj hj
      rw [h.drop_table, ← entries_of_handle? hi]
      rfl
  | destroy i =>
    have hnothing (hsame : s.after (.destroy i) = s) (h : s.entries i .segment = []) :
        s.Ended (.destroy i) kind (s.after (.destroy i)) := by
      rw [hsame]
      refine ended_of_nothing fun j hj => ?_
      cases kind <;> cases hj
      exact h
    cases hi : s.handle? i with
    | none => exact hnothing (by simp only [after, hi]) (entries_of_gap hi)
    | some h =>
      cases h with
      | semaphore | guard => exact hnothing (by simp only [after, hi]) (entries_of_handle? hi)
      | store store =>
        have hafter : s.after (.destroy i) =
            ⟨s.handles.set i (some (.store (store.destroy.run s.world).1)),
              (store.destroy.run s.world).2⟩ := by
          simp only [after, hi]
        rw [hafter]
        refine ended_of_set ?_ (fun h hh => ?_) fun j hj => ?_
        · rw [(store.destroy_table kind s.world).1, ← entries_of_handle? hi]
          cases kind with
          | segment => rfl
          | semaphore =>
            rw [entries_of_handle? hi]
            rfl
        · cases hh
          exact (store.destroy_table kind s.world).2
        · cases kind <;> cases hj
          rfl

/-- What happens when a handle is made: it has the names that the table gains. -/
structure Joined (s : Scene) (m : Making) (kind : ObjectKind) (made : List (ObjectName × Nat))
    (later : Scene) : Prop where
  table : (s.world.table kind).Gained (m.texts kind) made (later.world.table kind)
  entries : ∀ i entry, entry ∈ later.entries i kind →
    entry ∈ s.entries i kind ∨ (i = s.handles.length ∧ entry ∈ made)
  length : s.handles.length ≤ later.handles.length

theorem joined_after (s : Scene) (m : Making) (kind : ObjectKind) :
    ∃ made, s.Joined m kind made (s.after (.make m)) := by
  have hgains := m.gains kind s.world s.world rfl
  have hafter : s.after (.make m) = s.settle (m.perform.run.run s.world) := rfl
  rw [hafter]
  generalize m.perform.run.run s.world = course at hgains
  obtain ⟨e | h, w⟩ := course
  · exact ⟨[], hgains, fun i entry hentry => .inl hentry, Nat.le_refl _⟩
  · refine ⟨h.entries kind, hgains, fun i entry hentry => ?_, ?_⟩
    · have happend : (s.settle (.ok h, w)).entries i kind = _ := entries_append s h w
      rw [happend] at hentry
      split at hentry
      · next hi => exact .inr ⟨hi, hentry⟩
      · exact .inl hentry
    · exact (List.sublist_append_left ..).length_le

/-- One act makes a handle, or ends some. -/
theorem after_cases (s : Scene) (act : Act) (kind : ObjectKind) :
    (∃ m made, act = .make m ∧ s.Joined m kind made (s.after act)) ∨
      s.Ended act kind (s.after act) := by
  cases act with
  | make m =>
    obtain ⟨made, hjoined⟩ := s.joined_after m kind
    exact .inl ⟨m, made, rfl, hjoined⟩
  | destroy | forget | drop => exact .inr (ended_after (fun _ h => by cases h) kind)

/-- Objects that handles have created are in the table, and a name that refers to one of them does
so for the latest of its holders. -/
structure Sound (s : Scene) (kind : ObjectKind) : Prop where
  known : ∀ i entry, entry ∈ s.entries i kind → entry.2 < (s.world.table kind).next
  latest : ∀ i j entry other, i ≠ j → entry ∈ s.entries i kind → other ∈ s.entries j kind →
    other.1 = entry.1 → s.find? kind entry.1 = some entry.2 → other.2 < entry.2

theorem find?_of_ended {later : Scene} (h : s.Ended act kind later) (name : ObjectName) :
    later.find? kind name = if name ∈ s.removed act kind then none else s.find? kind name := by
  rw [find?, h.table, Registry.find?_removeAll]
  rfl

theorem Ended.of_mem {later : Scene} (h : s.Ended act kind later)
    (hentry : entry ∈ later.entries i kind) : entry ∈ s.entries i kind := by
  rcases h.entries i with hsame | hgone
  · rwa [hsame] at hentry
  · rw [hgone] at hentry
    cases hentry

theorem Sound.ended {later : Scene} (hs : s.Sound kind) (h : s.Ended act kind later) :
    later.Sound kind where
  known := fun i entry hentry => by
    rw [h.table, Registry.next_removeAll]
    exact hs.known i entry (h.of_mem hentry)
  latest := fun i j entry other hne hentry hother hname hfound => by
    rw [find?_of_ended h] at hfound
    split at hfound
    · cases hfound
    · exact hs.latest i j entry other hne (h.of_mem hentry) (h.of_mem hother) hname hfound

theorem Sound.joined {made : List (ObjectName × Nat)} {later : Scene} (hs : s.Sound kind)
    (h : s.Joined m kind made later) : later.Sound kind := by
  have hnew {entry : ObjectName × Nat} (hmade : entry ∈ made) :
      later.find? kind entry.1 = some entry.2 := h.table.found entry hmade
  have hold {entry : ObjectName × Nat} (hknown : entry.2 < (s.world.table kind).next)
      (hfound : later.find? kind entry.1 = some entry.2) :
      s.find? kind entry.1 = some entry.2 := by
    refine (h.table.bound _ _ hfound).resolve_right fun hmade => ?_
    exact absurd (h.table.fresh _ hmade) (Nat.not_le_of_lt hknown)
  refine ⟨fun i entry hentry => ?_, fun i j entry other hne hentry hother hname hfound => ?_⟩
  · rcases h.entries i entry hentry with hentry | ⟨-, hmade⟩
    · exact Nat.lt_of_lt_of_le (hs.known i entry hentry) h.table.next
    · exact Registry.lt_next_of_find? (hnew hmade)
  · rcases h.entries i entry hentry with hentry | ⟨rfl, hmade⟩
    · have hknown := hs.known i entry hentry
      rcases h.entries j other hother with hother | ⟨-, hmade⟩
      · exact hs.latest i j entry other hne hentry hother hname (hold hknown hfound)
      · -- the name refers to the new object, not to the old one
        have hsame := hnew hmade
        rw [hname, hfound] at hsame
        have hfresh := h.table.fresh _ hmade
        rw [← Option.some.inj hsame] at hfresh
        exact absurd hfresh (Nat.not_le_of_lt hknown)
    · rcases h.entries j other hother with hother | ⟨rfl, -⟩
      · exact Nat.lt_of_lt_of_le (hs.known j other hother) (h.table.fresh _ hmade)
      · exact absurd rfl hne

theorem sound_after (hs : s.Sound kind) (act : Act) : (s.after act).Sound kind := by
  rcases s.after_cases act kind with ⟨m, made, -, hjoined⟩ | hended
  · exact hs.joined hjoined
  · exact hs.ended hended

end Scene
end RtuStation
