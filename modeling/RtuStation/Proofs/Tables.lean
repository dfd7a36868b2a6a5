import RtuStation.Proofs.Belongings

/-!
# Tables of names

A table gains names while objects are created under names that texts denote. `Registry.Gained` tells
which texts have been tried and which new objects have names now: other names are not touched, and
no name refers to a new object that is not accounted for. A new object is added, a name is removed
on the way, or the latest object is undone. `Registry.SameTable` is a table in which nothing that
can be reached by name has changed.
-/

namespace RtuStation

namespace ObjectName

variable {name : ObjectName} {text : String} {tried : List String}

/-- Whether one of the texts denotes the name. -/
def DenotedBy (name : ObjectName) (tried : List String) : Prop :=
  ∃ text ∈ tried, ofText text = .ok name

theorem DenotedBy.mono {later : List String} (h : name.DenotedBy tried) (hsub : tried ⊆ later) :
    name.DenotedBy later := by
  obtain ⟨text, hmem, htext⟩ := h
  exact ⟨text, hsub hmem, htext⟩

theorem denotedBy_head (h : ofText text = .ok name) : name.DenotedBy (text :: tried) :=
  ⟨text, List.mem_cons_self .., h⟩

end ObjectName

namespace Registry

variable {α : Type} {old r after : Registry α} {tried : List String}
  {made : List (ObjectName × Nat)} {text : String} {name : ObjectName}

/-- A table has come from an old one by attempts to create objects under names that the texts
`tried` denote. The entries `made` are the new ones that there are. -/
structure Gained (old : Registry α) (tried : List String) (made : List (ObjectName × Nat))
    (r : Registry α) : Prop where
  next : old.next ≤ r.next
  others : ∀ name, ¬name.DenotedBy tried → r.find? name = old.find? name
  bound : ∀ name n, r.find? name = some n → old.find? name = some n ∨ (name, n) ∈ made
  fresh : ∀ entry ∈ made, old.next ≤ entry.2
  found : ∀ entry ∈ made, r.find? entry.1 = some entry.2
  distinct : made.Pairwise fun entry other => entry.2 ≠ other.2

/-- The names of two tables are the same and refer to the same objects. -/
structure SameTable (r after : Registry α) : Prop where
  names : after.names = r.names
  objects : ∀ n < r.next, after.get? n = r.get? n

theorem Grown.sameTable (h : r.Grown (fun _ => True) [] after) : r.SameTable after where
  names := by
    rw [← h.names]
    exact (List.filter_eq_self.mpr fun _ _ => by simp).symm
  objects := fun n hn => h.objects n hn trivial

theorem mem_of_find? {n : Nat} (h : r.find? name = some n) : (name, n) ∈ r.names := by
  obtain ⟨before, behind, hnames, -⟩ := List.lookup_eq_some_iff.mp h
  rw [hnames]
  exact List.mem_append_right _ (List.mem_cons_self ..)

/-- Names that are not owned refer to what they referred to. -/
theorem Grown.find?_of_find? {kept : Nat → Prop} {own : List ObjectName} {n : Nat}
    (h : old.Grown kept own r) (hfound : old.find? name = some n) : r.find? name = some n := by
  have hlookup (names : List (ObjectName × Nat)) (hname : name ∉ own) :
      (names.filter fun entry => entry.1 ∉ own).lookup name = names.lookup name := by
    induction names with
    | nil => rfl
    | cons entry names ih =>
      by_cases hown : entry.1 ∈ own
      · have hne : name ≠ entry.1 := by
          rintro rfl
          exact hname hown
        rw [List.filter_cons_of_neg (by simpa using hown), ih, List.lookup_cons,
          beq_false_of_ne hne]
      · rw [List.filter_cons_of_pos (by simpa using hown), List.lookup_cons, List.lookup_cons, ih]
  have hname : name ∉ own := by
    have hmem := mem_of_find? hfound
    rw [← h.names] at hmem
    simpa using (List.mem_filter.mp hmem).2
  rw [find?, ← hlookup r.names hname, h.names]
  exact hfound

theorem lt_next_of_find? {n : Nat} (h : r.find? name = some n) : n < r.next :=
  r.known (name, n) (mem_of_find? h)

theorem lt_next_of_get? {n : Nat} {x : α} (h : r.get? n = some x) : n < r.next :=
  (Array.getElem?_eq_some_iff.mp h).1

theorem Gained.refl (r : Registry α) : Gained r [] [] r :=
  ⟨Nat.le_refl _, fun _ _ => rfl, fun _ _ h => .inl h, nofun, nofun, .nil⟩

theorem Gained.mono {later : List String} (h : Gained old tried made r) (hsub : tried ⊆ later) :
    Gained old later made r :=
  { h with others := fun name hname => h.others name fun hdenoted => hname (hdenoted.mono hsub) }

theorem Gained.retry (h : Gained old tried made r) (text : String) :
    Gained old (text :: tried) made r := h.mono (List.subset_cons_self ..)

theorem find?_of_names (hnames : after.names = r.names) (name : ObjectName) :
    after.find? name = r.find? name := congrArg (List.lookup name) hnames

theorem Gained.of_names (h : Gained old tried made r) (hnames : after.names = r.names)
    (hnext : r.next ≤ after.next) : Gained old tried made after where
  next := Nat.le_trans h.next hnext
  others := fun name hname => (find?_of_names hnames name).trans (h.others name hname)
  bound := fun name n hfound => h.bound name n ((find?_of_names hnames name).symm.trans hfound)
  fresh := h.fresh
  found := fun entry hentry => (find?_of_names hnames _).trans (h.found entry hentry)
  distinct := h.distinct

theorem Gained.add (h : Gained old tried made r) (hfree : r.find? name = none)
    (hname : name.DenotedBy tried) (x : α) :
    Gained old tried ((name, r.next) :: made) (r.add name x) where
  next := by
    have hsize : (r.add name x).next = r.next + 1 := Array.size_push ..
    rw [hsize]
    exact Nat.le_succ_of_le h.next
  others := fun other hother => by
    have hne : other ≠ name := fun heq => hother (heq ▸ hname)
    rw [find?_add_of_ne r x hne]
    exact h.others other hother
  bound := fun other n hfound => by
    by_cases hne : other = name
    · subst hne
      rw [find?_add_self] at hfound
      cases hfound
      exact .inr (List.mem_cons_self ..)
    · rw [find?_add_of_ne r x hne] at hfound
      exact (h.bound other n hfound).imp_right (List.mem_cons_of_mem _)
  fresh := List.forall_mem_cons.mpr ⟨h.next, h.fresh⟩
  found := List.forall_mem_cons.mpr ⟨find?_add_self .., fun entry hentry => by
    have hfound := h.found entry hentry
    have hne : entry.1 ≠ name := fun heq => by
      rw [heq, hfree] at hfound
      cases hfound
    rw [find?_add_of_ne r x hne]
    exact hfound⟩
  distinct := by
    refine List.pairwise_cons.mpr ⟨fun entry hentry => ?_, h.distinct⟩
    exact Nat.ne_of_gt (lt_next_of_find? (h.found entry hentry))

/-- The order in which new objects are accounted for does not matter. -/
theorem Gained.reverse (h : Gained old tried made r) : Gained old tried made.reverse r :=
  { h with
    bound := fun name n hfound => (h.bound name n hfound).imp_right List.mem_reverse.mpr
    fresh := fun entry hentry => h.fresh entry (List.mem_reverse.mp hentry)
    found := fun entry hentry => h.found entry (List.mem_reverse.mp hentry)
    distinct := List.pairwise_reverse.mpr (h.distinct.imp Ne.symm) }

/-- A name that refers to no new object is removed. -/
theorem Gained.remove (h : Gained old tried made r) (hname : name.DenotedBy tried)
    (hapart : ∀ entry ∈ made, entry.1 ≠ name) : Gained old tried made (r.remove name) where
  next := h.next
  others := fun other hother => by
    have hne : other ≠ name := fun heq => hother (heq ▸ hname)
    rw [find?_remove, if_neg hne]
    exact h.others other hother
  bound := fun other n hfound => by
    rw [find?_remove] at hfound
    split at hfound
    · cases hfound
    · exact h.bound other n hfound
  fresh := h.fresh
  found := fun entry hentry => by
    rw [find?_remove, if_neg (hapart entry hentry)]
    exact h.found entry hentry
  distinct := h.distinct

theorem Gained.denoted (h : Gained old tried made r) {entry : ObjectName × Nat}
    (hentry : entry ∈ made) : entry.1.DenotedBy tried := by
  refine Classical.byContradiction fun hname => ?_
  have hfound := h.found entry hentry
  rw [h.others entry.1 hname] at hfound
  exact Nat.not_lt.mpr (h.fresh entry hentry) (lt_next_of_find? hfound)

/-- The latest new object loses its name. -/
theorem Gained.undo {n : Nat} (h : Gained old tried ((name, n) :: made) r) :
    Gained old tried made (r.remove name) := by
  obtain ⟨hdistinct, hrest⟩ := List.pairwise_cons.mp h.distinct
  have hfound : r.find? name = some n := h.found _ (List.mem_cons_self ..)
  have hname : name.DenotedBy tried := h.denoted (List.mem_cons_self ..)
  have hapart : ∀ entry ∈ made, entry.1 ≠ name := by
    rintro entry hentry rfl
    have hsame := (h.found entry (List.mem_cons_of_mem _ hentry)).symm.trans hfound
    exact hdistinct entry hentry (Option.some.inj hsame).symm
  refine ⟨h.next, fun other hother => ?_, fun other m hother => ?_, fun entry hentry => ?_,
    fun entry hentry => ?_, hrest⟩
  · have hne : other ≠ name := fun heq => hother (heq ▸ hname)
    rw [find?_remove, if_neg hne]
    exact h.others other hother
  · rw [find?_remove] at hother
    split at hother
    · cases hother
    · next hne =>
      refine (h.bound other m hother).imp_right fun hmem => ?_
      rcases List.mem_cons.mp hmem with heq | hmem
      · exact absurd (congrArg Prod.fst heq) hne
      · exact hmem
  · exact h.fresh entry (List.mem_cons_of_mem _ hentry)
  · rw [find?_remove, if_neg (hapart entry hentry)]
    exact h.found entry (List.mem_cons_of_mem _ hentry)

theorem modify_modify (r : Registry α) (n : Nat) (f g : α → α) :
    (r.modify n f).modify n g = r.modify n (g ∘ f) := by
  have hobjects : (r.objects.modify n f).modify n g = r.objects.modify n (g ∘ f) := by
    apply Array.ext_getElem?
    intro m
    simp only [Array.getElem?_modify]
    split
    · rw [Option.map_map]
    · rfl
  simp only [modify, hobjects]

theorem modify_add_next (r : Registry α) (name : ObjectName) (x : α) (f : α → α) :
    (r.add name x).modify r.next f = r.add name (f x) := by
  have hobjects : (r.objects.push x).modify r.objects.size f = r.objects.push (f x) := by
    apply Array.ext_getElem?
    intro m
    rw [Array.getElem?_modify, Array.getElem?_push, Array.getElem?_push]
    split
    · next hm => simp only [hm, if_true, Option.map_some]
    · next hm => simp only [Ne.symm hm, if_false]
  simp only [modify, add, next, hobjects]

theorem Grown.of_eq {kept : Nat → Prop} {after : Registry α} (h : after = r) :
    r.Grown kept [] after := h ▸ .refl kept r

theorem remove_of_free (h : r.find? name = none) : r.remove name = r := by
  have hnames := remove_of_find? h
  obtain ⟨names, objects, known⟩ := r
  simp only [remove] at hnames ⊢
  simp only [hnames]

end Registry

end RtuStation
