import RtuStation.Name

/-!
# Registries of named objects

A registry holds objects under numbers and lets names refer to some of them. A name that is removed
no longer refers to its object, but the object stays as it is for those who hold its number. A new
object always has a number of its own.
-/

namespace RtuStation

/-- Objects under numbers, and the names that refer to them. -/
structure Registry (α : Type) where
  names : List (ObjectName × Nat) := []
  objects : Array α := #[]
  known : ∀ entry ∈ names, entry.2 < objects.size := by exact fun _ h => absurd h List.not_mem_nil

namespace Registry

variable {α : Type}

def empty : Registry α := {}

instance : Inhabited (Registry α) := ⟨empty⟩

def find? (r : Registry α) (name : ObjectName) : Option Nat := r.names.lookup name

def get? (r : Registry α) (number : Nat) : Option α := r.objects[number]?

def next (r : Registry α) : Nat := r.objects.size

def add (r : Registry α) (name : ObjectName) (x : α) : Registry α where
  names := (name, r.next) :: r.names
  objects := r.objects.push x
  known := by
    intro entry h
    rw [Array.size_push]
    rcases List.mem_cons.mp h with rfl | h
    · simp [next]
    · have := r.known entry h
      omega

def remove (r : Registry α) (name : ObjectName) : Registry α where
  names := r.names.filter fun entry => entry.1 ≠ name
  objects := r.objects
  known := fun entry h => r.known entry (List.mem_filter.mp h).1

def modify (r : Registry α) (number : Nat) (f : α → α) : Registry α where
  names := r.names
  objects := r.objects.modify number f
  known := by simpa using r.known

/-! ### Names and objects after each change -/

@[simp] theorem find?_add_self (r : Registry α) (name : ObjectName) (x : α) :
    (r.add name x).find? name = some r.next := by
  simp [find?, add]

theorem find?_add_of_ne (r : Registry α) {name other : ObjectName} (x : α) (h : other ≠ name) :
    (r.add name x).find? other = r.find? other := by
  have : (other == name) = false := by simpa using h
  simp [find?, add, List.lookup_cons, this]

@[simp] theorem get?_add_next (r : Registry α) (name : ObjectName) (x : α) :
    (r.add name x).get? r.next = some x := by
  simp [get?, add, next]

theorem get?_add_of_ne (r : Registry α) (name : ObjectName) (x : α) {n : Nat} (h : n ≠ r.next) :
    (r.add name x).get? n = r.get? n := by
  simp only [get?, add, next] at h ⊢
  rw [Array.getElem?_push, if_neg h]

theorem lookup_filter_ne (names : List (ObjectName × Nat)) (name other : ObjectName) :
    (names.filter fun entry => entry.1 ≠ name).lookup other =
      if other = name then none else names.lookup other := by
  induction names with
  | nil => simp
  | cons entry names ih =>
    obtain ⟨key, n⟩ := entry
    by_cases hk : key = name
    · subst hk
      by_cases ho : other = key
      · simpa [List.filter_cons, ho] using ih
      · have : (other == key) = false := by simpa using ho
        simpa [List.filter_cons, ho, List.lookup_cons, this] using ih
    · by_cases ho : other = key
      · subst ho
        simp [hk]
      · have : (other == key) = false := by simpa using ho
        simpa [List.filter_cons, hk, List.lookup_cons, this] using ih

@[simp] theorem find?_remove (r : Registry α) (name other : ObjectName) :
    (r.remove name).find? other = if other = name then none else r.find? other :=
  lookup_filter_ne r.names name other

theorem get?_modify_self (r : Registry α) (n : Nat) (f : α → α) :
    (r.modify n f).get? n = (r.get? n).map f := by
  simp [get?, modify, Array.getElem?_modify]

theorem get?_modify_of_ne (r : Registry α) {n m : Nat} (f : α → α) (h : n ≠ m) :
    (r.modify n f).get? m = r.get? m := by
  simp [get?, modify, Array.getElem?_modify, h]

/-- Only what becomes of the object itself matters. -/
theorem modify_congr (r : Registry α) {n : Nat} {f g : α → α}
    (h : ∀ x, r.get? n = some x → f x = g x) : r.modify n f = r.modify n g := by
  obtain ⟨names, objects, known⟩ := r
  have hobjects : objects.modify n f = objects.modify n g := by
    apply Array.ext_getElem?
    intro m
    rw [Array.getElem?_modify, Array.getElem?_modify]
    split
    · next hn =>
      subst hn
      cases hx : objects[n]? with
      | none => rfl
      | some x => exact congrArg some (h x hx)
    · rfl
  simp only [modify, hobjects]

/-- A change that leaves the object as it is leaves the registry as it is. -/
theorem modify_of_fixed (r : Registry α) {n : Nat} {f : α → α}
    (h : ∀ x, r.get? n = some x → f x = x) : r.modify n f = r := by
  have hobjects : (r.objects.modify n fun x => x) = r.objects := by
    apply Array.ext_getElem?
    intro m
    rw [Array.getElem?_modify, Option.map_id_fun', id, ite_self]
  refine (r.modify_congr h).trans ?_
  simp only [modify, hobjects]

end Registry
end RtuStation
