import RtuStation.World.Basic

/-!
# What deeds ensure

A deed that is started in a world where `P` holds ensures that `Q` holds of its answer and of the
world that it leaves. An operation that fails ensures something else about the world; it yields
something about its error too. What holds of the world before and after, whatever the answer, is
kept. There is one rule for each way to put deeds and operations together, so that a proof follows
the text of the deed.
-/

namespace RtuStation

variable {α β : Type}

def Deed.Ensures (P : World → Prop) (d : Deed α) (Q : α → World → Prop) : Prop :=
  ∀ w, P w → Q (d.run w).1 (d.run w).2

def Op.Ensures (P : World → Prop) (op : Op α) (Q : α → World → Prop) (E : World → Prop) : Prop :=
  Deed.Ensures P op.run fun outcome w =>
    match outcome with
    | .ok a => Q a w
    | .error _ => E w

/-- The operation either answers, and then `Q` holds, or fails with an error for which `E` holds. -/
def Op.Yields (P : World → Prop) (op : Op α) (Q : α → World → Prop) (E : Error → World → Prop) :
    Prop :=
  Deed.Ensures P op.run fun outcome w =>
    match outcome with
    | .ok a => Q a w
    | .error e => E e w

def Deed.Keeps (I : World → Prop) (d : Deed α) : Prop := Deed.Ensures I d fun _ => I

def Op.Keeps (I : World → Prop) (op : Op α) : Prop := Op.Ensures I op (fun _ => I) I

namespace Deed

variable {P P' I : World → Prop} {d : Deed α} {f : α → Deed β} {R Q' : α → World → Prop}
  {Q : β → World → Prop}

theorem ensures_pure {a : α} (h : ∀ w, P w → R a w) : Deed.Ensures P (pure a) R := h

theorem ensures_get : Deed.Ensures P get fun v w => w = v ∧ P w := fun _ hw => ⟨rfl, hw⟩

theorem ensures_modify {f : World → World} {Q : Unit → World → Prop} (h : ∀ w, P w → Q () (f w)) :
    Deed.Ensures P (modify f) Q := h

theorem ensures_bind (hd : Deed.Ensures P d R) (hf : ∀ a, Deed.Ensures (R a) (f a) Q) :
    Deed.Ensures P (d >>= f) Q := fun w h => hf _ _ (hd w h)

theorem ensures_bind_known {a : α} {S : World → Prop}
    (hd : Deed.Ensures P d fun answer w => answer = a ∧ S w) (hf : Deed.Ensures S (f a) Q) :
    Deed.Ensures P (d >>= f) Q := by
  refine ensures_bind hd fun answer w hw => ?_
  obtain ⟨rfl, hw⟩ := hw
  exact hf w hw

theorem ensures_get_bind {f : World → Deed β} (h : ∀ v, P v → Deed.Ensures P (f v) Q) :
    Deed.Ensures P (get >>= f) Q := fun w hw => h w hw w hw

/-- What does not depend on the world can be had once and for all. -/
theorem ensures_of_fact {fact : Prop} (h : fact → Deed.Ensures P d R) :
    Deed.Ensures (fun w => fact ∧ P w) d R := fun w hw => h hw.1 w hw.2

theorem Ensures.mono (h : Deed.Ensures P d R) (hbefore : ∀ w, P' w → P w)
    (hafter : ∀ a w, R a w → Q' a w) : Deed.Ensures P' d Q' :=
  fun w hw => hafter _ _ (h w (hbefore w hw))

theorem keeps_pure {a : α} : Deed.Keeps I (pure a) := fun _ hw => hw

theorem keeps_get : Deed.Keeps I get := fun _ hw => hw

theorem keeps_modify {f : World → World} (h : ∀ w, I w → I (f w)) : Deed.Keeps I (modify f) := h

theorem keeps_bind (hd : Deed.Keeps I d) (hf : ∀ a, Deed.Keeps I (f a)) :
    Deed.Keeps I (d >>= f) := ensures_bind hd hf

/-- A call that needs a descriptor is a call like any other, or none at all. -/
theorem keeps_meetDescriptor (h : Deed.Keeps I meet) : Deed.Keeps I meetDescriptor := by
  unfold meetDescriptor
  refine keeps_bind keeps_get fun v => ?_
  split
  · exact keeps_pure
  · exact h

end Deed

namespace Op

variable {P P' E E' I : World → Prop} {op : Op α} {f : α → Op β} {R Q' : α → World → Prop}
  {Q : β → World → Prop} {T T' : Error → World → Prop}

/-! ### Answers and errors -/

theorem yields_ofExcept {outcome : Except Error α} (hok : ∀ a, outcome = .ok a → ∀ w, P w → R a w)
    (hfail : ∀ e, outcome = .error e → ∀ w, P w → T e w) :
    Op.Yields P (Op.ofExcept outcome) R T := by
  intro w hw
  cases outcome with
  | error e => exact hfail e rfl w hw
  | ok a => exact hok a rfl w hw

theorem yields_known_bind {outcome : Except Error α} {a : α} (h : outcome = .ok a)
    (hf : Op.Yields P (f a) Q T) : Op.Yields P (Op.ofExcept outcome >>= f) Q T := by
  subst h
  exact hf

/-- What is ensured can depend on the world at the start. -/
theorem yields_of_start (h : ∀ w, P w → Op.Yields (· = w) op R T) : Op.Yields P op R T :=
  fun w hw => h w hw w rfl

theorem yields_lift {d : Deed α} (h : Deed.Ensures P d R) : Op.Yields P (liftM d) R T := h

theorem yields_pure {a : α} (h : ∀ w, P w → R a w) : Op.Yields P (pure a) R T := h

theorem yields_throw {e : Error} (h : ∀ w, P w → T e w) : Op.Yields P (throw e) R T := h

theorem yields_bind (hop : Op.Yields P op R T) (hf : ∀ a, Op.Yields (R a) (f a) Q T) :
    Op.Yields P (op >>= f) Q T := by
  unfold Op.Yields
  rw [ExceptT.run_bind]
  refine Deed.ensures_bind hop fun outcome => ?_
  cases outcome with
  | error e => exact fun w hw => hw
  | ok a => exact hf a

/-- Nothing follows what has no answer. -/
theorem yields_bind_of_never (h : Op.Yields P op (fun _ _ => False) T) :
    Op.Yields P (op >>= f) Q T := yields_bind h fun _ _ hw => hw.elim

theorem yields_undoing {undo : Deed Unit} (hop : Op.Yields P op R T')
    (hundo : ∀ e, Deed.Ensures (T' e) undo fun _ => T e) : Op.Yields P (undoing undo op) R T := by
  unfold Op.Yields undoing
  simp only [tryCatch, tryCatchThe, MonadExceptOf.tryCatch, ExceptT.tryCatch]
  refine Deed.ensures_bind hop fun outcome => ?_
  cases outcome with
  | error e => exact yields_bind (yields_lift (hundo e)) fun _ => yields_throw fun _ hw => hw
  | ok a => exact fun w hw => hw

theorem yields_of_fact {fact : Prop} (h : fact → Op.Yields P op R T) :
    Op.Yields (fun w => fact ∧ P w) op R T := fun w hw => h hw.1 w hw.2

theorem Yields.mono (h : Op.Yields P op R T') (hbefore : ∀ w, P' w → P w)
    (hafter : ∀ a w, R a w → Q' a w) (hfail : ∀ e w, T' e w → T e w) : Op.Yields P' op Q' T := by
  refine Deed.Ensures.mono h hbefore fun outcome w => ?_
  cases outcome with
  | error e => exact hfail e w
  | ok a => exact hafter a w

/-- What is known of an operation for two reasons. -/
theorem Yields.and (h : Op.Yields P op R T) (h' : Op.Yields P' op Q' T') :
    Op.Yields (fun w => P w ∧ P' w) op (fun a w => R a w ∧ Q' a w)
      fun e w => T e w ∧ T' e w := by
  intro w hw
  have hboth := And.intro (h w hw.1) (h' w hw.2)
  generalize op.run.run w = course at hboth
  obtain ⟨e | a, after⟩ := course
  · exact hboth
  · exact hboth

theorem exists_of_isOk {w : World} (h : (op.run.run w).1.isOk = true) :
    ∃ a after, after = (op.run.run w).2 ∧ op.run.run w = (.ok a, after) := by
  rcases hcourse : op.run.run w with ⟨e | a, after⟩
  · rw [hcourse] at h
    cases h
  · exact ⟨a, after, rfl, rfl⟩

/-- An operation that cannot fail has an answer. -/
theorem Yields.exists_answer {w : World} (h : Op.Yields P op R fun _ _ => False) (hw : P w) :
    ∃ a after, op.run.run w = (.ok a, after) ∧ R a after := by
  have hrun := h w hw
  rcases hcourse : op.run.run w with ⟨e | a, after⟩
  · rw [hcourse] at hrun
    exact hrun.elim
  · rw [hcourse] at hrun
    exact ⟨a, after, rfl, hrun⟩

theorem Yields.exists_error {w : World} (h : Op.Yields P op (fun _ _ => False) T) (hw : P w) :
    ∃ e after, op.run.run w = (.error e, after) ∧ T e after := by
  have hrun := h w hw
  rcases hcourse : op.run.run w with ⟨e | a, after⟩
  · rw [hcourse] at hrun
    exact ⟨e, after, rfl, hrun⟩
  · rw [hcourse] at hrun
    exact hrun.elim

/-! ### Answers alone -/

theorem ensures_pure {a : α} (h : ∀ w, P w → R a w) : Op.Ensures P (pure a) R E := h

theorem ensures_throw {e : Error} (h : ∀ w, P w → E w) : Op.Ensures P (throw e) R E := h

theorem ensures_lift {d : Deed α} (h : Deed.Ensures P d R) : Op.Ensures P (liftM d) R E := h

theorem ensures_ofExcept {outcome : Except Error α} (hok : ∀ a, outcome = .ok a → ∀ w, P w → R a w)
    (hfail : ∀ w, P w → E w) : Op.Ensures P (Op.ofExcept outcome) R E := by
  intro w hw
  cases outcome with
  | error => exact hfail w hw
  | ok a => exact hok a rfl w hw

theorem ensures_bind (hop : Op.Ensures P op R E) (hf : ∀ a, Op.Ensures (R a) (f a) Q E) :
    Op.Ensures P (op >>= f) Q E := by
  have h : Op.Yields P op R fun _ => E := hop
  exact yields_bind h hf

/-- Nothing follows what fails. -/
theorem ensures_throw_bind {e : Error} (h : ∀ w, P w → E w) : Op.Ensures P (throw e >>= f) Q E :=
  fun w hw => h w hw

theorem ensures_undoing {undo : Deed Unit} (hop : Op.Ensures P op R E')
    (hundo : Deed.Ensures E' undo fun _ => E) : Op.Ensures P (undoing undo op) R E := by
  have h : Op.Yields P op R fun _ => E' := hop
  exact yields_undoing h fun _ => hundo

theorem ensures_of_fact {fact : Prop} (h : fact → Op.Ensures P op R E) :
    Op.Ensures (fun w => fact ∧ P w) op R E := fun w hw => h hw.1 w hw.2

theorem Ensures.mono (h : Op.Ensures P op R E') (hbefore : ∀ w, P' w → P w)
    (hafter : ∀ a w, R a w → Q' a w) (hfail : ∀ w, E' w → E w) : Op.Ensures P' op Q' E := by
  refine Deed.Ensures.mono h hbefore fun outcome w => ?_
  cases outcome with
  | error => exact hfail w
  | ok a => exact hafter a w

/-- Where it does not matter whether an operation fails, it is a deed like any other. -/
theorem Ensures.run (h : Op.Ensures P op (fun _ => E) E) : Deed.Ensures P op.run fun _ => E := by
  refine Deed.Ensures.mono h (fun _ hw => hw) fun outcome w hw => ?_
  cases outcome <;> exact hw

theorem Keeps.run (h : Op.Keeps I op) : Deed.Keeps I op.run := Ensures.run h

theorem keeps_pure {a : α} : Op.Keeps I (pure a) := ensures_pure fun _ hw => hw

theorem keeps_throw {e : Error} : Op.Keeps I (throw e : Op α) := ensures_throw fun _ hw => hw

theorem keeps_lift {d : Deed α} (h : Deed.Keeps I d) : Op.Keeps I (liftM d) := ensures_lift h

theorem keeps_ofExcept (outcome : Except Error α) : Op.Keeps I (Op.ofExcept outcome) :=
  ensures_ofExcept (fun _ _ _ hw => hw) fun _ hw => hw

theorem keeps_bind (hop : Op.Keeps I op) (hf : ∀ a, Op.Keeps I (f a)) : Op.Keeps I (op >>= f) :=
  ensures_bind hop hf

end Op
end RtuStation
