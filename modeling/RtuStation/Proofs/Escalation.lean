import RtuStation.Proofs.Calls
import RtuStation.Proofs.Scores

/-!
# Guards that have given up

A guard holds its semaphore as long as it has taken it once more than it has tried to give it back,
and its score moves with the waits that were answered and with nothing else. The timeout that brings
the score to the maximum is answered with an escalation. From then on the guard holds nothing, it
does not touch the semaphore, and every acquisition is answered in the same way.
-/

namespace RtuStation

namespace Health

variable {h : Health}

theorem state_ne_fatal_succeed (hstate : h.state ≠ .fatal) : h.succeed.state ≠ .fatal := by
  have hsucceed : h.succeed = { h with value := h.value - h.successDecrement } := by
    rw [succeed, if_neg hstate]
  rw [Ne, state_eq_fatal_iff] at hstate
  rw [hsucceed, Ne, state_eq_fatal_iff]
  show ¬(h.value - h.successDecrement ≠ 0 ∧ h.maximum ≤ h.value - h.successDecrement)
  omega

theorem maximum_record (h : Health) (e : HealthEvent) : (h.record e).maximum = h.maximum := by
  cases e with
  | failure => rfl
  | success =>
    show h.succeed.maximum = h.maximum
    unfold succeed
    split <;> rfl

theorem value_record_le (e : HealthEvent) (hle : h.value ≤ h.maximum) :
    (h.record e).value ≤ h.maximum := by
  cases e with
  | failure => exact Nat.min_le_right _ _
  | success =>
    show h.succeed.value ≤ h.maximum
    unfold succeed
    split
    · exact hle
    · exact Nat.le_trans (Nat.sub_le _ _) hle

end Health

namespace Guard

variable {start g g' : Guard} {w after : World} {outcome : Except Error Acquisition}
  {journal : List Entry}

/-! ### One call -/

/-- The journal has one token taken and not yet posted for a guard that holds it, and else none. -/
def Balanced (g : Guard) (journal : List Entry) : Prop :=
  journal.count (.wait g.semaphore.object true) =
    journal.count (.post g.semaphore.object) + g.held.toNat

theorem Acquires.balanced (h : g.Acquires w outcome g' after) (hbalanced : g.Balanced w.journal) :
    g'.Balanced after.journal := by
  unfold Balanced at hbalanced ⊢
  rw [h.semaphore]
  rcases h.frame.2 with ⟨hjournal, hheld⟩ | ⟨hfree, hjournal⟩
  · rw [hjournal, hheld]
    exact hbalanced
  · rw [hfree] at hbalanced
    rw [hjournal]
    cases g'.held <;> simp [hbalanced]

theorem balanced_of_release {outcome : Except Error Unit}
    (hrun : g.release.run w = ((outcome, g'), after)) (hbalanced : g.Balanced w.journal) :
    g'.Balanced after.journal := by
  obtain ⟨result, released, hrelease, -, hjournal⟩ := g.release_cases w
  rw [hrelease] at hrun
  cases hrun
  unfold Balanced at hbalanced ⊢
  rw [hjournal, returns]
  cases hheld : g.held with
  | false =>
    rw [hheld] at hbalanced
    exact hbalanced
  | true =>
    rw [hheld] at hbalanced
    simp [hbalanced]

theorem Acquires.policy (h : g.Acquires w outcome g' after) : g'.policy = g.policy := by
  cases h <;> rfl

/-- The score moves with a wait of the call's own that was answered, and with nothing else. -/
theorem Acquires.health (h : g.Acquires w outcome g' after) :
    g'.health = g.health ∨
      ∃ taken waited, g.held = false ∧ g.semaphore.wait.run.run w = (.ok taken, waited) ∧
        after.journal = .wait g.semaphore.object taken :: w.journal ∧
        g'.health = g.health.record (if taken then .success else .failure) := by
  cases h with
  | escalated | held | failed => exact .inl rfl
  | taken _ hfree hwait => exact .inr ⟨true, _, hfree, hwait, (Semaphore.wait_frame hwait).2, rfl⟩
  | missed _ hfree hwait =>
    exact .inr ⟨false, _, hfree, hwait, (Semaphore.wait_frame hwait).2, rfl⟩

theorem Acquires.maximum_health (h : g.Acquires w outcome g' after) :
    g'.health.maximum = g.health.maximum := by
  rcases h.health with hhealth | ⟨taken, waited, -, -, -, hhealth⟩
  · rw [hhealth]
  · rw [hhealth, Health.maximum_record]

theorem Acquires.value_health_le (h : g.Acquires w outcome g' after)
    (hle : g.health.value ≤ g.health.maximum) : g'.health.value ≤ g.health.maximum := by
  rcases h.health with hhealth | ⟨taken, waited, -, -, -, hhealth⟩
  · rw [hhealth]
    exact hle
  · rw [hhealth]
    exact Health.value_record_le _ hle

theorem Acquires.free (h : g.Acquires w outcome g' after)
    (hfree : g.state = .fatal → g.held = false) : g'.state = .fatal → g'.held = false := by
  cases h with
  | escalated | held | failed => exact hfree
  | taken hstate => exact fun hfatal => absurd hfatal (Health.state_ne_fatal_succeed hstate)
  | missed _ hheld => exact fun _ => hheld

/-! ### Calls one after another -/

inductive Made : Guard → Prop
  | created {text : String} {force : Bool} {policy : GuardPolicy} {g : Guard} {w after : World} :
      (create text force policy).run.run w = (.ok g, after) → Made g
  | joined {text : String} {policy : GuardPolicy} {g : Guard} {w after : World} :
      (join text policy).run.run w = (.ok g, after) → Made g

theorem Made.fresh (h : Made g) :
    ∃ semaphore policy, policy.check = .ok () ∧ g = ofSemaphore semaphore policy := by
  cases h with
  | @created text force policy _ w after hrun =>
    obtain ⟨_, checked, hcheck, hrun⟩ := Op.of_run_bind hrun
    obtain ⟨semaphore, made, _, hrun⟩ := Op.of_run_bind hrun
    obtain ⟨_, reported, _, hrun⟩ := Op.of_run_bind hrun
    cases hrun
    exact ⟨semaphore, policy, (Op.of_run_ofExcept hcheck).1, rfl⟩
  | @joined text policy _ w after hrun =>
    obtain ⟨_, checked, hcheck, hrun⟩ := Op.of_run_bind hrun
    obtain ⟨semaphore, opened, _, hrun⟩ := Op.of_run_bind hrun
    cases hrun
    exact ⟨semaphore, policy, (Op.of_run_ofExcept hcheck).1, rfl⟩

/-- Calls to a guard, each in a world of its own, with the journal of these calls. Others may have
done anything between two calls but enter something in the journal. -/
inductive Called (start : Guard) : Guard → List Entry → Prop
  | nothing : Called start start []
  | tryAcquire {g g' : Guard} {w after : World} {outcome : Except Error Acquisition} :
      Called start g w.journal → g.tryAcquire.run w = ((outcome, g'), after) →
        Called start g' after.journal
  | release {g g' : Guard} {w after : World} {outcome : Except Error Unit} :
      Called start g w.journal → g.release.run w = ((outcome, g'), after) →
        Called start g' after.journal

/-- What calls keep: the semaphore and the policy, the score within its bounds, no token held by a
guard that has given up, and the balance of waits and posts. -/
structure Kept (start g : Guard) (journal : List Entry) : Prop where
  semaphore : g.semaphore = start.semaphore
  policy : g.policy = start.policy
  maximum : g.health.maximum = g.policy.maximum
  value_le : g.health.value ≤ g.policy.maximum
  free : g.state = .fatal → g.held = false
  balanced : g.Balanced journal

theorem kept_of_fresh {semaphore : Semaphore} {policy : GuardPolicy} :
    (ofSemaphore semaphore policy).Kept (ofSemaphore semaphore policy) [] :=
  ⟨rfl, rfl, rfl, Nat.zero_le _, fun _ => rfl, rfl⟩

theorem Acquires.kept (h : g.Acquires w outcome g' after) (hkept : start.Kept g w.journal) :
    start.Kept g' after.journal where
  semaphore := h.semaphore.trans hkept.semaphore
  policy := h.policy.trans hkept.policy
  maximum := by
    rw [h.maximum_health, h.policy]
    exact hkept.maximum
  value_le := by
    have hle := hkept.value_le
    rw [← hkept.maximum] at hle
    rw [h.policy, ← hkept.maximum]
    exact h.value_health_le hle
  free := h.free hkept.free
  balanced := h.balanced hkept.balanced

theorem kept_of_release {outcome : Except Error Unit}
    (hrun : g.release.run w = ((outcome, g'), after)) (hkept : start.Kept g w.journal) :
    start.Kept g' after.journal := by
  have hbalanced := balanced_of_release hrun hkept.balanced
  obtain ⟨result, released, hrelease, -, -⟩ := g.release_cases w
  rw [hrelease] at hrun
  cases hrun
  exact ⟨hkept.semaphore, hkept.policy, hkept.maximum, hkept.value_le, fun _ => rfl, hbalanced⟩

theorem kept_of_called (hmade : Made start) (hcalled : start.Called g journal) :
    start.Kept g journal := by
  induction hcalled with
  | nothing =>
    obtain ⟨semaphore, policy, -, rfl⟩ := hmade.fresh
    exact kept_of_fresh
  | tryAcquire _ hrun ih => exact (acquires_of_run hrun).kept ih
  | release _ hrun ih => exact kept_of_release hrun ih

/-- A guard that has given up has the score of the maximum. -/
theorem Kept.fatal_iff (h : start.Kept g journal) (hpos : 0 < g.policy.maximum) :
    g.state = .fatal ↔ g.health.value = g.policy.maximum := by
  have hmaximum := h.maximum
  have hle := h.value_le
  unfold state
  rw [Health.state_eq_fatal_iff]
  omega

theorem maximum_pos_of_called (hmade : Made start) (hcalled : start.Called g journal) :
    0 < g.policy.maximum := by
  obtain ⟨semaphore, policy, hcheck, hfresh⟩ := hmade.fresh
  rw [(kept_of_called hmade hcalled).policy, hfresh]
  exact GuardPolicy.maximum_pos_of_check hcheck

/-- An acquisition that ends with the score at the maximum is answered with an escalation. -/
theorem Acquires.escalates (h : g.Acquires w outcome g' after) (hfatal : g'.state = .fatal) :
    outcome = .error (.guardEscalated g.name) := by
  cases h with
  | escalated => rfl
  | held hstate | failed hstate => exact absurd hfatal hstate
  | taken hstate => exact absurd hfatal (Health.state_ne_fatal_succeed hstate)
  | missed => exact if_pos hfatal

theorem called_of_fatal (hfatal : g.state = .fatal) (hfree : g.held = false)
    (hcalled : g.Called g' journal) : g' = g ∧ journal = [] := by
  induction hcalled with
  | nothing => exact ⟨rfl, rfl⟩
  | tryAcquire _ hrun ih =>
    obtain ⟨rfl, hjournal⟩ := ih
    rw [tryAcquire_of_fatal hfatal] at hrun
    cases hrun
    exact ⟨rfl, hjournal⟩
  | release _ hrun ih =>
    obtain ⟨rfl, hjournal⟩ := ih
    rw [release_of_free hfree] at hrun
    cases hrun
    exact ⟨rfl, hjournal⟩

/-- Whatever waits and posts come to, a guard holds its semaphore if and only if it has taken it
once more than it has tried to give it back, and no guard at its maximum holds it. Only an answered
wait moves the score, and an acquisition that brings it to the maximum, or finds it there, is
answered with an escalation. From then on calls do nothing at all. -/
theorem escalated_guard_is_inert (hmade : Made start) (hcalled : start.Called g journal) :
    (g.held = true ↔ journal.count (.post start.semaphore.object) <
        journal.count (.wait start.semaphore.object true)) ∧
      journal.count (.wait start.semaphore.object true) ≤
        journal.count (.post start.semaphore.object) + 1 ∧
      (g.state = .fatal ↔ g.health.value = g.policy.maximum) ∧
      (g.state = .fatal → g.held = false) ∧
      (∀ w outcome g' after, g.tryAcquire.run w = ((outcome, g'), after) →
        (g'.health = g.health ∨
          ∃ taken waited, g.held = false ∧ g.semaphore.wait.run.run w = (.ok taken, waited) ∧
            after.journal = .wait g.semaphore.object taken :: w.journal ∧
            g'.health = g.health.record (if taken then .success else .failure)) ∧
        (g'.health.value = g.policy.maximum → outcome = .error (.guardEscalated g.name))) ∧
      (∀ w outcome g' after, g.release.run w = ((outcome, g'), after) → g'.health = g.health) ∧
      (g.state = .fatal → ∀ g' later, g.Called g' later →
        g' = g ∧ later = [] ∧
          ∀ w, g'.tryAcquire.run w = ((.error (.guardEscalated g.name), g), w)) := by
  have hkept := kept_of_called hmade hcalled
  have hpos := maximum_pos_of_called hmade hcalled
  have hbalanced := hkept.balanced
  rw [Balanced, hkept.semaphore] at hbalanced
  have hheld : g.held.toNat ≤ 1 := g.held.toNat_le
  refine ⟨?_, by omega, hkept.fatal_iff hpos, hkept.free, ?_, ?_, ?_⟩
  · rw [← Bool.toNat_eq_one]
    omega
  · intro w outcome g' after hrun
    have hacquires := acquires_of_run hrun
    refine ⟨hacquires.health, ?_⟩
    intro hvalue
    apply hacquires.escalates
    unfold state
    rw [Health.state_eq_fatal_iff, hacquires.maximum_health, hkept.maximum]
    omega
  · intro w outcome g' after hrun
    obtain ⟨result, released, hrelease, -, -⟩ := g.release_cases w
    rw [hrelease] at hrun
    cases hrun
    rfl
  · intro hfatal g' later hlater
    obtain ⟨rfl, rfl⟩ := called_of_fatal hfatal (hkept.free hfatal) hlater
    exact ⟨rfl, rfl, fun w => tryAcquire_of_fatal hfatal⟩

/-! A guard that gives up after one failure takes the token and fails to give it back, so that the
next wait is in vain. -/

def hasty : Guard := ofSemaphore ⟨0, "/guard", ⟨"/guard"⟩, true⟩ { maximum := 10 }

def hastyWorld : World := ((create "/guard" false { maximum := 10 }).run.run {}).2

def hastyHolding : Guard × World :=
  let ((_, g), w) := hasty.tryAcquire.run hastyWorld
  (g, { w with agenda := [{ fault := some .invalid }] })

def hastyReleased : Guard × World :=
  let ((_, g), w) := hastyHolding.1.release.run hastyHolding.2
  (g, w)

def hastyEscalated : Guard × World :=
  let ((_, g), w) := hastyReleased.1.tryAcquire.run hastyReleased.2
  (g, w)

theorem called_hasty : hasty.Called hastyEscalated.1 hastyEscalated.2.journal := by
  have htaken : hasty.Called hastyHolding.1 hastyHolding.2.journal :=
    @Called.tryAcquire _ _ _ hastyWorld (hasty.tryAcquire.run hastyWorld).2 _ .nothing rfl
  have hreleased : hasty.Called hastyReleased.1 hastyReleased.2.journal := .release htaken rfl
  exact .tryAcquire hreleased rfl

theorem hasty_guard_gives_up :
    hastyEscalated.2.journal = [.wait 0 false, .post 0, .wait 0 true] ∧
      hastyEscalated.1.held = false ∧
      ∀ w, hastyEscalated.1.tryAcquire.run w =
        ((.error (.guardEscalated "/guard"), hastyEscalated.1), w) := by
  have hmade : Made hasty := @Made.created "/guard" false { maximum := 10 } hasty {} hastyWorld rfl
  have hfatal : hastyEscalated.1.state = .fatal := rfl
  obtain ⟨-, -, -, hfree, -, -, hinert⟩ := escalated_guard_is_inert hmade called_hasty
  exact ⟨rfl, hfree hfatal, (hinert hfatal _ _ .nothing).2.2⟩

end Guard
end RtuStation
