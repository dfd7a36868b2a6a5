import RtuStation.Proofs.Contention

/-!
# How waits and posts end

A wait for a semaphore takes a token, finds none, or fails; a post gives one back or fails. Whatever
the surroundings do meanwhile, each leaves one entry in the journal, and the segments and the lines
are as they were. A guard waits once for an acquisition, if at all, and posts once to give back.
-/

namespace RtuStation

/-- What calls on semaphores leave alone. -/
structure World.Unmoved (w after : World) : Prop where
  segments : after.segments = w.segments
  lines : after.lines = w.lines

theorem World.Unmoved.refl (w : World) : w.Unmoved w := ⟨rfl, rfl⟩

theorem meet_run (w : World) :
    meet.run w = match w.agenda with
      | [] => (none, w)
      | happening :: later => (happening.fault, w.pass happening later) := by
  cases ha : w.agenda with
  | nil =>
    simp only [meet, StateT.run_bind, StateT.run_get, pure_bind, ha]
    rfl
  | cons happening later =>
    simp only [meet, StateT.run_bind, StateT.run_get, pure_bind, ha]
    rfl

theorem meet_unmoved {w met : World} {fault : Option Errno} (h : meet.run w = (fault, met)) :
    w.Unmoved met ∧ met.journal = w.journal := by
  rw [meet_run] at h
  split at h
  · cases h
    exact ⟨.refl w, rfl⟩
  · cases h
    exact ⟨⟨rfl, rfl⟩, rfl⟩

namespace Semaphore

theorem take_of_fault {s : Semaphore} {w met : World} {e : Errno} (call : String)
    (hmeet : meet.run w = (some e, met)) :
    (s.take call).run.run w =
      (.error (.system (call ++ " " ++ quoted s.name) (.system e)),
        ((enter (.wait s.object false)).run met).2) := by
  refine (Op.run_bind (Op.run_lift hmeet)).trans ?_
  exact (Op.run_bind rfl).trans rfl

theorem post_of_fault {s : Semaphore} {w met : World} {e : Errno}
    (hmeet : meet.run ((enter (.post s.object)).run w).2 = (some e, met)) :
    s.post.run.run w = (.error (.system ("sem_post " ++ quoted s.name) (.system e)), met) := by
  refine (Op.run_bind (Op.run_lift rfl)).trans ?_
  exact (Op.run_bind (Op.run_lift hmeet)).trans rfl

theorem post_of_full {s : Semaphore} {w met : World}
    (hmeet : meet.run ((enter (.post s.object)).run w).2 = (none, met))
    (hfull : maxCount ≤ s.count met) :
    s.post.run.run w =
      (.error (.system ("sem_post " ++ quoted s.name) (.system .overflow)), met) := by
  refine (Op.run_bind (Op.run_lift rfl)).trans ?_
  refine (Op.run_bind (Op.run_lift hmeet)).trans ?_
  refine (Op.run_bind rfl).trans ?_
  simp only [hfull, if_true]
  rfl

theorem wait_frame {s : Semaphore} {w after : World} {result : Except Error Bool}
    (h : s.wait.run.run w = (result, after)) :
    w.Unmoved after ∧
      after.journal = .wait s.object (result.toOption.getD false) :: w.journal := by
  rcases hmeet : meet.run w with ⟨fault, met⟩
  obtain ⟨hunmoved, hjournal⟩ := meet_unmoved hmeet
  cases fault with
  | some e =>
    have hwait : s.wait.run.run w = _ := take_of_fault "sem_timedwait" hmeet
    rw [hwait] at h
    cases h
    exact ⟨⟨hunmoved.segments, hunmoved.lines⟩, congrArg _ hjournal⟩
  | none =>
    have hwait : s.wait.run.run w = _ := take_of_pass "sem_timedwait" hmeet
    rw [hwait] at h
    split at h
    all_goals
      cases h
      exact ⟨⟨hunmoved.segments, hunmoved.lines⟩, congrArg _ hjournal⟩

theorem post_cases (s : Semaphore) (w : World) :
    ∃ result after, s.post.run.run w = (result, after) ∧ w.Unmoved after ∧
      after.journal = .post s.object :: w.journal := by
  rcases hmeet : meet.run ((enter (.post s.object)).run w).2 with ⟨fault, met⟩
  obtain ⟨hunmoved, hjournal⟩ := meet_unmoved hmeet
  have hkept : w.Unmoved met := ⟨hunmoved.segments, hunmoved.lines⟩
  cases fault with
  | some e => exact ⟨_, _, post_of_fault hmeet, hkept, hjournal⟩
  | none =>
    by_cases hfull : maxCount ≤ s.count met
    · exact ⟨_, _, post_of_full hmeet hfull, hkept, hjournal⟩
    · exact ⟨_, _, post_of_pass hmeet (Nat.lt_of_not_le hfull), ⟨hkept.segments, hkept.lines⟩,
        hjournal⟩

end Semaphore

namespace Guard

variable {g : Guard} {w after : World}

theorem tryAcquire_of_fatal (h : g.state = .fatal) :
    g.tryAcquire.run w = ((.error (.guardEscalated g.name), g), w) := by
  unfold tryAcquire
  simp only [h, if_true]
  rfl

theorem tryAcquire_of_held (hstate : g.state ≠ .fatal) (hheld : g.held = true) :
    g.tryAcquire.run w = ((.ok .acquired, g), w) := by
  unfold tryAcquire
  simp only [hstate, if_false, hheld, if_true]
  rfl

theorem tryAcquire_of_error {e : Error} (hstate : g.state ≠ .fatal) (hfree : g.held = false)
    (hwait : g.semaphore.wait.run.run w = (.error e, after)) :
    g.tryAcquire.run w = ((.error e, g), after) := by
  unfold tryAcquire
  simp only [hstate, hfree, if_false, Bool.false_eq_true]
  exact Deed.run_bind hwait

theorem tryAcquire_of_vain (hstate : g.state ≠ .fatal) (hfree : g.held = false)
    (hwait : g.semaphore.wait.run.run w = (.ok false, after)) :
    g.tryAcquire.run w =
      ((if g.health.fail.state = .fatal then .error (.guardEscalated g.name) else .ok .timedOut,
          { g with health := g.health.fail }),
        ((report (.notAcquired g.name g.policy.timeoutMs)).run after).2) := by
  by_cases hfail : g.health.fail.state = .fatal
  · rw [if_pos hfail]
    obtain ⟨semaphore, policy, health, held⟩ := g
    obtain rfl : held = false := hfree
    have hafter : ({ semaphore, policy, health := health.fail } : Guard).state = .fatal := hfail
    unfold tryAcquire
    simp only [hstate, if_false, Bool.false_eq_true]
    refine (Deed.run_bind hwait).trans ?_
    refine (Deed.run_bind rfl).trans ?_
    simp only [hafter, if_true]
    rfl
  · rw [if_neg hfail]
    exact tryAcquire_of_missed hstate hfree hwait hfail

theorem release_of_free (h : g.held = false) : g.release.run w = ((.ok (), g), w) := by
  unfold release
  simp only [h, Bool.not_false, if_true]
  rfl

theorem release_of_held {result : Except Error Unit} (h : g.held = true)
    (hpost : g.semaphore.post.run.run w = (result, after)) :
    g.release.run w = ((result, { g with held := false }), after) := by
  unfold release
  simp only [h, Bool.not_true, Bool.false_eq_true, if_false]
  exact Deed.run_bind hpost

/-- The ways through an acquisition. -/
inductive Acquires (g : Guard) (w : World) : Except Error Acquisition → Guard → World → Prop
  | escalated : g.state = .fatal → Acquires g w (.error (.guardEscalated g.name)) g w
  | held : g.state ≠ .fatal → g.held = true → Acquires g w (.ok .acquired) g w
  | failed {e : Error} {waited : World} :
      g.state ≠ .fatal → g.held = false → g.semaphore.wait.run.run w = (.error e, waited) →
        Acquires g w (.error e) g waited
  | taken {waited : World} :
      g.state ≠ .fatal → g.held = false → g.semaphore.wait.run.run w = (.ok true, waited) →
        Acquires g w (.ok .acquired) { g with held := true, health := g.health.succeed } waited
  | missed {waited : World} :
      g.state ≠ .fatal → g.held = false → g.semaphore.wait.run.run w = (.ok false, waited) →
        Acquires g w
          (if g.health.fail.state = .fatal then .error (.guardEscalated g.name) else .ok .timedOut)
          { g with health := g.health.fail }
          ((report (.notAcquired g.name g.policy.timeoutMs)).run waited).2

variable {g' : Guard} {outcome : Except Error Acquisition}

theorem acquires_of_run (h : g.tryAcquire.run w = ((outcome, g'), after)) :
    g.Acquires w outcome g' after := by
  by_cases hstate : g.state = .fatal
  · rw [tryAcquire_of_fatal hstate] at h
    cases h
    exact .escalated hstate
  cases hheld : g.held with
  | true =>
    rw [tryAcquire_of_held hstate hheld] at h
    cases h
    exact .held hstate hheld
  | false =>
    rcases hwait : g.semaphore.wait.run.run w with ⟨_ | _ | _, waited⟩
    · rw [tryAcquire_of_error hstate hheld hwait] at h
      cases h
      exact .failed hstate hheld hwait
    · rw [tryAcquire_of_vain hstate hheld hwait] at h
      cases h
      exact .missed hstate hheld hwait
    · rw [tryAcquire_of_taken hstate hheld hwait] at h
      cases h
      exact .taken hstate hheld hwait

/-- An acquisition waits once or not at all, and what the guard holds changes with the wait alone. -/
theorem Acquires.frame (h : g.Acquires w outcome g' after) :
    w.Unmoved after ∧ (after.journal = w.journal ∧ g'.held = g.held ∨
      g.held = false ∧ after.journal = .wait g.semaphore.object g'.held :: w.journal) := by
  cases h with
  | escalated | held => exact ⟨.refl w, .inl ⟨rfl, rfl⟩⟩
  | failed _ hfree hwait =>
    obtain ⟨hunmoved, hjournal⟩ := Semaphore.wait_frame hwait
    rw [hfree]
    exact ⟨hunmoved, .inr ⟨rfl, hjournal⟩⟩
  | taken _ hfree hwait =>
    obtain ⟨hunmoved, hjournal⟩ := Semaphore.wait_frame hwait
    exact ⟨hunmoved, .inr ⟨hfree, hjournal⟩⟩
  | missed _ hfree hwait =>
    obtain ⟨hunmoved, hjournal⟩ := Semaphore.wait_frame hwait
    refine ⟨⟨hunmoved.segments, hunmoved.lines⟩, .inr ⟨hfree, ?_⟩⟩
    show _ = .wait g.semaphore.object g.held :: w.journal
    rw [hfree]
    exact hjournal

theorem Acquires.semaphore (h : g.Acquires w outcome g' after) : g'.semaphore = g.semaphore := by
  cases h <;> rfl

/-- An acquisition by a guard that holds nothing fails, and the guard still holds nothing, or it is
answered, and the guard holds the semaphore if and only if it was acquired. -/
theorem Acquires.cases_of_free (h : g.Acquires w outcome g' after) (hfree : g.held = false) :
    (∃ e, outcome = .error e) ∧ g'.held = false ∨
      ∃ acquisition, outcome = .ok acquisition ∧ (acquisition = .acquired ↔ g'.held = true) ∧
        after.journal = .wait g.semaphore.object g'.held :: w.journal := by
  cases h with
  | escalated | failed => exact .inl ⟨⟨_, rfl⟩, hfree⟩
  | held _ hheld => exact absurd hheld (by rw [hfree]; decide)
  | taken _ _ hwait => exact .inr ⟨_, rfl, by simp, (Semaphore.wait_frame hwait).2⟩
  | missed _ _ hwait =>
    by_cases hfail : g.health.fail.state = .fatal
    · rw [if_pos hfail]
      exact .inl ⟨⟨_, rfl⟩, hfree⟩
    · rw [if_neg hfail]
      refine .inr ⟨_, rfl, by simp [hfree], ?_⟩
      show _ = .wait g.semaphore.object g.held :: w.journal
      rw [hfree]
      exact (Semaphore.wait_frame hwait).2

/-- What giving back enters in the journal. -/
def returns (g : Guard) : List Entry := if g.held then [.post g.semaphore.object] else []

theorem release_cases (g : Guard) (w : World) :
    ∃ outcome after, g.release.run w = ((outcome, { g with held := false }), after) ∧
      w.Unmoved after ∧ after.journal = g.returns ++ w.journal := by
  cases hheld : g.held with
  | false =>
    refine ⟨.ok (), w, ?_, .refl w, ?_⟩
    · rw [release_of_free hheld, ← hheld]
    · simp [returns, hheld]
  | true =>
    obtain ⟨result, after, hpost, hunmoved, hjournal⟩ := g.semaphore.post_cases w
    refine ⟨result, after, release_of_held hheld hpost, hunmoved, ?_⟩
    simp [returns, hheld, hjournal]

end Guard
end RtuStation
