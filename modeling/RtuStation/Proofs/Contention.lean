import RtuStation.Guard

/-!
# Guards under contention

Others who use the semaphore of a guard take and post it while the guard waits for it or gives it
back. `Contention` is what they bear on; `outcomes` tells from it how acquisitions turn out that are
each followed by giving back. Any pattern of outcomes comes up under some contention.

A guard *bears* its outcomes if none of them brings its score to the maximum and no call fails. Then
each attempt to acquire is answered, in time or not, and giving back succeeds.
-/

namespace RtuStation

/-- The semaphores, and what the surroundings do to them at the next calls. -/
structure Contention where
  semaphores : Registry Nat
  agenda : List Happening

def World.contention (w : World) : Contention := ⟨w.semaphores, w.agenda⟩

namespace Contention

def next (c : Contention) : Contention :=
  match c.agenda with
  | [] => c
  | happening :: later => ⟨c.semaphores.bring? happening.brings, later⟩

def count (c : Contention) (object : Nat) : Nat := (c.semaphores.get? object).getD 0

def taken (c : Contention) (object : Nat) : Contention :=
  { c with semaphores := c.semaphores.modify object fun n => n - 1 }

def posted (c : Contention) (object : Nat) : Contention :=
  { c with semaphores := c.semaphores.modify object fun n => n + 1 }

def outcomes (object : Nat) : Nat → Contention → List Acquisition
  | 0, _ => []
  | n + 1, c =>
    if c.next.count object = 0 then .timedOut :: outcomes object n c.next
    else .acquired :: outcomes object n ((c.next.taken object).next.posted object)

theorem count_taken (c : Contention) (object : Nat) :
    (c.taken object).count object = c.count object - 1 := by
  simp only [count, taken, Registry.get?_modify_self]
  cases c.semaphores.get? object <;> rfl

theorem count_posted_le (c : Contention) (object : Nat) :
    (c.posted object).count object ≤ c.count object + 1 := by
  simp only [count, posted, Registry.get?_modify_self]
  cases c.semaphores.get? object with
  | none => exact Nat.zero_le _
  | some n => exact Nat.le_refl _

/-- A semaphore that others do not bring above a bound stays within it. -/
theorem count_next_le {c : Contention} {object bound : Nat} (h : c.count object ≤ bound)
    (hbrings : ∀ happening ∈ c.agenda, ∀ n, happening.brings = some (object, n) → n ≤ bound) :
    c.next.count object ≤ bound := by
  obtain ⟨semaphores, agenda⟩ := c
  cases agenda with
  | nil => exact h
  | cons happening later =>
    have hfirst := hbrings happening (List.mem_cons_self ..)
    simp only [next, count] at h ⊢
    cases hb : happening.brings with
    | none => exact h
    | some brought =>
      obtain ⟨number, n⟩ := brought
      simp only [Registry.bring?]
      by_cases heq : number = object
      · subst heq
        rw [Registry.get?_modify_self]
        have hn := hfirst n hb
        cases hs : semaphores.get? number with
        | none => exact Nat.zero_le _
        | some old => exact hn
      · rw [Registry.get?_modify_of_ne semaphores _ heq]
        exact h

theorem mem_agenda_next {c : Contention} {happening : Happening} (h : happening ∈ c.next.agenda) :
    happening ∈ c.agenda := by
  obtain ⟨semaphores, agenda⟩ := c
  cases agenda with
  | nil => exact h
  | cons first later => exact List.mem_cons_of_mem first h

end Contention

/-- What others do so that an acquisition turns out in one way or the other. -/
def Acquisition.causes (object : Nat) : Acquisition → List Happening
  | .acquired => [{ brings := some (object, 1) }, {}]
  | .timedOut => [{ brings := some (object, 0) }]

/-- Every pattern of outcomes comes up: others who bring the semaphore to one or to zero while it is
waited for have acquisitions turn out as they like. -/
theorem outcomes_causes {object : Nat} {semaphores : Registry Nat} (pattern : List Acquisition)
    (h : (semaphores.get? object).isSome) :
    Contention.outcomes object pattern.length
      ⟨semaphores, pattern.flatMap (Acquisition.causes object)⟩ = pattern := by
  induction pattern generalizing semaphores with
  | nil => rfl
  | cons outcome pattern ih =>
    have hstays (f : Nat → Nat) {r : Registry Nat} (hr : (r.get? object).isSome) :
        ((r.modify object f).get? object).isSome := by
      rw [Registry.get?_modify_self, Option.isSome_map]
      exact hr
    cases outcome with
    | acquired =>
      have hone : (semaphores.modify object fun _ => 1).get? object = some 1 := by
        obtain ⟨old, hold⟩ := Option.isSome_iff_exists.mp h
        rw [Registry.get?_modify_self, hold]
        rfl
      have hcount : ¬((semaphores.modify object fun _ => 1).get? object).getD 0 = 0 := by
        rw [hone]
        decide
      -- brought to one, taken off and posted again
      exact (if_neg hcount).trans (congrArg _ (ih (hstays _ (hstays _ (hstays _ h)))))
    | timedOut =>
      have hcount : ((semaphores.modify object fun _ => 0).get? object).getD 0 = 0 := by
        obtain ⟨old, hold⟩ := Option.isSome_iff_exists.mp h
        rw [Registry.get?_modify_self, hold]
        rfl
      exact (if_pos hcount).trans (congrArg _ (ih (hstays _ h)))

/-! ### Calls that the surroundings let pass -/

structure World.Kept (cancel : Nat) (w after : World) : Prop where
  segments : after.segments = w.segments
  lines : after.lines = w.lines
  exhausted : after.exhausted = w.exhausted
  calm : w.flags.raised cancel = false → after.flags.raised cancel = false

theorem World.Kept.trans {cancel : Nat} {w v u : World} (h : w.Kept cancel v) (h' : v.Kept cancel u) :
    w.Kept cancel u where
  segments := h'.segments.trans h.segments
  lines := h'.lines.trans h.lines
  exhausted := h'.exhausted.trans h.exhausted
  calm := fun hcalm => h'.calm (h.calm hcalm)

/-- The surroundings let calls pass and do not raise the flag `cancel`. -/
def Calm (cancel : Nat) (agenda : List Happening) : Prop :=
  ∀ happening ∈ agenda, happening.fault = none ∧ happening.raises ≠ some cancel

theorem meet_of_calm {cancel : Nat} {w : World} (h : Calm cancel w.agenda) :
    ∃ after, meet.run w = (none, after) ∧ after.contention = w.contention.next ∧
      w.Kept cancel after := by
  cases ha : w.agenda with
  | nil =>
    refine ⟨w, ?_, ?_, rfl, rfl, rfl, id⟩
    · simp only [meet, StateT.run_bind, StateT.run_get, pure_bind, ha]
      rfl
    · simp only [World.contention, Contention.next, ha]
  | cons happening later =>
    obtain ⟨hfault, hraises⟩ := h happening (by rw [ha]; exact List.mem_cons_self ..)
    refine ⟨w.pass happening later, ?_, ?_, rfl, rfl, rfl, ?_⟩
    · simp only [meet, StateT.run_bind, StateT.run_get, pure_bind, ha, hfault]
      rfl
    · simp only [World.contention, Contention.next, ha]
      rfl
    · exact fun hcalm => Flags.calm_raise? hcalm hraises

namespace Semaphore

theorem take_of_pass {s : Semaphore} {w met : World} (call : String)
    (hmeet : meet.run w = (none, met)) :
    (s.take call).run.run w =
      if s.count met = 0 then (.ok false, ((enter (.wait s.object false)).run met).2)
      else (.ok true, { ((enter (.wait s.object true)).run met).2 with
        semaphores := met.semaphores.modify s.object fun n => n - 1 }) := by
  refine (Op.run_bind (Op.run_lift hmeet)).trans ?_
  refine (Op.run_bind rfl).trans ?_
  by_cases hcount : s.count met = 0
  · simp only [hcount, if_true, ne_eq, not_true, decide_false]
    rfl
  · simp only [hcount, if_false, ne_eq, not_false_eq_true, decide_true]
    rfl

theorem post_of_pass {s : Semaphore} {w met : World}
    (hmeet : meet.run ((enter (.post s.object)).run w).2 = (none, met))
    (hroom : s.count met < maxCount) :
    s.post.run.run w =
      (.ok (), { met with semaphores := met.semaphores.modify s.object fun n => n + 1 }) := by
  refine (Op.run_bind (Op.run_lift rfl)).trans ?_
  refine (Op.run_bind (Op.run_lift hmeet)).trans ?_
  refine (Op.run_bind rfl).trans ?_
  simp only [Nat.not_le.mpr hroom, if_false]
  rfl

theorem wait_of_zero {cancel : Nat} {s : Semaphore} {w : World} (h : Calm cancel w.agenda)
    (hcount : w.contention.next.count s.object = 0) :
    ∃ after, s.wait.run.run w = (.ok false, after) ∧ after.contention = w.contention.next ∧
      w.Kept cancel after := by
  obtain ⟨met, hmeet, hcontention, hkept⟩ := meet_of_calm h
  have hzero : s.count met = 0 := by
    rw [← hcontention] at hcount
    exact hcount
  refine ⟨_, (take_of_pass "sem_timedwait" hmeet).trans (if_pos hzero), hcontention, ?_⟩
  exact hkept.trans ⟨rfl, rfl, rfl, id⟩

theorem wait_of_positive {cancel : Nat} {s : Semaphore} {w : World} (h : Calm cancel w.agenda)
    (hcount : w.contention.next.count s.object ≠ 0) :
    ∃ after, s.wait.run.run w = (.ok true, after) ∧
      after.contention = w.contention.next.taken s.object ∧ w.Kept cancel after := by
  obtain ⟨met, hmeet, hcontention, hkept⟩ := meet_of_calm h
  have hpositive : s.count met ≠ 0 := by
    rw [← hcontention] at hcount
    exact hcount
  refine ⟨_, (take_of_pass "sem_timedwait" hmeet).trans (if_neg hpositive), ?_, ?_⟩
  · rw [← hcontention]
    rfl
  · exact hkept.trans ⟨rfl, rfl, rfl, id⟩

theorem post_of_calm {cancel : Nat} {s : Semaphore} {w : World} (h : Calm cancel w.agenda)
    (hroom : w.contention.next.count s.object < maxCount) :
    ∃ after, s.post.run.run w = (.ok (), after) ∧
      after.contention = w.contention.next.posted s.object ∧ w.Kept cancel after := by
  have hentered : Calm cancel ((enter (.post s.object)).run w).2.agenda := h
  obtain ⟨met, hmeet, hcontention, hkept⟩ := meet_of_calm hentered
  have hcount : s.count met < maxCount := by
    have hnext : met.contention = w.contention.next := hcontention
    rw [← hnext] at hroom
    exact hroom
  refine ⟨_, post_of_pass hmeet hcount, ?_, ?_⟩
  · have hnext : met.contention = w.contention.next := hcontention
    rw [← hnext]
    rfl
  · have hfirst : w.Kept cancel ((enter (.post s.object)).run w).2 := ⟨rfl, rfl, rfl, id⟩
    exact (hfirst.trans hkept).trans ⟨rfl, rfl, rfl, id⟩

end Semaphore

/-! ### Guards -/

def Acquisition.event : Acquisition → HealthEvent
  | .acquired => .success
  | .timedOut => .failure

def Health.after (h : Health) (outcomes : List Acquisition) : Health :=
  outcomes.foldl (fun h outcome => h.record outcome.event) h

namespace Guard

/-- How the next acquisitions turn out, once the guard has given back what it holds. -/
def outlook (g : Guard) (n : Nat) (c : Contention) : List Acquisition :=
  if g.held then Contention.outcomes g.semaphore.object n (c.next.posted g.semaphore.object)
  else Contention.outcomes g.semaphore.object n c

/-- So many acquisitions do not bring the score of the guard to the maximum, no call fails or sees
the flag `cancel` raised, and others leave the semaphore room for what is given back. -/
structure Bears (g : Guard) (cancel n : Nat) (c : Contention) : Prop where
  calm : Calm cancel c.agenda
  brings : ∀ happening ∈ c.agenda, ∀ k, happening.brings = some (g.semaphore.object, k) →
    k < maxCount
  room : c.count g.semaphore.object + g.held.toNat ≤ maxCount
  sound : ∀ k, (g.health.after ((g.outlook n c).take k)).state ≠ .fatal

variable {g : Guard} {cancel n : Nat} {c : Contention} {w : World}

theorem Bears.state (h : g.Bears cancel n c) : g.state ≠ .fatal := h.sound 0

theorem tryAcquire_of_taken {after : World} (hstate : g.state ≠ .fatal) (hfree : g.held = false)
    (hwait : g.semaphore.wait.run.run w = (.ok true, after)) :
    g.tryAcquire.run w =
      ((.ok .acquired, { g with held := true, health := g.health.succeed }), after) := by
  unfold tryAcquire
  simp only [hstate, hfree, if_false, Bool.false_eq_true]
  exact Deed.run_bind hwait

theorem tryAcquire_of_missed {after : World} (hstate : g.state ≠ .fatal) (hfree : g.held = false)
    (hwait : g.semaphore.wait.run.run w = (.ok false, after))
    (hfail : g.health.fail.state ≠ .fatal) :
    g.tryAcquire.run w = ((.ok .timedOut, { g with health := g.health.fail }),
      ((report (.notAcquired g.name g.policy.timeoutMs)).run after).2) := by
  obtain ⟨semaphore, policy, health, held⟩ := g
  obtain rfl : held = false := hfree
  have hafter : ({ semaphore, policy, health := health.fail } : Guard).state ≠ .fatal := hfail
  unfold tryAcquire
  simp only [hstate, if_false, Bool.false_eq_true]
  refine (Deed.run_bind hwait).trans ?_
  refine (Deed.run_bind rfl).trans ?_
  simp only [hafter, if_false]
  rfl

theorem tryAcquire_of_bears (h : g.Bears cancel (n + 1) w.contention) (hfree : g.held = false) :
    ∃ outcome g' after, g.tryAcquire.run w = ((.ok outcome, g'), after) ∧
      g'.Bears cancel n after.contention ∧ w.Kept cancel after := by
  have hcalm : Calm cancel w.contention.next.agenda :=
    fun happening hmem => h.calm happening (Contention.mem_agenda_next hmem)
  have hbrings := fun happening hmem => h.brings happening (Contention.mem_agenda_next hmem)
  -- a guard that does not hold the semaphore leaves room for all that the others may post
  have hroom : w.contention.next.count g.semaphore.object ≤ maxCount := by
    refine Contention.count_next_le ?_ fun happening hmem k hk =>
      Nat.le_of_lt (h.brings happening hmem k hk)
    have hroom := h.room
    rwa [hfree] at hroom
  have hsound := h.sound
  simp only [outlook, hfree, Bool.false_eq_true, if_false, Contention.outcomes] at hsound
  by_cases hcount : w.contention.next.count g.semaphore.object = 0
  · simp only [hcount, if_true] at hsound
    obtain ⟨after, hwait, hcontention, hkept⟩ := Semaphore.wait_of_zero h.calm hcount
    refine ⟨.timedOut, _, _, tryAcquire_of_missed h.state hfree hwait (hsound 1), ?_,
      hkept.trans ⟨rfl, rfl, rfl, id⟩⟩
    show Bears _ cancel n after.contention
    rw [hcontention]
    refine ⟨hcalm, hbrings, ?_, ?_⟩
    · show _ + g.held.toNat ≤ _
      rwa [hfree]
    · intro k
      simp only [outlook, hfree, Bool.false_eq_true, if_false]
      exact hsound (k + 1)
  · simp only [hcount, if_false] at hsound
    obtain ⟨after, hwait, hcontention, hkept⟩ := Semaphore.wait_of_positive h.calm hcount
    refine ⟨.acquired, _, _, tryAcquire_of_taken h.state hfree hwait, ?_, hkept⟩
    rw [hcontention]
    refine ⟨hcalm, hbrings, ?_, ?_⟩
    · show _ + 1 ≤ _
      rw [Contention.count_taken]
      omega
    · intro k
      exact hsound (k + 1)

theorem release_of_bears (h : g.Bears cancel n w.contention) :
    ∃ g' after, g.release.run w = ((.ok (), g'), after) ∧ g'.held = false ∧
      g'.Bears cancel n after.contention ∧ w.Kept cancel after := by
  cases hheld : g.held with
  | false =>
    refine ⟨g, w, ?_, hheld, h, rfl, rfl, rfl, id⟩
    unfold release
    simp only [hheld, Bool.not_false, if_true]
    rfl
  | true =>
    have hroom : w.contention.next.count g.semaphore.object < maxCount := by
      have hroom := h.room
      rw [hheld] at hroom
      have hpositive : 0 < maxCount := by decide
      have hbound : w.contention.count g.semaphore.object ≤ maxCount - 1 :=
        Nat.le_sub_one_of_lt hroom
      have hnext := Contention.count_next_le hbound fun happening hmem k hk =>
        Nat.le_sub_one_of_lt (h.brings happening hmem k hk)
      omega
    obtain ⟨after, hpost, hcontention, hkept⟩ := Semaphore.post_of_calm h.calm hroom
    refine ⟨{ g with held := false }, after, ?_, rfl, ?_, hkept⟩
    · unfold release
      simp only [hheld, Bool.not_true, Bool.false_eq_true, if_false]
      exact Deed.run_bind hpost
    · rw [hcontention]
      refine ⟨?_, ?_, ?_, ?_⟩
      · exact fun happening hmem => h.calm happening (Contention.mem_agenda_next hmem)
      · exact fun happening hmem => h.brings happening (Contention.mem_agenda_next hmem)
      · have hposted := Contention.count_posted_le w.contention.next g.semaphore.object
        exact Nat.le_trans hposted hroom
      · intro k
        have hsound := h.sound k
        simp only [outlook, hheld, if_true] at hsound
        exact hsound

end Guard
end RtuStation
