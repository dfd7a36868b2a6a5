import Mathlib.Data.List.Infix
import Mathlib.Order.Bounds.Basic
import RtuStation.Health

/-!
# Scores and stretches of contention

The score of a guard is cut at zero, kept at its maximum, and added up in words. It nevertheless has
a closed form. A stretch of events *weighs* what its failures add less what its successes take off,
with nothing cut. A guard has given up if and only if some stretch of what happened weighed the
maximum or more; until then its score is the greatest weight of the stretches that reach up to now.
-/

namespace RtuStation

namespace GuardPolicy

variable {p : GuardPolicy} {events block : List HealthEvent}

def weight (p : GuardPolicy) (events : List HealthEvent) : Int :=
  events.count .failure * p.failIncrement - events.count .success * p.successDecrement

/-- The weights of the stretches that end with the latest event, the empty one among them. -/
def suffixWeights (p : GuardPolicy) (events : List HealthEvent) : Set Int :=
  {x | ∃ suffix, suffix <:+ events ∧ p.weight suffix = x}

theorem maximum_pos_of_check (h : p.check = .ok ()) : 0 < p.maximum := by
  unfold check at h
  split at h
  · cases h
  · omega

theorem weight_nil : p.weight [] = 0 := by
  simp [weight]

theorem weight_failure : p.weight [.failure] = p.failIncrement := by
  simp [weight]

theorem weight_success : p.weight [.success] = -p.successDecrement := by
  simp [weight]

theorem weight_append (events later : List HealthEvent) :
    p.weight (events ++ later) = p.weight events + p.weight later := by
  simp only [weight, List.count_append, Int.natCast_add, Int.add_mul]
  omega

/-- The next event adds to all stretches that reach up to now, and the empty one is new. -/
theorem isGreatest_suffixWeights_concat {m : Int} (e : HealthEvent)
    (h : IsGreatest (p.suffixWeights events) m) :
    IsGreatest (p.suffixWeights (events ++ [e])) (max 0 (m + p.weight [e])) := by
  obtain ⟨⟨suffix, hsuffix, hweight⟩, hgreatest⟩ := h
  constructor
  · by_cases hneg : m + p.weight [e] ≤ 0
    · rw [max_eq_left hneg]
      exact ⟨[], List.nil_suffix, weight_nil⟩
    · rw [max_eq_right (by omega), ← hweight, ← weight_append]
      exact ⟨suffix ++ [e], List.suffix_concat_iff.mpr (.inr ⟨suffix, rfl, hsuffix⟩), rfl⟩
  · intro x hx
    obtain ⟨suffix', hsuffix', rfl⟩ := hx
    rcases List.suffix_concat_iff.mp hsuffix' with rfl | ⟨shorter, rfl, hshorter⟩
    · rw [weight_nil]
      exact le_max_left _ _
    · have hle := hgreatest ⟨shorter, hshorter, rfl⟩
      rw [weight_append]
      omega

end GuardPolicy

namespace Health

variable {p : GuardPolicy} {events : List HealthEvent} {value : Nat}

def recordAll (h : Health) (events : List HealthEvent) : Health := events.foldl record h

theorem recordAll_concat (h : Health) (events : List HealthEvent) (e : HealthEvent) :
    h.recordAll (events ++ [e]) = (h.recordAll events).record e := by
  simp [recordAll]

/-! ### One event -/

def scored (p : GuardPolicy) (value : Nat) : Health := { ofPolicy p with value }

theorem record_scored (e : HealthEvent) :
    (scored p value).record e = scored p ((scored p value).record e).value := by
  cases e with
  | failure => rfl
  | success =>
    by_cases hfatal : (scored p value).state = .fatal
    · simp only [record, succeed, hfatal, if_true]
      rfl
    · simp only [record, succeed, hfatal, if_false]
      rfl

theorem state_scored_eq_fatal_iff (hpos : 0 < p.maximum) :
    (scored p value).state = .fatal ↔ p.maximum ≤ value := by
  rw [state_eq_fatal_iff]
  show value ≠ 0 ∧ p.maximum ≤ value ↔ _
  omega

theorem value_record_maximum (e : HealthEvent) (hpos : 0 < p.maximum)
    (hlimit : p.maximum ≤ limit) : ((scored p p.maximum).record e).value = p.maximum := by
  cases e with
  | failure =>
    show min (min (p.maximum + p.failIncrement) limit) p.maximum = p.maximum
    omega
  | success =>
    show (scored p p.maximum).succeed.value = p.maximum
    rw [succeed, if_pos ((state_scored_eq_fatal_iff hpos).mpr (Nat.le_refl _))]
    rfl

/-- Below the maximum, a score moves by the weight of the event, down to zero and up to the maximum
at most. A sum that does not fit into a word is one that the maximum cuts anyway. -/
theorem value_record_of_lt (e : HealthEvent) (hlt : value < p.maximum)
    (hlimit : p.maximum ≤ limit) :
    (((scored p value).record e).value : Int) = min (max 0 (value + p.weight [e])) p.maximum := by
  cases e with
  | failure =>
    show ((min (min (value + p.failIncrement) limit) p.maximum : Nat) : Int) = _
    rw [GuardPolicy.weight_failure]
    omega
  | success =>
    have hstate : (scored p value).state ≠ .fatal := by
      rw [Ne, state_scored_eq_fatal_iff (by omega)]
      omega
    show ((scored p value).succeed.value : Int) = _
    rw [succeed, if_neg hstate, GuardPolicy.weight_success]
    show ((value - p.successDecrement : Nat) : Int) = _
    omega

/-! ### All events -/

/-- What a score tells about the events so far. -/
structure Sums (p : GuardPolicy) (events : List HealthEvent) (value : Nat) : Prop where
  le_maximum : value ≤ p.maximum
  eq_maximum_iff : value = p.maximum ↔ ∃ block, block <:+: events ∧ p.maximum ≤ p.weight block
  greatest : value < p.maximum → IsGreatest (p.suffixWeights events) value

theorem sums_nil (hpos : 0 < p.maximum) : Sums p [] 0 where
  le_maximum := Nat.zero_le _
  eq_maximum_iff := by
    constructor
    · intro hzero
      omega
    · rintro ⟨block, hblock, hle⟩
      rw [List.infix_nil.mp hblock, GuardPolicy.weight_nil] at hle
      omega
  greatest := by
    intro _
    constructor
    · exact ⟨[], List.nil_suffix, GuardPolicy.weight_nil⟩
    · rintro x ⟨suffix, hsuffix, rfl⟩
      rw [List.suffix_nil.mp hsuffix, GuardPolicy.weight_nil]
      rfl

theorem Sums.record (h : Sums p events value) (e : HealthEvent) (hpos : 0 < p.maximum)
    (hlimit : p.maximum ≤ limit) :
    Sums p (events ++ [e]) ((scored p value).record e).value := by
  rcases Nat.lt_or_eq_of_le h.le_maximum with hlt | rfl
  · have hnext := value_record_of_lt e hlt hlimit
    have hgreatest := GuardPolicy.isGreatest_suffixWeights_concat e (h.greatest hlt)
    -- the uncut score `peak` is what the latest stretches weigh at most
    generalize max 0 ((value : Int) + p.weight [e]) = peak at hnext hgreatest
    obtain ⟨⟨suffix, hsuffix, hweight⟩, hbound⟩ := hgreatest
    refine ⟨by omega, ?_, ?_⟩
    · constructor
      · intro hmaximum
        exact ⟨suffix, hsuffix.isInfix, by omega⟩
      · rintro ⟨block, hblock, hle⟩
        rcases List.infix_concat_iff.mp hblock with hlatest | hearlier
        · have hpeak := hbound ⟨block, hlatest, rfl⟩
          omega
        · have hmaximum := h.eq_maximum_iff.mpr ⟨block, hearlier, hle⟩
          omega
    · intro hlt'
      have hpeak : (((scored p value).record e).value : Int) = peak := by omega
      rw [hpeak]
      exact ⟨⟨suffix, hsuffix, hweight⟩, hbound⟩
  · rw [value_record_maximum e hpos hlimit]
    obtain ⟨block, hblock, hle⟩ := h.eq_maximum_iff.mp rfl
    refine ⟨Nat.le_refl _, ?_, fun hlt => absurd hlt (Nat.lt_irrefl _)⟩
    constructor
    · intro _
      exact ⟨block, hblock.trans (List.infix_append' [] events [e]), hle⟩
    · intro _
      rfl

theorem recordAll_sums (hpos : 0 < p.maximum) (hlimit : p.maximum ≤ limit)
    (events : List HealthEvent) :
    ∃ value, (ofPolicy p).recordAll events = scored p value ∧ Sums p events value := by
  induction events using List.reverseRecOn with
  | nil => exact ⟨0, rfl, sums_nil hpos⟩
  | append_singleton events e ih =>
    obtain ⟨value, hscore, hsums⟩ := ih
    refine ⟨((scored p value).record e).value, ?_, hsums.record e hpos hlimit⟩
    rw [recordAll_concat, hscore]
    exact record_scored e

/-- A guard has given up if and only if some stretch of events weighed the maximum or more. Until
then its score is the greatest weight of the stretches that reach up to now, and it is healthy if
and only if none of them weighs anything. The score never exceeds the maximum, and once there it
does not move. -/
theorem score_is_worst_stretch (hcheck : p.check = .ok ()) (hlimit : p.maximum ≤ limit)
    (events : List HealthEvent) :
    (((ofPolicy p).recordAll events).state = .fatal ↔
        ∃ block, block <:+: events ∧ p.maximum ≤ p.weight block) ∧
      (((ofPolicy p).recordAll events).state ≠ .fatal →
        ∃ peak, IsGreatest (p.suffixWeights events) peak ∧
          ((ofPolicy p).recordAll events).value = peak ∧
          (((ofPolicy p).recordAll events).state = .healthy ↔ peak = 0)) ∧
      ((ofPolicy p).recordAll events).value ≤ p.maximum ∧
      (((ofPolicy p).recordAll events).state = .fatal → ∀ later,
        ((ofPolicy p).recordAll (events ++ later)).value = p.maximum ∧
          ((ofPolicy p).recordAll (events ++ later)).state = .fatal) := by
  have hpos := GuardPolicy.maximum_pos_of_check hcheck
  obtain ⟨value, hscore, hsums⟩ := recordAll_sums hpos hlimit events
  have hle := hsums.le_maximum
  rw [hscore, state_scored_eq_fatal_iff hpos, ← hsums.eq_maximum_iff]
  refine ⟨by omega, ?_, hle, ?_⟩
  · intro hstate
    rw [Ne, state_scored_eq_fatal_iff hpos] at hstate
    refine ⟨value, hsums.greatest (by omega), rfl, ?_⟩
    rw [state_eq_healthy_iff]
    exact Int.natCast_eq_zero.symm
  · intro hmaximum later
    obtain ⟨block, hblock, hweight⟩ := hsums.eq_maximum_iff.mp (by omega)
    obtain ⟨value', hscore', hsums'⟩ := recordAll_sums hpos hlimit (events ++ later)
    have hwhole : events <:+: events ++ later := List.infix_append' [] events later
    have hvalue := hsums'.eq_maximum_iff.mpr ⟨block, hblock.trans hwhole, hweight⟩
    rw [hscore', state_scored_eq_fatal_iff hpos]
    exact ⟨hvalue, hvalue.ge⟩

/-- Two failures whose sum does not fit into a word, with one success between them. -/
theorem two_failures_exceed_word :
    let p : GuardPolicy := { failIncrement := 3000000000, maximum := 4294967295 }
    IsGreatest (p.suffixWeights [.failure, .success]) 2999999999 ∧ ∀ later,
      ((ofPolicy p).recordAll ([.failure, .success, .failure] ++ later)).state = .fatal := by
  intro p
  have hcheck : p.check = .ok () := rfl
  have hlimit : p.maximum ≤ limit := by decide
  obtain ⟨-, hsound, -, -⟩ := score_is_worst_stretch hcheck hlimit [.failure, .success]
  obtain ⟨hfatal, -, -, hstays⟩ :=
    score_is_worst_stretch hcheck hlimit [.failure, .success, .failure]
  constructor
  · obtain ⟨peak, hpeak, hvalue, -⟩ := hsound (by decide)
    have hscore : ((ofPolicy p).recordAll [.failure, .success]).value = 2999999999 := by decide
    rw [hscore] at hvalue
    rw [← hvalue] at hpeak
    exact hpeak
  · have hwhole : p.maximum ≤ p.weight [.failure, .success, .failure] := by decide
    intro later
    exact (hstays (hfatal.mpr ⟨_, List.infix_rfl, hwhole⟩) later).2

end Health
end RtuStation
