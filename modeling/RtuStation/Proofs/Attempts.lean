import RtuStation.Proofs.Courses

/-!
# Attempts to send

A transmission is a series of attempts: each write takes some of what is left of the frame, is
interrupted, is refused, or finds the line full and waits for room. `attempts` tells them from what
happens on the line, and `Dispatch.Told` what they say about the transmission: the pieces they took
make up a start of the frame, and the first attempt that goes wrong is the last one and names the
error.
-/

namespace RtuStation

/-! ### Single attempts -/

inductive Readiness where
  | writable
  | timedOut
  | hungUp
  | woken
  deriving DecidableEq, Repr

inductive Attempt where
  | took (bytes : Octets)
  | interrupted
  | refused (fault : Fault)
  /-- The line was full, and the wait for room found this or failed. -/
  | full (found : Except Fault Readiness)

namespace Attempt

def taken : Attempt → Octets
  | took bytes => bytes
  | _ => []

/-- The error with which an attempt ends the transmission, if it does not go on. -/
def verdict : Attempt → Except Error Unit
  | took _ | interrupted | full (.ok .writable) => .ok ()
  | full (.ok .woken) => .error .cancelled
  | refused fault | full (.error fault) => .error (.reply fault)
  | full (.ok .hungUp) => .error (.reply (.kind .brokenPipe))
  | full (.ok .timedOut) =>
    .error (.reply (.worded .timedOut "reply not sent within the response timeout"))

theorem verdict_eq_cancelled {a : Attempt} :
    a.verdict = .error .cancelled ↔ a = .full (.ok .woken) := by
  rcases a with _ | _ | _ | (_ | _ | _ | _ | _) <;> simp [verdict]

theorem cancelled_or_reply {a : Attempt} {e : Error} (h : a.verdict = .error e) :
    e = .cancelled ∨ ∃ fault, e = .reply fault := by
  rcases a with _ | _ | _ | (_ | _ | _ | _ | _) <;> cases h <;>
    first | exact .inl rfl | exact .inr ⟨_, rfl⟩

end Attempt

namespace Departure

/-- The flags after a write, and after the wait for room if there was one. -/
def flags (flags : Flags) : Departure → Flags
  | takes _ raises | interrupted raises | fails _ raises => flags.raise? raises
  | full wake raises => (wake.flags flags).raise? raises

/-- What a wait for room finds; a raised flag comes before what happens on the line. -/
def readiness (terms : Dispatch.Terms) (flags : Flags) (wake : Wake) : Except Fault Readiness :=
  match terms.waitFault, wake, (wake.flags flags).raised terms.cancel with
  | some fault, _, _ | none, .fails fault, _ => .error fault
  | none, _, true => .ok .woken
  | none, .expired, false => .ok .timedOut
  | none, .hungUp, false => .ok .hungUp
  | none, _, false => .ok .writable

def attempt (terms : Dispatch.Terms) (flags : Flags) (frame : Octets) : Departure → Attempt
  | takes count _ => .took (frame.take count)
  | interrupted _ => .interrupted
  | fails fault _ => .refused fault
  | full wake _ => .full (readiness terms flags wake)

end Departure

/-! ### Transmissions told by their attempts -/

/-- The attempts on a line at rest; pieces that a buffer takes right after each other count as one. -/
def Sink.attempts (sink : Sink) (terms : Dispatch.Terms) (frame : Octets) (flags : Flags) :
    List Attempt :=
  if frame.isEmpty then []
  else match sink with
    | closed fault => [.refused fault]
    | endless | inPlace => [.took frame]
    | buffer b =>
      let (taken, _) := b.fill frame.length
      if frame.length ≤ taken then [.took frame]
      else [.took (frame.take taken), .full (Departure.readiness terms flags .expired)]

/-- The attempts of a transmission, up to the first one that does not let it go on. -/
def attempts (terms : Dispatch.Terms) (sink : Sink) :
    List Departure → Octets → Flags → List Attempt
  | [], frame, flags => sink.attempts terms frame flags
  | departure :: later, frame, flags =>
    if frame.isEmpty then []
    else
      let a := departure.attempt terms flags frame
      match a.verdict with
      | .error _ => [a]
      | .ok () =>
        a :: attempts terms sink later (frame.drop a.taken.length) (departure.flags flags)

/-- What the attempts to send a frame say about its transmission. -/
structure Dispatch.Told (frame : Octets) (attempts : List Attempt) (r : Dispatch) : Prop where
  pieces : r.accepted = attempts.flatMap Attempt.taken
  start : r.accepted <+: frame
  whole : r.ending.verdict = .ok () ↔ r.accepted = frame
  error (e : Error) : r.ending.verdict = .error e ↔ ∃ a ∈ attempts, a.verdict = .error e

namespace Dispatch.Told

variable {frame : Octets} {later : List Attempt} {a : Attempt} {r : Dispatch}

theorem nothing (hending : r.ending = .whole) (hnone : r.accepted = []) : Told [] [] r where
  pieces := hnone
  start := by simp only [hnone, List.nil_prefix]
  whole := by simp [hending, Ending.verdict, hnone]
  error := by simp [hending, Ending.verdict]

theorem all (hending : r.ending = .whole) (hall : r.accepted = frame) :
    Told frame [.took frame] r where
  pieces := by rw [hall, List.flatMap_singleton, Attempt.taken]
  start := by simp only [hall, List.prefix_rfl]
  whole := by simp [hending, Ending.verdict, hall]
  error := by simp [hending, Ending.verdict, Attempt.verdict]

theorem stopped {e : Error} (hframe : frame ≠ []) (ha : a.verdict = .error e) (htaken : a.taken = [])
    (hending : r.ending.verdict = .error e) (hnone : r.accepted = []) : Told frame [a] r where
  pieces := by rw [hnone, List.flatMap_singleton, htaken]
  start := by
    rw [hnone]
    exact List.nil_prefix
  whole := by simp [hending, hnone, hframe.symm]
  error := by simp [hending, ha]

theorem after {n : Nat} (ha : a.verdict = .ok ()) (htaken : a.taken = frame.take n)
    (h : Told (frame.drop n) later r) : Told frame (a :: later) (r.after a.taken) where
  pieces := congrArg (a.taken ++ ·) h.pieces
  start := by
    have hstart := (List.prefix_append_right_inj (frame.take n)).mpr h.start
    rw [List.take_append_drop] at hstart
    exact htaken ▸ hstart
  whole := by
    refine h.whole.trans ?_
    constructor
    · intro hall
      rw [Dispatch.after, htaken, hall, List.take_append_drop]
    · intro hall
      rw [Dispatch.after, htaken] at hall
      exact List.append_cancel_left (hall.trans (List.take_append_drop n frame).symm)
  error := fun e => (h.error e).trans (by simp [ha])

end Dispatch.Told

/-- A buffer that is full stays so: the wait for room ends as if nothing happened on the line. -/
theorem verdict_of_full_buffer (terms : Dispatch.Terms) (flags : Flags) :
    ∃ e, (Attempt.full (Departure.readiness terms flags .expired)).verdict = .error e ∧
      (terms.ending flags).verdict = .error e := by
  unfold Departure.readiness Dispatch.Terms.ending
  cases terms.waitFault with
  | some fault => exact ⟨_, rfl, rfl⟩
  | none =>
    dsimp only [Wake.flags]
    cases flags.raised terms.cancel <;> exact ⟨_, rfl, rfl⟩

theorem told_dispatch (terms : Dispatch.Terms) (sink : Sink) (frame : Octets) (flags : Flags) :
    (sink.dispatch terms frame flags).Told frame (sink.attempts terms frame flags) := by
  by_cases hframe : frame = []
  · subst hframe
    cases sink with
    | closed | endless | inPlace => exact .nothing rfl rfl
    | buffer b =>
      have hfits : ([] : Octets).length ≤ (b.fill ([] : Octets).length).1 := Nat.zero_le _
      simp only [Sink.dispatch, if_pos hfits]
      exact .nothing rfl rfl
  have hsome : frame.isEmpty = false := List.isEmpty_eq_false_iff.mpr hframe
  simp only [Sink.dispatch, Sink.attempts, hsome, Bool.false_eq_true, if_false]
  cases sink with
  | closed fault => exact @Dispatch.Told.stopped _ _ _ (.reply fault) hframe rfl rfl rfl rfl
  | endless | inPlace => exact .all rfl rfl
  | buffer b =>
    dsimp only
    split
    · exact .all rfl rfl
    · next hroom =>
      -- two attempts: one takes what there is room for, the next one waits in vain
      have hleft : frame.drop (b.fill frame.length).1 ≠ [] := by simpa using hroom
      obtain ⟨e, hattempt, hending⟩ := verdict_of_full_buffer terms flags
      have htold := @Dispatch.Told.stopped _ _
        ⟨terms.ending flags, [], .buffer (b.fill frame.length).2, [], flags⟩ e hleft hattempt rfl
        hending rfl
      simpa only [Dispatch.after, Attempt.taken, List.append_nil] using
        @Dispatch.Told.after _ _ (.took (frame.take (b.fill frame.length).1)) _ _ rfl rfl htold

section

variable {terms : Dispatch.Terms} {sink : Sink} {later : List Departure}
variable {frame : Octets} {flags : Flags}

theorem stops?_eq (wake : Wake) :
    terms.stops? flags wake =
      match Departure.readiness terms flags wake with
      | .ok .writable => none
      | .ok .woken => some .cancelled
      | .ok .timedOut => some .expired
      | .ok .hungUp => some .hungUp
      | .error fault => some (.failed fault) := by
  unfold Dispatch.Terms.stops? Departure.readiness
  cases terms.waitFault with
  | some fault => rfl
  | none => cases wake <;> cases h : (Wake.flags flags _).raised terms.cancel <;> rfl

/-- What a transmission does on a full line, by what the wait for room finds. -/
theorem transmit_full (wake : Wake) (raises : Option Nat) (hframe : frame ≠ []) :
    transmit terms sink (.full wake raises :: later) frame flags =
      match Departure.readiness terms flags wake with
      | .ok .writable =>
        transmit terms sink later frame ((Departure.full wake raises).flags flags)
      | .ok .woken => sink.stop .cancelled later ((Departure.full wake raises).flags flags)
      | .ok .timedOut => sink.stop .expired later ((Departure.full wake raises).flags flags)
      | .ok .hungUp => sink.stop .hungUp later ((Departure.full wake raises).flags flags)
      | .error fault =>
        sink.stop (.failed fault) later ((Departure.full wake raises).flags flags) := by
  have hsome : frame.isEmpty = false := List.isEmpty_eq_false_iff.mpr hframe
  simp only [transmit, hsome, Bool.false_eq_true, if_false, stops?_eq]
  rcases Departure.readiness terms flags wake with fault | _ | _ | _ | _ <;> rfl

end

theorem told_transmit (terms : Dispatch.Terms) (sink : Sink) (departures : List Departure)
    (frame : Octets) (flags : Flags) :
    (transmit terms sink departures frame flags).Told frame
      (attempts terms sink departures frame flags) := by
  -- for all frames: each attempt leaves another rest of the frame to the later ones
  induction departures generalizing frame flags with
  | nil => exact told_dispatch terms sink frame flags
  | cons departure later ih =>
    by_cases hframe : frame = []
    · subst hframe
      exact .nothing rfl rfl
    have hsome : frame.isEmpty = false := List.isEmpty_eq_false_iff.mpr hframe
    simp only [attempts, hsome, Bool.false_eq_true, if_false]
    cases departure with
    | takes count raises =>
      simp only [transmit, hsome, Bool.false_eq_true, if_false]
      refine @Dispatch.Told.after _ _ _ _ count rfl rfl ?_
      dsimp only [Departure.attempt, Attempt.taken]
      rw [List.length_take, ← List.drop_eq_drop_min]
      exact ih (frame.drop count) (flags.raise? raises)
    | interrupted raises =>
      simp only [transmit, hsome, Bool.false_eq_true, if_false]
      exact @Dispatch.Told.after _ _ _ _ 0 rfl rfl (ih frame (flags.raise? raises))
    | fails fault raises =>
      simp only [transmit, hsome, Bool.false_eq_true, if_false]
      exact @Dispatch.Told.stopped _ _ _ (.reply fault) hframe rfl rfl rfl rfl
    | full wake raises =>
      rw [transmit_full wake raises hframe]
      simp only [Departure.attempt]
      rcases Departure.readiness terms flags wake with fault | _ | _ | _ | _
      · exact @Dispatch.Told.stopped _ _ _ (.reply fault) hframe rfl rfl rfl rfl
      · exact @Dispatch.Told.after _ _ _ _ 0 rfl rfl (ih frame _)
      · exact .stopped hframe rfl rfl rfl rfl
      · exact .stopped hframe rfl rfl rfl rfl
      · exact .stopped hframe rfl rfl rfl rfl

/-! ### Ports -/

namespace Port

def attempts (p : Port) (frame : Octets) (w : World) : List Attempt :=
  let line := (w.lines[p.line]?).getD .dead
  RtuStation.attempts { cancel := p.cancel, waitFault := w.waitFault } line.sink line.departures frame
    w.flags

/-- The line gets a start of the frame, and the whole of it exactly if the port tells no error. An error
is the one of the attempt that failed: that of a cancellation if the wait for room was woken by it, and
that of a reply else. -/
theorem sends_whole_or_start (p : Port) {frame : Octets} {w after : World}
    {outcome : Except Error Unit} (h : (p.send frame).run w = (outcome, after)) :
    ∃ accepted : Octets, accepted = (p.attempts frame w).flatMap Attempt.taken ∧
      accepted <+: frame ∧
      (∀ line, w.lines[p.line]? = some line →
        ∃ left, after.lines[p.line]? = some left ∧ left.sent = line.sent ++ accepted) ∧
      (outcome = .ok () ↔ accepted = frame) ∧
      (∀ e, outcome = .error e ↔ ∃ a ∈ p.attempts frame w, a.verdict = .error e) ∧
      (outcome = .error .cancelled ↔ .full (.ok .woken) ∈ p.attempts frame w) ∧
      ∀ e, outcome = .error e → e = .cancelled ∨ ∃ fault, e = .reply fault := by
  rw [send_run] at h
  cases h
  have htold : (p.transmission frame w).Told frame (p.attempts frame w) := told_transmit ..
  refine ⟨(p.transmission frame w).accepted, htold.pieces, htold.start, ?_, htold.whole, htold.error,
    ?_, ?_⟩
  · intro line hline
    exact ⟨_, line_transmitted _ hline, rfl⟩
  · rw [htold.error]
    simp only [Attempt.verdict_eq_cancelled, exists_eq_right]
  · intro e he
    obtain ⟨a, -, ha⟩ := (htold.error e).mp he
    exact Attempt.cancelled_or_reply ha

def stubbornLine : Line where
  sink := .endless
  departures := [.takes 2, .interrupted, .full .ready, .takes 0, .full (.cancel 0), .takes 3]

theorem two_octets_before_cancellation :
    ∃ after left, (({ line := 0, cancel := 0 } : Port).send [0x01, 0x02, 0x03, 0x04]).run
        { lines := #[stubbornLine], flags := #[false] } = (.error .cancelled, after) ∧
      after.lines[0]? = some left ∧ left.sent = [0x01, 0x02] := by
  obtain ⟨accepted, hpieces, -, hline, -, -, hcancelled, -⟩ :=
    @sends_whole_or_start { line := 0, cancel := 0 } [0x01, 0x02, 0x03, 0x04]
      { lines := #[stubbornLine], flags := #[false] } _ _ rfl
  have hattempts : ({ line := 0, cancel := 0 } : Port).attempts [0x01, 0x02, 0x03, 0x04]
      { lines := #[stubbornLine], flags := #[false] } =
      [.took [0x01, 0x02], .interrupted, .full (.ok .writable), .took [], .full (.ok .woken)] := rfl
  rw [hattempts] at hpieces hcancelled
  obtain ⟨left, hleft, hsent⟩ := hline stubbornLine rfl
  exact ⟨_, left, Prod.ext (hcancelled.mpr (by simp)) rfl, hleft, hsent.trans hpieces⟩

end Port
end RtuStation
