import RtuStation.Connection

/-!
# Lines that accept what is sent

A line accepts frames if it takes each of them as a whole, however it takes them in parts and however
often a write is interrupted or has to wait for room. What it takes is then the frames, one after the
other. A line that never lets a write fail or expire accepts everything.
-/

namespace RtuStation

/-- The line takes the frames, one after the other, each as a whole and without the flag `cancel`
being raised; and what it takes does not stand in the place of what it brings. -/
inductive Accepts (cancel : Nat) : List Octets → Sink → List Departure → Prop
  | none {sink : Sink} {departures : List Departure} : Accepts cancel [] sink departures
  | cons {frame : Octets} {later : List Octets} {sink : Sink} {departures : List Departure} :
      sink ≠ .inPlace →
      (∀ flags : Flags, flags.raised cancel = false →
        (transmit ⟨cancel, .none⟩ sink departures frame flags).ending = .whole) →
      (∀ flags : Flags, flags.raised cancel = false →
        (transmit ⟨cancel, .none⟩ sink departures frame flags).flags.raised cancel = false) →
      (∀ flags : Flags, flags.raised cancel = false →
        Accepts cancel later (transmit ⟨cancel, .none⟩ sink departures frame flags).sink
          (transmit ⟨cancel, .none⟩ sink departures frame flags).departures) →
      Accepts cancel (frame :: later) sink departures

theorem Dispatch.Terms.ending_ne_whole (terms : Dispatch.Terms) (flags : Flags) :
    terms.ending flags ≠ .whole := by
  unfold ending
  split
  · exact nofun
  · split <;> exact nofun

theorem Dispatch.Terms.stops?_ne_whole (terms : Dispatch.Terms) (flags : Flags) (wake : Wake) :
    terms.stops? flags wake ≠ some .whole := by
  unfold stops?
  split
  · exact nofun
  · exact nofun
  · split
    · exact nofun
    · split <;> exact nofun

theorem accepted_dispatch_of_whole {terms : Dispatch.Terms} {sink : Sink} {frame : Octets}
    {flags : Flags} (h : (sink.dispatch terms frame flags).ending = .whole) :
    (sink.dispatch terms frame flags).accepted = frame := by
  cases sink with
  | closed fault =>
    cases frame with
    | nil => rfl
    | cons _ _ => cases h
  | endless | inPlace => rfl
  | buffer b =>
    unfold Sink.dispatch at h ⊢
    dsimp only at h ⊢
    split at h
    · next hfits => rw [if_pos hfits]
    · exact absurd h (terms.ending_ne_whole flags)

theorem accepted_of_whole {terms : Dispatch.Terms} {sink : Sink} {departures : List Departure}
    {frame : Octets} {flags : Flags}
    (h : (transmit terms sink departures frame flags).ending = .whole) :
    (transmit terms sink departures frame flags).accepted = frame := by
  fun_induction transmit terms sink departures frame flags with
  | case1 frame flags => exact accepted_dispatch_of_whole h
  | case2 frame flags departure later hempty => exact (List.isEmpty_iff.mp hempty).symm
  | case3 later frame flags _ count _ ih =>
    have hrest := ih h
    rw [Dispatch.after, hrest, List.take_append_drop]
  | case4 _ _ _ _ _ ih => exact ih h
  | case5 => cases h
  | case6 _ _ flags _ wake _ _ ending hstops =>
    obtain rfl : ending = .whole := h
    exact absurd hstops (terms.stops?_ne_whole flags wake)
  | case7 _ _ _ _ _ _ _ _ ih => exact ih h

theorem sink_dispatch_ne_inPlace {terms : Dispatch.Terms} {sink : Sink} {frame : Octets}
    {flags : Flags} (h : sink ≠ .inPlace) :
    (sink.dispatch terms frame flags).sink ≠ .inPlace := by
  cases sink with
  | inPlace => exact absurd rfl h
  | closed | endless => exact nofun
  | buffer b =>
    unfold Sink.dispatch
    dsimp only
    split <;> exact nofun

theorem sink_transmit_ne_inPlace {terms : Dispatch.Terms} {sink : Sink}
    {departures : List Departure} {frame : Octets} {flags : Flags} (h : sink ≠ .inPlace) :
    (transmit terms sink departures frame flags).sink ≠ .inPlace := by
  fun_induction transmit terms sink departures frame flags with
  | case1 frame flags => exact sink_dispatch_ne_inPlace h
  | case3 _ _ _ _ _ _ ih | case4 _ _ _ _ _ ih | case7 _ _ _ _ _ _ _ _ ih => exact ih
  | case2 | case5 | case6 => exact h

/-! ### Lines that accept everything -/

/-- A write that goes on: it takes something, or the wait for room ends well, and the flag `cancel`
is not raised meanwhile. -/
def Departure.Passes (cancel : Nat) : Departure → Prop
  | .takes _ raises | .interrupted raises | .full .ready raises => raises ≠ some cancel
  | .full (.cancel number) raises => number ≠ cancel ∧ raises ≠ some cancel
  | .full .. | .fails .. => False

theorem transmit_of_passes {cancel : Nat} {departures : List Departure} {frame : Octets}
    {flags : Flags} (h : ∀ departure ∈ departures, departure.Passes cancel)
    (hcalm : flags.raised cancel = false) :
    ∃ left flags', transmit ⟨cancel, none⟩ .endless departures frame flags =
        ⟨.whole, frame, .endless, left, flags'⟩ ∧
      flags'.raised cancel = false ∧ ∀ departure ∈ left, departure.Passes cancel := by
  -- on the events rather than the frame: an interrupted write and a full line take nothing of it
  induction departures generalizing frame flags with
  | nil => exact ⟨[], flags, rfl, hcalm, h⟩
  | cons departure later ih =>
    have hlater := fun d hd => h d (List.mem_cons_of_mem departure hd)
    have hfirst := h departure (List.mem_cons_self ..)
    cases frame with
    | nil => exact ⟨departure :: later, flags, rfl, hcalm, h⟩
    | cons octet frame =>
      cases departure with
      | takes count raises =>
        obtain ⟨left, flags', hrun, hleft⟩ := @ih ((octet :: frame).drop count)
          (flags.raise? raises) hlater (Flags.calm_raise? hcalm hfirst)
        refine ⟨left, flags', ?_, hleft⟩
        simp only [transmit, List.isEmpty_cons, Bool.false_eq_true, if_false, hrun, Dispatch.after,
          List.take_append_drop]
      | interrupted raises => exact ih hlater (Flags.calm_raise? hcalm hfirst)
      | fails fault raises => exact hfirst.elim
      | full wake raises =>
        have hseen : (wake.flags flags).raised cancel = false := by
          cases wake with
          | cancel number =>
            have hother : some number ≠ some cancel := fun heq => hfirst.1 (Option.some.inj heq)
            exact Flags.calm_raise? hcalm hother
          | _ => exact hcalm
        have hgoes : Dispatch.Terms.stops? ⟨cancel, none⟩ flags wake = none ∧
            raises ≠ some cancel := by
          cases wake with
          | ready => exact ⟨by simp [Dispatch.Terms.stops?, hseen], hfirst⟩
          | cancel number => exact ⟨by simp [Dispatch.Terms.stops?, hseen], hfirst.2⟩
          | expired | hungUp | fails => exact hfirst.elim
        simp only [transmit, List.isEmpty_cons, Bool.false_eq_true, if_false, hgoes.1]
        exact ih hlater (Flags.calm_raise? hseen hgoes.2)

theorem accepts_of_passes {cancel : Nat} {departures : List Departure} (frames : List Octets)
    (h : ∀ departure ∈ departures, departure.Passes cancel) :
    Accepts cancel frames .endless departures := by
  induction frames generalizing departures with
  | nil => exact .none
  | cons frame later ih =>
    refine .cons nofun ?_ ?_ ?_
    all_goals
      intro flags hcalm
      obtain ⟨left, flags', hrun, hraised, hleft⟩ := @transmit_of_passes cancel departures frame
        flags h hcalm
      rw [hrun]
    · exact hraised
    · exact ih hleft

/-! ### Ports -/

namespace Port

def transmitted (p : Port) (r : Dispatch) (w : World) : World :=
  { w with lines := w.lines.modify p.line fun l => l.dispatched r, flags := r.flags }

theorem line_transmitted {p : Port} {w : World} {line : Line} (r : Dispatch)
    (h : w.lines[p.line]? = some line) :
    (p.transmitted r w).lines[p.line]? = some (line.dispatched r) := by
  simp only [transmitted, Array.getElem?_modify, if_true, h, Option.map_some]

theorem arrivals_dispatched {line : Line} {r : Dispatch} (h : r.sink ≠ .inPlace) :
    (line.dispatched r).arrivals = line.arrivals := by
  unfold Line.dispatched
  cases hs : r.sink with
  | inPlace => exact absurd hs h
  | _ => rfl

theorem send_of_accepts {p : Port} {frame : Octets} {later : List Octets} {w : World} {line : Line}
    (hable : w.exhausted = false) (hcalm : w.flags.raised p.cancel = false)
    (hline : w.lines[p.line]? = some line)
    (h : Accepts p.cancel (frame :: later) line.sink line.departures) :
    ∃ r, (p.send frame).run w = (.ok (), p.transmitted r w) ∧ r.accepted = frame ∧
      r.flags.raised p.cancel = false ∧ (line.dispatched r).arrivals = line.arrivals ∧
      Accepts p.cancel later r.sink r.departures := by
  obtain ⟨⟩ | ⟨hsink, htakes, hraised, hlater⟩ := h
  have hwhole := htakes w.flags hcalm
  have hwait : w.waitFault = none := by
    simp [World.waitFault, hable]
  refine ⟨_, ?_, accepted_of_whole hwhole, hraised w.flags hcalm,
    arrivals_dispatched (sink_transmit_ne_inPlace hsink), hlater w.flags hcalm⟩
  have hsame : transmit { cancel := p.cancel, waitFault := w.waitFault }
      ((w.lines[p.line]?).getD .dead).sink ((w.lines[p.line]?).getD .dead).departures frame w.flags =
      transmit ⟨p.cancel, none⟩ line.sink line.departures frame w.flags := by
    rw [hline, hwait]
    rfl
  simp only [send, StateT.run_bind, StateT.run_get, StateT.run_set, pure_bind, hsame, hwhole]
  rfl

end Port
end RtuStation
