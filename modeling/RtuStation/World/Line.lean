import RtuStation.Fault
import RtuStation.Frame
import RtuStation.World.Buffer

/-!
# Lines

A line carries octets to a station and back. What happens on it is given as a course of events: the
*arrivals* tell what each wait and each read will find, the *departures* what each write and the
wait after it will find, and a state of rest tells what the line does once the events are used up.

`intake` is one reception: it reads octets until the framing is satisfied, the line falls silent or
something ends it. `transmit` is one transmission. Both see cancellation flags, but only while they
wait. A flag may rise at any time: events tell which one rises while they are taken in, when the
wait is over and nothing looks at it before the next one. So a reception can end with a request and
with its flag raised.
-/

namespace RtuStation

/-- What one wait for octets finds. -/
inductive Arrival where
  /-- Octets that can be read; one read takes at most these. A flag may rise as they are read. -/
  | octets (chunk : Octets) (raises : Option Nat := none)
  /-- A silence as long as the byte timeout. A flag may rise when it is over. -/
  | pause (raises : Option Nat := none)
  /-- The line seems readable, but the read finds nothing yet. -/
  | retry (raises : Option Nat := none)
  /-- The wait is interrupted by a signal, which may raise a cancellation flag. -/
  | interrupted (raises : Option Nat)
  /-- A cancellation flag is raised, which ends waits that heed it. -/
  | cancel (number : Nat)
  deriving DecidableEq, Repr

/-- What a line does in the end. A flag may rise when a reception finds it so. -/
inductive Rest where
  | silent
  | ended (raises : Option Nat := none)
  | hungUp (raises : Option Nat := none)
  | reset (raises : Option Nat := none)
  | unreadable (fault : Fault) (raises : Option Nat := none)
  | broken (fault : Fault) (raises : Option Nat := none)
  deriving DecidableEq, Repr

def Rest.raises? : Rest → Option Nat
  | silent => none
  | ended raises | hungUp raises | reset raises => raises
  | unreadable _ raises | broken _ raises => raises

/-- What one wait for room finds. -/
inductive Wake where
  | ready
  | expired
  | hungUp
  | cancel (number : Nat)
  | fails (fault : Fault)
  deriving DecidableEq, Repr

/-- What one write finds, and the wait for room if there is none. A flag may rise when it is over. -/
inductive Departure where
  /-- The line takes up to this many octets. -/
  | takes (count : Nat) (raises : Option Nat := none)
  | interrupted (raises : Option Nat := none)
  | full (wake : Wake) (raises : Option Nat := none)
  | fails (fault : Fault) (raises : Option Nat := none)
  deriving DecidableEq, Repr

inductive Sink where
  | buffer (buffer : Buffer)
  | endless
  /-- It takes everything, and each octet taken stands in the place of the next one to be read. -/
  | inPlace
  | closed (fault : Fault)
  deriving DecidableEq, Repr

/-- A line with what will happen on it, and the octets sent over it that were not yet read. -/
structure Line where
  arrivals : List Arrival := []
  rest : Rest := .silent
  departures : List Departure := []
  sink : Sink
  sent : Octets := []
  left : Bool := false
  deriving DecidableEq, Repr

abbrev Flags := Array Bool

def Flags.raised (flags : Flags) (number : Nat) : Bool := flags.getD number false

def Flags.raise (flags : Flags) (number : Nat) : Flags := flags.setIfInBounds number true

def Flags.raise? (flags : Flags) : Option Nat → Flags
  | none => flags
  | some number => flags.raise number

theorem Flags.raised_raise?_of_ne {raises : Option Nat} {number : Nat} (flags : Flags)
    (h : raises ≠ some number) : (flags.raise? raises).raised number = flags.raised number := by
  cases raises with
  | none => rfl
  | some other =>
    have hne : other ≠ number := fun heq => h (congrArg some heq)
    simp [Flags.raise?, Flags.raise, Flags.raised, hne]

theorem Flags.calm_raise? {raises : Option Nat} {number : Nat} {flags : Flags}
    (hcalm : flags.raised number = false) (h : raises ≠ some number) :
    (flags.raise? raises).raised number = false :=
  (Flags.raised_raise?_of_ne flags h).trans hcalm

/-! ### Receiving -/

namespace FrameLength

def target : FrameLength → Nat
  | atLeast n | exactly n => min n maxFrame
  | untilSilence => maxFrame

/-- Whether a frame of `n` octets is complete: it has its exact length, or fills the space. -/
def satisfied (hint : FrameLength) (n : Nat) : Bool :=
  match hint with
  | exactly _ => hint.target ≤ n
  | _ => maxFrame ≤ n

end FrameLength

inductive Ending where
  | whole
  | crowded
  | silence
  | closed
  | failed (fault : Fault)
  | cancelled
  | waiting
  deriving DecidableEq, Repr

structure Intake.Terms where
  framing : Octets → FrameLength
  /-- The cancellation flag that ends waits. -/
  cancel : Nat
  waitFault : Option Fault

structure Intake.Read where
  asked : Nat
  /-- The octets it gave; none at the end of the stream, and if the read failed. -/
  got : Octets
  deriving DecidableEq, Repr

structure Intake where
  ending : Ending
  context : Octets
  reads : List Intake.Read
  arrivals : List Arrival
  flags : Flags

/-- How a reception ends on a line at rest; `room` is how much the framing allows to read. -/
def Rest.ending (rest : Rest) (context : Octets) (room : Nat) : Ending :=
  match rest with
  | silent => if context.isEmpty then .waiting else .silence
  | hungUp _ => .closed
  | broken fault _ => .failed fault
  | ended _ | reset _ => if room = 0 then .crowded else .closed
  | unreadable fault _ => if room = 0 then .crowded else .failed fault

def Rest.reads (rest : Rest) (room : Nat) : List Intake.Read :=
  match rest with
  | ended _ | reset _ | unreadable .. => if room = 0 then [] else [⟨room, []⟩]
  | _ => []

/-- A measure of what is still to happen: octets and events. -/
def pending : List Arrival → Nat
  | [] => 0
  | .octets chunk _ :: later => chunk.length + 1 + pending later
  | _ :: later => 1 + pending later

def leaveRest (chunk : Octets) (room : Nat) (later : List Arrival) : List Arrival :=
  if chunk.length ≤ room then later else .octets (chunk.drop room) :: later

theorem pending_leaveRest {chunk : Octets} {raises : Option Nat} {room : Nat}
    (later : List Arrival) (hc : chunk ≠ []) (hr : room ≠ 0) :
    pending (leaveRest chunk room later) < pending (.octets chunk raises :: later) := by
  unfold leaveRest
  have := List.length_pos_iff.mpr hc
  split
  · simp [pending]
  · simp only [pending, List.length_drop]
    omega

namespace Intake

def stop (ending : Ending) (context : Octets) (left : List Arrival) (flags : Flags) : Intake :=
  ⟨ending, context, [], left, flags⟩

def after (r : Intake) (read : Read) : Intake := { r with reads := read :: r.reads }

def taken (r : Intake) : Octets := r.reads.flatMap (·.got)

end Intake

/-- One reception (the loop of `FdConnection.receive`): reads octets until the framing is satisfied
or something else ends it. The first octet may take for ever, later ones must come before the byte
timeout. -/
def intake (terms : Intake.Terms) (rest : Rest) (context : Octets) (arrivals : List Arrival)
    (flags : Flags) : Intake :=
  let hint := terms.framing context
  let room := hint.target - context.length
  if hint.satisfied context.length then .stop .whole context arrivals flags
  else if let some fault := terms.waitFault then .stop (.failed fault) context arrivals flags
  else if flags.raised terms.cancel then .stop .cancelled context arrivals flags
  else match arrivals with
    | [] => ⟨rest.ending context room, context, rest.reads room, [], flags.raise? rest.raises?⟩
    | .octets chunk raises :: later =>
      if _hc : chunk = [] then intake terms rest context later (flags.raise? raises)
      else if _hr : room = 0 then
        .stop .crowded context (.octets chunk :: later) (flags.raise? raises)
      else
        (intake terms rest (context ++ chunk.take room) (leaveRest chunk room later)
          (flags.raise? raises)).after ⟨room, chunk.take room⟩
    | .pause raises :: later =>
      if context.isEmpty then intake terms rest context later (flags.raise? raises)
      else .stop .silence context later (flags.raise? raises)
    | .retry raises :: later =>
      if room = 0 then .stop .crowded context later (flags.raise? raises)
      else (intake terms rest context later (flags.raise? raises)).after ⟨room, []⟩
    | .interrupted raises :: later =>
      let flags := flags.raise? raises
      if flags.raised terms.cancel then
        .stop (.failed (.system .interrupted)) context later flags
      else intake terms rest context later flags
    | .cancel number :: later => intake terms rest context later (flags.raise number)
termination_by pending arrivals
decreasing_by
  · simp [pending]
  · exact pending_leaveRest later _hc _hr
  all_goals simp [pending]

theorem got_eq_nil_of_mem_reads {rest : Rest} {room : Nat} {read : Intake.Read}
    (h : read ∈ rest.reads room) : read.got = [] := by
  unfold Rest.reads at h
  split at h <;> grind

theorem context_intake (terms : Intake.Terms) (rest : Rest) (context : Octets)
    (arrivals : List Arrival) (flags : Flags) :
    (intake terms rest context arrivals flags).context =
      context ++ (intake terms rest context arrivals flags).taken := by
  fun_induction intake terms rest context arrivals flags with
  | case4 context flags hint room =>
    have : (rest.reads room).flatMap (·.got) = [] :=
      List.flatMap_eq_nil_iff.mpr fun _ h => got_eq_nil_of_mem_reads h
    simp [Intake.taken, this]
  | case7 _ _ _ _ _ _ _ _ _ _ _ ih => simp_all [Intake.taken, Intake.after]
  | case11 _ _ _ _ _ _ _ _ _ ih => simp_all [Intake.taken, Intake.after]
  | _ => simp_all [Intake.taken, Intake.stop]

/-! ### Sending -/

inductive Dispatch.Ending where
  | whole
  | expired
  | hungUp
  | failed (fault : Fault)
  | cancelled
  deriving DecidableEq, Repr

structure Dispatch where
  ending : Dispatch.Ending
  accepted : Octets
  sink : Sink
  departures : List Departure
  flags : Flags

structure Dispatch.Terms where
  cancel : Nat
  waitFault : Option Fault

def Sink.stop (sink : Sink) (ending : Dispatch.Ending) (left : List Departure) (flags : Flags) :
    Dispatch :=
  ⟨ending, [], sink, left, flags⟩

def Dispatch.after (r : Dispatch) (bytes : Octets) : Dispatch :=
  { r with accepted := bytes ++ r.accepted }

/-- How a wait for room on a full line ends that nothing but the terms bears on. -/
def Dispatch.Terms.ending (terms : Dispatch.Terms) (flags : Flags) : Dispatch.Ending :=
  match terms.waitFault with
  | some fault => .failed fault
  | none => if flags.raised terms.cancel then .cancelled else .expired

def Wake.flags (flags : Flags) : Wake → Flags
  | cancel number => flags.raise number
  | _ => flags

/-- How a wait for room (`FdConnection.wait`) stops the transmission, if it does. A raised flag
comes before what happens on the line. -/
def Dispatch.Terms.stops? (terms : Dispatch.Terms) (flags : Flags) (wake : Wake) :
    Option Dispatch.Ending :=
  match terms.waitFault, wake with
  | some fault, _ | none, .fails fault => some (.failed fault)
  | none, _ =>
    if (wake.flags flags).raised terms.cancel then some .cancelled
    else match wake with
      | .expired => some .expired
      | .hungUp => some .hungUp
      | _ => none

/-- A transmission on a line with no departures left: the buffer takes what it has room for, and
when it is full the wait for room ends as the terms tell. -/
def Sink.dispatch (sink : Sink) (terms : Dispatch.Terms) (frame : Octets) (flags : Flags) :
    Dispatch :=
  match sink with
  | closed fault => sink.stop (if frame.isEmpty then .whole else .failed fault) [] flags
  | endless | inPlace => ⟨.whole, frame, sink, [], flags⟩
  | buffer b =>
    let (taken, b) := b.fill frame.length
    if frame.length ≤ taken then ⟨.whole, frame, buffer b, [], flags⟩
    else ⟨terms.ending flags, frame.take taken, buffer b, [], flags⟩

/-- One transmission (the loop of `FdConnection.send`): writes until the whole frame is taken or
something else ends it. -/
def transmit (terms : Dispatch.Terms) (sink : Sink) :
    List Departure → Octets → Flags → Dispatch
  | [], frame, flags => sink.dispatch terms frame flags
  | departure :: later, frame, flags =>
    if frame.isEmpty then sink.stop .whole (departure :: later) flags
    else match departure with
      | .takes count raises =>
        (transmit terms sink later (frame.drop count) (flags.raise? raises)).after
          (frame.take count)
      | .interrupted raises => transmit terms sink later frame (flags.raise? raises)
      | .fails fault raises => sink.stop (.failed fault) later (flags.raise? raises)
      | .full wake raises =>
        let flags' := (wake.flags flags).raise? raises
        match terms.stops? flags wake with
        | some ending => sink.stop ending later flags'
        | none => transmit terms sink later frame flags'

theorem accepted_dispatch (sink : Sink) (terms : Dispatch.Terms) (frame : Octets)
    (flags : Flags) : ∃ n, (sink.dispatch terms frame flags).accepted = frame.take n := by
  cases sink with
  | closed fault => exact ⟨0, rfl⟩
  | endless | inPlace => exact ⟨frame.length, (List.take_length ..).symm⟩
  | buffer b =>
    unfold Sink.dispatch
    dsimp only
    split
    · exact ⟨frame.length, (List.take_length ..).symm⟩
    · exact ⟨_, rfl⟩

/-- The line takes a start of the frame, in its order and without repetition. -/
theorem accepted_transmit (terms : Dispatch.Terms) (sink : Sink) (departures : List Departure)
    (frame : Octets) (flags : Flags) :
    ∃ n, (transmit terms sink departures frame flags).accepted = frame.take n := by
  fun_induction transmit terms sink departures frame flags with
  | case1 frame flags => exact accepted_dispatch sink terms frame flags
  | case3 later frame flags _ count _ ih =>
    obtain ⟨n, hn⟩ := ih
    refine ⟨count + n, ?_⟩
    rw [Dispatch.after, hn, List.take_add]
  | case4 | case7 => assumption
  | _ => exact ⟨0, rfl⟩

/-! ### The other end -/

namespace Line

def deliver (line : Line) (bytes : Octets) : Line :=
  let arrivals :=
    match line.arrivals.getLast? with
    | some (.octets chunk raises) => line.arrivals.dropLast ++ [.octets (chunk ++ bytes) raises]
    | _ => line.arrivals ++ [.octets bytes]
  { line with arrivals := arrivals }

def leave (line : Line) : Line := { line with left := true }

/-- Arrivals without their next octets, as far as these come before anything else. -/
def passOver : Nat → List Arrival → List Arrival
  | n, .octets chunk raises :: later =>
    if chunk.length ≤ n then passOver (n - chunk.length) later
    else .octets (chunk.drop n) raises :: later
  | _, arrivals => arrivals

def dispatched (line : Line) (r : Dispatch) : Line where
  arrivals :=
    match r.sink with
    | .inPlace => passOver r.accepted.length line.arrivals
    | _ => line.arrivals
  rest := line.rest
  departures := r.departures
  sink := r.sink
  sent := line.sent ++ r.accepted
  left := line.left

def collect (line : Line) (n : Nat) : Octets × Line :=
  let sink := match line.sink with
    | .buffer b => .buffer (b.read n)
    | sink => sink
  (line.sent.take n, { line with sent := line.sent.drop n, sink })

def flush (line : Line) : Line :=
  let (kept, sink) := match line.sink with
    | .buffer b =>
      let (kept, b) := b.discard
      (kept, Sink.buffer b)
    | sink => (0, sink)
  { line with
    arrivals := line.arrivals.dropWhile fun
      | .octets .. => true
      | _ => false
    sink
    sent := line.sent.take kept }

end Line
end RtuStation
