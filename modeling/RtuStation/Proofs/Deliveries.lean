import RtuStation.Connection
import RtuStation.Proofs.Framing

/-!
# Frames delivered one after the other

`Delivers` tells of the events on a line that they bring frames one right after the other, cut into
any pieces, with no silence within a frame and without cancellation. Each reception on such a line
finds the first of the frames, and leaves events that bring the others.
-/

namespace RtuStation

/-! ### Events on a line -/

namespace Arrival

def carries : Arrival → Octets
  | octets chunk _ => chunk
  | _ => []

def raises? : Arrival → Option Nat
  | octets _ raises | pause raises | retry raises | interrupted raises => raises
  | cancel number => some number

def isPause : Arrival → Bool
  | pause _ => true
  | _ => false

end Arrival

def carried (arrivals : List Arrival) : Octets := arrivals.flatMap Arrival.carries

theorem carried_cons (a : Arrival) (later : List Arrival) :
    carried (a :: later) = a.carries ++ carried later := rfl

theorem carried_leaveRest (chunk : Octets) (room : Nat) (later : List Arrival) :
    carried (leaveRest chunk room later) = chunk.drop room ++ carried later := by
  unfold leaveRest
  split
  · next h => rw [List.drop_eq_nil_of_le h, List.nil_append]
  · rfl

theorem calm_leaveRest {cancel : Nat} {chunk : Octets} {raises : Option Nat}
    {later : List Arrival} (h : ∀ a ∈ .octets chunk raises :: later, a.raises? ≠ some cancel)
    (room : Nat) :
    ∀ a ∈ leaveRest chunk room later, a.raises? ≠ some cancel := by
  intro a ha
  unfold leaveRest at ha
  split at ha
  · exact h a (List.mem_cons_of_mem _ ha)
  · rcases List.mem_cons.mp ha with rfl | ha
    · exact nofun
    · exact h a (List.mem_cons_of_mem _ ha)

theorem length_carried_le (arrivals : List Arrival) : (carried arrivals).length ≤ pending arrivals := by
  induction arrivals with
  | nil => exact Nat.le_refl 0
  | cons a later ih =>
    rw [carried_cons, List.length_append]
    cases a with
    | octets chunk =>
      simp only [Arrival.carries, pending]
      omega
    | _ =>
      simp only [Arrival.carries, pending, List.length_nil]
      omega

theorem length_le_length_flatten {frames : List Octets} (h : ∀ frame ∈ frames, frame ≠ []) :
    frames.length ≤ frames.flatten.length := by
  induction frames with
  | nil => exact Nat.le_refl 0
  | cons frame frames ih =>
    have hrest := ih fun f hf => h f (List.mem_cons_of_mem frame hf)
    have hfirst := List.length_pos_iff.mpr (h frame (List.mem_cons_self ..))
    rw [List.flatten_cons, List.length_append, List.length_cons]
    omega

/-- A start of what the frames make up that ends within none of them: between two of them, or behind
the last. -/
def Apart (frames : List Octets) (start : Octets) : Prop :=
  (∃ k, start = (frames.take k).flatten) ∨ frames.flatten <+: start

/-- With the octets taken already, the events carry the frames one after the other and then what is
behind them. No silence falls within a frame, and no event raises the flag `cancel`. -/
structure Delivers (cancel : Nat) (frames : List Octets) (behind taken : Octets)
    (arrivals : List Arrival) : Prop where
  octets : taken ++ carried arrivals = frames.flatten ++ behind
  pauses (before later : List Arrival) (raises : Option Nat) :
    arrivals = before ++ .pause raises :: later → Apart frames (taken ++ carried before)
  calm : ∀ a ∈ arrivals, a.raises? ≠ some cancel

namespace Delivers

variable {cancel : Nat} {frames : List Octets} {frame behind taken : Octets}
variable {a : Arrival} {later : List Arrival}

theorem none (cancel : Nat) (frames : List Octets) (behind : Octets) :
    Delivers cancel frames behind (frames.flatten ++ behind) [] where
  octets := List.append_nil _
  pauses := by
    intro before after raises hsplit
    exact absurd hsplit.symm (List.append_ne_nil_of_right_ne_nil before nofun)
  calm := nofun

theorem cons (hcalm : a.raises? ≠ some cancel) (hpause : a.isPause = true → Apart frames taken)
    (h : Delivers cancel frames behind (taken ++ a.carries) later) :
    Delivers cancel frames behind taken (a :: later) where
  octets := by
    rw [carried_cons, ← List.append_assoc]
    exact h.octets
  pauses := by
    intro before after raises hsplit
    cases before with
    | nil =>
      have hstart := hpause (congrArg Arrival.isPause (List.cons.inj hsplit).1)
      rwa [carried, List.flatMap_nil, List.append_nil]
    | cons first before =>
      obtain ⟨rfl, hlater⟩ := List.cons.inj hsplit
      rw [carried_cons, ← List.append_assoc]
      exact h.pauses before after raises hlater
  calm := by
    intro b hb
    rcases List.mem_cons.mp hb with rfl | hb
    · exact hcalm
    · exact h.calm b hb

theorem skip (h : Delivers cancel frames behind taken (a :: later)) (hnone : a.carries = []) :
    Delivers cancel frames behind taken later where
  octets := by
    have hoctets := h.octets
    rwa [carried_cons, hnone, List.nil_append] at hoctets
  pauses := by
    intro before after raises hsplit
    have hpause := h.pauses (a :: before) after raises (by rw [hsplit]; rfl)
    rwa [carried_cons, hnone, List.nil_append] at hpause
  calm := fun b hb => h.calm b (List.mem_cons_of_mem a hb)

theorem read {chunk : Octets} {raises : Option Nat}
    (h : Delivers cancel frames behind taken (.octets chunk raises :: later)) (room : Nat) :
    Delivers cancel frames behind (taken ++ chunk.take room) (leaveRest chunk room later) where
  octets := by
    rw [carried_leaveRest, List.append_assoc, ← List.append_assoc (chunk.take room),
      List.take_append_drop]
    exact h.octets
  pauses := by
    intro before after pauses hsplit
    unfold leaveRest at hsplit
    split at hsplit
    · next hroom =>
      have hpause := h.pauses (.octets chunk raises :: before) after pauses (by rw [hsplit]; rfl)
      rwa [List.take_of_length_le hroom, List.append_assoc]
    · cases before with
      | nil => simp at hsplit
      | cons first before =>
        obtain ⟨hfirst, hlater⟩ := List.cons.inj hsplit
        have hpause := h.pauses (.octets chunk raises :: before) after pauses (by rw [hlater]; rfl)
        rw [← hfirst, carried_cons, List.append_assoc, ← List.append_assoc (chunk.take room)]
        simp only [Arrival.carries, List.take_append_drop]
        exact hpause
  calm := calm_leaveRest h.calm room

theorem prefix_frame {arrivals : List Arrival}
    (h : Delivers cancel (frame :: frames) behind taken arrivals)
    (hlen : taken.length ≤ frame.length) : taken <+: frame := by
  have htaken : taken <+: frame ++ (frames.flatten ++ behind) := by
    refine ⟨carried arrivals, ?_⟩
    rw [h.octets, List.flatten_cons, List.append_assoc]
  exact List.prefix_of_prefix_length_le htaken (List.prefix_append ..) hlen

theorem length_le_pending {arrivals : List Arrival} (h : Delivers cancel frames behind [] arrivals)
    (hframes : ∀ frame ∈ frames, frame ≠ []) : frames.length ≤ pending arrivals := by
  have hoctets := length_le_length_flatten hframes
  have hcarried := congrArg List.length h.octets
  have hpending := length_carried_le arrivals
  rw [List.nil_append, List.length_append] at hcarried
  omega

/-- Within a frame there is something more to come. -/
theorem not_exhausted (h : Delivers cancel (frame :: frames) behind taken []) :
    frame.length ≤ taken.length := by
  have hlen := congrArg List.length h.octets
  simp only [carried, List.flatMap_nil, List.append_nil, List.flatten_cons, List.length_append]
    at hlen
  omega

theorem not_within {raises : Option Nat}
    (h : Delivers cancel (frame :: frames) behind taken (.pause raises :: later)) :
    taken = [] ∨ frame.length ≤ taken.length := by
  have hpause := h.pauses [] later raises rfl
  simp only [carried, List.flatMap_nil, List.append_nil] at hpause
  rcases hpause with ⟨k, hk⟩ | hall
  · cases k with
    | zero => exact .inl hk
    | succ k =>
      right
      rw [hk, List.take_succ_cons, List.flatten_cons, List.length_append]
      omega
  · right
    have hlen := hall.length_le
    rw [List.flatten_cons, List.length_append] at hlen
    omega

theorem shift {arrivals : List Arrival} (h : Delivers cancel (frame :: frames) behind frame arrivals)
    (hframe : frame ≠ []) : Delivers cancel frames behind [] arrivals where
  octets := by
    have hoctets := h.octets
    rw [List.flatten_cons, List.append_assoc] at hoctets
    exact List.append_cancel_left hoctets
  pauses := by
    intro before later raises hsplit
    rcases h.pauses before later raises hsplit with ⟨k, hk⟩ | hall
    · cases k with
      | zero => exact absurd (List.append_eq_nil_iff.mp hk).1 hframe
      | succ k =>
        rw [List.take_succ_cons, List.flatten_cons] at hk
        exact .inl ⟨k, List.append_cancel_left hk⟩
    · rw [List.flatten_cons] at hall
      exact .inr (List.prefix_append_right_inj frame |>.mp hall)
  calm := h.calm

end Delivers

/-! ### Receptions -/

def Rest.Ends : Rest → Prop
  | ended _ | hungUp _ | reset _ => True
  | silent | unreadable .. | broken .. => False

theorem Rest.ending_of_ends {rest : Rest} (h : rest.Ends) (context : Octets) {room : Nat}
    (hroom : room ≠ 0) : rest.ending context room = .closed := by
  cases rest with
  | ended | reset => exact if_neg hroom
  | hungUp => rfl
  | silent | unreadable | broken => exact h.elim

theorem Rest.ending_ne_whole (rest : Rest) (context : Octets) (room : Nat) :
    rest.ending context room ≠ .whole := by
  unfold ending
  cases rest with
  | hungUp | broken => exact nofun
  | silent | ended | reset | unreadable =>
    dsimp only
    split <;> exact nofun

namespace Intake

/-- How a reception goes from the octets it has to its end where waiting is possible and nothing
cancels it: the end, the octets it has then, and the events it leaves. -/
inductive Undisturbed (framing : Octets → FrameLength) (rest : Rest) :
    Octets → List Arrival → Ending → Octets → List Arrival → Prop
  | whole {context : Octets} {arrivals : List Arrival}
    (satisfied : (framing context).satisfied context.length = true) :
    Undisturbed framing rest context arrivals .whole context arrivals
  | atRest {context : Octets} (unsatisfied : ¬(framing context).satisfied context.length = true) :
    Undisturbed framing rest context []
      (rest.ending context ((framing context).target - context.length)) context []
  | skip {context full : Octets} {a : Arrival} {later left : List Arrival} {ending : Ending}
    (nothing : a.carries = []) (noPause : a.isPause = false)
    (following : Undisturbed framing rest context later ending full left) :
    Undisturbed framing rest context (a :: later) ending full left
  | crowded {context : Octets} {arrivals left : List Arrival}
    (unsatisfied : ¬(framing context).satisfied context.length = true)
    (noRoom : (framing context).target - context.length = 0) :
    Undisturbed framing rest context arrivals .crowded context left
  | read {context full chunk : Octets} {raises : Option Nat} {later left : List Arrival}
    {ending : Ending} {room : Nat}
    (unsatisfied : ¬(framing context).satisfied context.length = true) (content : chunk ≠ [])
    (space : room = (framing context).target - context.length)
    (following : Undisturbed framing rest (context ++ chunk.take room)
      (leaveRest chunk room later) ending full left) :
    Undisturbed framing rest context (.octets chunk raises :: later) ending full left
  | pause {full : Octets} {raises : Option Nat} {later left : List Arrival} {ending : Ending}
    (following : Undisturbed framing rest [] later ending full left) :
    Undisturbed framing rest [] (.pause raises :: later) ending full left
  | silence {context : Octets} {raises : Option Nat} {later : List Arrival}
    (unsatisfied : ¬(framing context).satisfied context.length = true) (begun : context ≠ []) :
    Undisturbed framing rest context (.pause raises :: later) .silence context later

theorem eq_mk {r : Intake} {ending : Ending} {context : Octets} (hending : r.ending = ending)
    (hcontext : r.context = context) : r = ⟨ending, context, r.reads, r.arrivals, r.flags⟩ := by
  rw [← hending, ← hcontext]

/-- On a line where no event raises the flag it is raised by what the line does in the end, if at
all. -/
theorem undisturbed_intake {terms : Terms} (rest : Rest) (context : Octets)
    {arrivals : List Arrival} {flags : Flags} (hwait : terms.waitFault = none)
    (hflag : flags.raised terms.cancel = false)
    (hcalm : ∀ a ∈ arrivals, a.raises? ≠ some terms.cancel) :
    ((intake terms rest context arrivals flags).flags.raised terms.cancel = true →
        rest.raises? = some terms.cancel ∧
          (intake terms rest context arrivals flags).ending ≠ .whole) ∧
      Undisturbed terms.framing rest context arrivals
        (intake terms rest context arrivals flags).ending
        (intake terms rest context arrivals flags).context
        (intake terms rest context arrivals flags).arrivals := by
  have hnever {flags : Flags} {P : Prop} (hflag : flags.raised terms.cancel = false)
      (hraised : flags.raised terms.cancel = true) : P := by
    rw [hflag] at hraised
    cases hraised
  fun_induction intake terms rest context arrivals flags with
  | case1 _ _ _ _ hsatisfied => exact ⟨hnever hflag, .whole hsatisfied⟩
  | case2 _ _ _ _ _ fault hfault =>
    rw [hwait] at hfault
    cases hfault
  | case3 _ _ _ _ _ hraised => exact hnever hflag hraised
  | case4 _ flags _ _ hopen =>
    refine ⟨fun hraised => ?_, .atRest hopen⟩
    by_cases hother : rest.raises? = some terms.cancel
    · exact ⟨hother, rest.ending_ne_whole _ _⟩
    · exact hnever (Flags.calm_raise? hflag hother) hraised
  | case5 _ _ _ _ _ _ _ _ ih =>
    obtain ⟨hother, hlater⟩ := List.forall_mem_cons.mp hcalm
    obtain ⟨hraised, hfollowing⟩ := ih (Flags.calm_raise? hflag hother) hlater
    exact ⟨hraised, .skip rfl rfl hfollowing⟩
  | case6 _ _ _ _ hopen _ _ _ _ _ hzero =>
    have hother := (List.forall_mem_cons.mp hcalm).1
    exact ⟨hnever (Flags.calm_raise? hflag hother), .crowded hopen hzero⟩
  | case7 _ _ _ room hopen _ _ _ _ hchunk _ _ ih =>
    have hother := (List.forall_mem_cons.mp hcalm).1
    obtain ⟨hraised, hfollowing⟩ := ih (Flags.calm_raise? hflag hother) (calm_leaveRest hcalm room)
    exact ⟨hraised, .read hopen hchunk rfl hfollowing⟩
  | case8 context _ _ _ _ _ _ hnone _ ih =>
    obtain ⟨hother, hlater⟩ := List.forall_mem_cons.mp hcalm
    obtain ⟨hraised, hfollowing⟩ := ih (Flags.calm_raise? hflag hother) hlater
    obtain rfl : context = [] := List.isEmpty_iff.mp hnone
    exact ⟨hraised, .pause hfollowing⟩
  | case9 _ _ _ hopen _ _ _ hsome =>
    have hother := (List.forall_mem_cons.mp hcalm).1
    exact ⟨hnever (Flags.calm_raise? hflag hother),
      .silence hopen fun hnone => hsome (List.isEmpty_iff.mpr hnone)⟩
  | case10 _ _ _ _ hopen _ _ _ hzero =>
    have hother := (List.forall_mem_cons.mp hcalm).1
    exact ⟨hnever (Flags.calm_raise? hflag hother), .crowded hopen hzero⟩
  | case11 _ _ _ _ _ _ _ _ _ _ ih =>
    obtain ⟨hother, hlater⟩ := List.forall_mem_cons.mp hcalm
    obtain ⟨hraised, hfollowing⟩ := ih (Flags.calm_raise? hflag hother) hlater
    exact ⟨hraised, .skip rfl rfl hfollowing⟩
  | case12 _ _ _ _ _ _ _ _ hraised =>
    have hother := (List.forall_mem_cons.mp hcalm).1
    exact hnever (Flags.calm_raise? hflag hother) hraised
  | case13 _ _ _ _ _ _ _ _ hraised _ ih =>
    obtain ⟨hraised, hfollowing⟩ := ih (Bool.eq_false_iff.mpr hraised)
      (List.forall_mem_cons.mp hcalm).2
    exact ⟨hraised, .skip rfl rfl hfollowing⟩
  | case14 _ _ _ _ _ _ _ _ ih =>
    obtain ⟨hother, hlater⟩ := List.forall_mem_cons.mp hcalm
    obtain ⟨hraised, hfollowing⟩ := ih (Flags.calm_raise? hflag hother) hlater
    exact ⟨hraised, .skip rfl rfl hfollowing⟩

namespace Undisturbed

variable {framing : Octets → FrameLength} {rest : Rest} {taken full : Octets}
variable {arrivals left : List Arrival} {ending : Ending} {cancel : Nat}

/-- Where the first of the delivered frames has begun, the rest of it is taken and nothing more. -/
theorem of_delivers {frame behind : Octets} {frames : List Octets}
    (hcourse : Undisturbed framing rest taken arrivals ending full left)
    (hcuts : FrameLength.Cuts framing frame)
    (h : Delivers cancel (frame :: frames) behind taken arrivals)
    (hlen : taken.length ≤ frame.length) :
    ending = .whole ∧ full = frame ∧ Delivers cancel (frame :: frames) behind frame left := by
  -- Along the reads the octets taken stay a start of the first frame, so that the framing never
  -- leaves room for an octet behind it.
  induction hcourse with
  | whole satisfied =>
    have heq := hcuts.eq_of_satisfied (h.prefix_frame hlen) satisfied
    subst heq
    exact ⟨rfl, rfl, h⟩
  | atRest unsatisfied =>
    have hroom := hcuts.room (h.prefix_frame hlen) unsatisfied
    have hwhole := h.not_exhausted
    omega
  | skip nothing noPause _ ih => exact ih (h.skip nothing) hlen
  | crowded unsatisfied noRoom =>
    have hroom := hcuts.room (h.prefix_frame hlen) unsatisfied
    omega
  | @read context _ chunk _ _ _ _ room unsatisfied content space _ ih =>
    have hroom := hcuts.room (h.prefix_frame hlen) unsatisfied
    have htaken : (context ++ chunk.take room).length ≤ frame.length := by
      rw [List.length_append, List.length_take]
      omega
    exact ih (h.read room) htaken
  | pause _ ih => exact ih (h.skip rfl) hlen
  | silence unsatisfied begun =>
    -- a silence would end the reception, but it cannot fall within the frame
    have hroom := hcuts.room (h.prefix_frame hlen) unsatisfied
    rcases h.not_within with hnone | hwhole
    · exact absurd hnone begun
    · omega

/-- Where nothing comes any more, the end of the line is found. -/
theorem of_ends (hcourse : Undisturbed framing rest taken arrivals ending full left)
    (hrest : rest.Ends) (hstart : (framing []).satisfied 0 = false)
    (hroom : (framing []).target ≠ 0) (htaken : taken = [])
    (h : Delivers cancel [] [] taken arrivals) : ending = .closed ∧ full = [] := by
  induction hcourse with
  | whole satisfied =>
    subst htaken
    rw [show (framing []).satisfied 0 = true from satisfied] at hstart
    cases hstart
  | atRest unsatisfied =>
    subst htaken
    exact ⟨Rest.ending_of_ends hrest [] hroom, rfl⟩
  | skip nothing noPause _ ih => exact ih htaken (h.skip nothing)
  | crowded unsatisfied noRoom =>
    subst htaken
    exact absurd noRoom hroom
  | read unsatisfied content space =>
    have hnone := (List.append_eq_nil_iff.mp h.octets).2
    exact absurd (List.append_eq_nil_iff.mp hnone).1 content
  | pause _ ih => exact ih rfl (h.skip rfl)
  | silence unsatisfied begun => exact absurd htaken begun

end Undisturbed

end Intake

theorem intake_of_delivers {terms : Intake.Terms} {frame behind taken : Octets}
    {frames : List Octets} {arrivals : List Arrival} {flags : Flags} (rest : Rest)
    (hcuts : FrameLength.Cuts terms.framing frame) (hwait : terms.waitFault = none)
    (hflag : flags.raised terms.cancel = false)
    (h : Delivers terms.cancel (frame :: frames) behind taken arrivals)
    (hlen : taken.length ≤ frame.length) :
    ∃ reads left flags', intake terms rest taken arrivals flags =
        ⟨.whole, frame, reads, left, flags'⟩ ∧
      flags'.raised terms.cancel = false ∧
      Delivers terms.cancel (frame :: frames) behind frame left := by
  obtain ⟨hraised, hcourse⟩ := Intake.undisturbed_intake rest taken hwait hflag h.calm
  obtain ⟨hending, hfull, hleft⟩ := hcourse.of_delivers hcuts h hlen
  refine ⟨_, _, _, Intake.eq_mk hending hfull, ?_, hleft⟩
  exact Bool.eq_false_iff.mpr fun hup => (hraised hup).2 hending

theorem intake_of_ends {terms : Intake.Terms} {rest : Rest} {arrivals : List Arrival}
    {flags : Flags} (hrest : rest.Ends) (hstart : (terms.framing []).satisfied 0 = false)
    (hroom : (terms.framing []).target ≠ 0) (hwait : terms.waitFault = none)
    (hflag : flags.raised terms.cancel = false) (h : Delivers terms.cancel [] [] [] arrivals) :
    ∃ reads left flags', intake terms rest [] arrivals flags =
      ⟨.closed, [], reads, left, flags'⟩ := by
  obtain ⟨-, hcourse⟩ := Intake.undisturbed_intake rest [] hwait hflag h.calm
  obtain ⟨hending, hfull⟩ := hcourse.of_ends hrest hstart hroom rfl h
  exact ⟨_, _, _, Intake.eq_mk hending hfull⟩

namespace Port

/-- The line of a port still brings frames, and what is behind them; waiting for octets is possible,
and the port's cancellation flag is not raised. -/
structure Expects (p : Port) (frames : List Octets) (behind : Octets) (w : World) : Prop where
  able : w.exhausted = false
  calm : w.flags.raised p.cancel = false
  brings : ∃ line, w.lines[p.line]? = some line ∧
    Delivers p.cancel frames behind [] line.arrivals

theorem line_received {p : Port} {w : World} {line : Line} (r : Intake)
    (h : w.lines[p.line]? = some line) :
    (p.received r w).lines[p.line]? = some { line with arrivals := r.arrivals } := by
  simp only [received, Array.getElem?_modify, if_true, h, Option.map_some]

theorem receive_run {framing : Octets → FrameLength} {p : Port} {w : World} {line : Line}
    {r : Intake} (hopen : p.closed = false) (hline : w.lines[p.line]? = some line)
    (hintake : intake (p.terms framing w) line.rest [] line.arrivals w.flags = r) :
    (p.receive framing).run w = (p.conclude framing r).run (p.received r w) := by
  subst hintake
  simp only [receive, hopen, Bool.false_eq_true, if_false, StateT.run_bind, StateT.run_get,
    StateT.run_set, pure_bind, hline]
  rfl

theorem receive_of_expects {framing : Octets → FrameLength} {p : Port} {frame behind : Octets}
    {frames : List Octets} {w : World} (hopen : p.closed = false)
    (hcuts : FrameLength.Cuts framing frame) (hframe : frame ≠ [])
    (h : p.Expects (frame :: frames) behind w) :
    ∃ r, (p.receive framing).run w = ((⟨frame, .ok .request⟩, p), p.received r w) ∧
      p.Expects frames behind (p.received r w) := by
  obtain ⟨line, hline, hdelivers⟩ := h.brings
  have hwait : (p.terms framing w).waitFault = none := by
    simp [terms, World.waitFault, h.able]
  obtain ⟨reads, left, flags, hintake, hcalm, hleft⟩ :=
    intake_of_delivers line.rest hcuts hwait h.calm hdelivers (Nat.zero_le _)
  refine ⟨_, receive_run hopen hline hintake, h.able, hcalm, ?_⟩
  exact ⟨_, line_received _ hline, hleft.shift hframe⟩

theorem receive_of_ends {framing : Octets → FrameLength} {p : Port} {w : World} {line : Line}
    (hopen : p.closed = false) (hable : w.exhausted = false)
    (hcalm : w.flags.raised p.cancel = false) (hline : w.lines[p.line]? = some line)
    (hrest : line.rest.Ends) (hstart : (framing []).satisfied 0 = false)
    (hroom : (framing []).target ≠ 0) (h : Delivers p.cancel [] [] [] line.arrivals) :
    ∃ r, (p.receive framing).run w =
      ((⟨[], .ok .peerClosed⟩, { p with closed := true }), p.received r w) := by
  have hwait : (p.terms framing w).waitFault = none := by
    simp [terms, World.waitFault, hable]
  obtain ⟨reads, left, flags, hintake⟩ :=
    @intake_of_ends (p.terms framing w) line.rest line.arrivals w.flags hrest hstart hroom hwait
      hcalm h
  exact ⟨_, receive_run hopen hline hintake⟩

def receives (framing : Octets → FrameLength) : Nat → Port → Deed (List Reception × Port)
  | 0, p => return ([], p)
  | n + 1, p => do
    let (first, p) ← p.receive framing
    let (others, p) ← receives framing n p
    return (first :: others, p)

theorem receives_succ (framing : Octets → FrameLength) (n : Nat) (p : Port) (w : World) :
    (p.receives framing (n + 1)).run w =
      let first := (p.receive framing).run w
      let others := (first.1.2.receives framing n).run first.2
      ((first.1.1 :: others.1.1, others.1.2), others.2) := rfl

theorem receives_of_expects {framing : Octets → FrameLength} {p : Port} {behind : Octets}
    {frames : List Octets} {w : World} {n : Nat} (hopen : p.closed = false)
    (hcuts : ∀ frame ∈ frames, FrameLength.Cuts framing frame ∧ frame ≠ [])
    (h : p.Expects frames behind w) (hn : n ≤ frames.length) :
    ∃ after, (p.receives framing n).run w =
        (((frames.take n).map fun frame => ⟨frame, .ok .request⟩, p), after) ∧
      p.Expects (frames.drop n) behind after := by
  induction n generalizing frames w with
  | zero => exact ⟨w, rfl, h⟩
  | succ n ih =>
    cases frames with
    | nil => exact absurd hn (Nat.not_succ_le_zero n)
    | cons frame frames =>
      obtain ⟨hcut, hframe⟩ := hcuts frame (List.mem_cons_self ..)
      obtain ⟨r, hfirst, hexpects⟩ := receive_of_expects hopen hcut hframe h
      obtain ⟨after, hothers, hafter⟩ := ih (fun f hf => hcuts f (List.mem_cons_of_mem _ hf))
        hexpects (Nat.le_of_succ_le_succ hn)
      refine ⟨after, ?_, hafter⟩
      simp only [receives_succ, hfirst, hothers]
      rfl

/-- Requests that follow each other without a gap are split exactly: however they are cut into pieces
on the line, each reception finds one of them whole, and the octets of the next ones are left. -/
theorem receives_split_requests {p : Port} {w : World} {line : Line} {frames : List Octets}
    {behind : Octets} {n : Nat} (hopen : p.closed = false) (hable : w.exhausted = false)
    (hcalm : w.flags.raised p.cancel = false) (hline : w.lines[p.line]? = some line)
    (hwhole : ∀ frame ∈ frames, Whole frame)
    (hdelivers : Delivers p.cancel frames behind [] line.arrivals) (hn : n ≤ frames.length) :
    ∃ after left, (p.receives FrameLength.ofRequest n).run w =
        (((frames.take n).map fun frame => ⟨frame, .ok .request⟩, p), after) ∧
      after.lines[p.line]? = some left ∧
      carried left.arrivals = (frames.drop n).flatten ++ behind := by
  have hexpects : p.Expects frames behind w := ⟨hable, hcalm, line, hline, hdelivers⟩
  obtain ⟨after, hrun, hafter⟩ := receives_of_expects hopen
    (fun frame hframe => ⟨FrameLength.cuts_ofRequest (hwhole frame hframe),
      (hwhole frame hframe).ne_nil⟩) hexpects hn
  obtain ⟨left, hleft, hrest⟩ := hafter.brings
  exact ⟨after, left, hrun, hleft, hrest.octets⟩

/-- A read request and a write request, of which the first piece brings one octet and another piece
the end of the one and the start of the other. -/
def readRequest : Octets := [0x07, 0x03, 0x00, 0x10, 0x00, 0x01, 0x85, 0xA9]

def writeRequest : Octets := [0x07, 0x10, 0x00, 0x10, 0x00, 0x01, 0x02, 0xBE, 0xEF, 0x00, 0x00]

def pieces : List Arrival :=
  [.octets [0x07], .octets [0x03, 0x00, 0x10, 0x00], .retry,
    .octets [0x01, 0x85, 0xA9, 0x07, 0x10, 0x00], .interrupted none,
    .octets [0x10, 0x00, 0x01, 0x02, 0xBE, 0xEF, 0x00, 0x00], .pause]

def piecemeal : World where
  lines := #[{ sink := .endless, arrivals := pieces }]
  flags := #[false]

theorem delivers_pieces : Delivers 0 [readRequest, writeRequest] [] [] pieces := by
  iterate 6 refine Delivers.cons nofun nofun ?_
  refine Delivers.cons nofun (fun _ => .inl ⟨2, rfl⟩) ?_
  exact Delivers.none 0 [readRequest, writeRequest] []

theorem pieces_are_split :
    ∃ after left, (({ line := 0, cancel := 0 } : Port).receives FrameLength.ofRequest 2).run
        piecemeal =
      (([⟨readRequest, .ok .request⟩, ⟨writeRequest, .ok .request⟩], { line := 0, cancel := 0 }),
        after) ∧
      after.lines[0]? = some left ∧ carried left.arrivals = [] := by
  have hread : Whole readRequest := ⟨.fixed (by decide) rfl, by decide⟩
  have hwrite : Whole writeRequest :=
    ⟨@Stated.counted 0x07 0x10 0x02 [0x00, 0x10, 0x00, 0x01] [0xBE, 0xEF, 0x00, 0x00] (by decide) rfl
      rfl, by decide⟩
  have hwhole : ∀ frame ∈ [readRequest, writeRequest], Whole frame := by
    intro frame hframe
    simp only [List.mem_cons, List.not_mem_nil, or_false] at hframe
    rcases hframe with rfl | rfl
    · exact hread
    · exact hwrite
  exact @receives_split_requests { line := 0, cancel := 0 } piecemeal
    { sink := .endless, arrivals := pieces } [readRequest, writeRequest] [] 2 rfl rfl rfl rfl hwhole
    delivers_pieces (by decide)

end Port
end RtuStation
