import RtuStation.Proofs.Deliveries

/-!
# Bursts of octets

What arrives between two silences is a burst: requests, parts of requests, or noise. `bursts` tells
the bursts on a line from its events, and `cut` the frames that a burst falls into, which its octets
alone decide and not the pieces it arrives in. A silence ends the last frame of a burst, so that the
first octet of the next burst begins a frame.
-/

namespace RtuStation

/-! ### Where the first frame of a burst ends -/

namespace FrameLength

/-- The length that a hint settles; without one, a frame may become as long as frames can be. -/
def settled : FrameLength → Nat
  | exactly n => n
  | _ => maxFrame

/-- How long the first frame of a burst becomes if the burst is long enough. -/
def told (burst : Octets) : Nat := (ofRequest burst).settled

theorem settled_counted_bounds (start : Octets) (position fixed : Nat) (hfixed : 4 ≤ fixed) :
    4 ≤ (counted start position fixed).settled ∧
      (counted start position fixed).settled ≤ maxFrame := by
  have hmax : maxFrame = 256 := rfl
  unfold counted
  split
  all_goals
    simp only [settled]
    omega

theorem told_bounds (burst : Octets) : 4 ≤ told burst ∧ told burst ≤ maxFrame := by
  have hsix := settled_counted_bounds burst 6 9 (by decide)
  have hten := settled_counted_bounds burst 10 13 (by decide)
  unfold told ofRequest
  split
  · split
    · exact ⟨by decide, Nat.le_refl _⟩
    · exact ⟨by decide, by decide⟩
    · exact ⟨by decide, by decide⟩
    · exact hsix
    · exact hsix
    · exact hten
    · exact ⟨by decide, by decide⟩
  · exact ⟨by decide, Nat.le_refl _⟩

theorem counted_of_start {start burst : Octets} (h : start <+: burst) {position fixed : Nat}
    (hfixed : position < fixed) (hmax : position < maxFrame) :
    counted start position fixed = .exactly (counted burst position fixed).settled ∨
      ∃ n, counted start position fixed = .atLeast n ∧ start.length < n ∧
        n ≤ (counted burst position fixed).settled := by
  by_cases hlen : position < start.length
  · left
    obtain ⟨rest, rfl⟩ := h
    have hcount : (start ++ rest)[position]? = start[position]? := List.getElem?_append_left hlen
    have hsome : start[position]? = some start[position] := List.getElem?_eq_getElem hlen
    simp only [counted, hcount, hsome, settled]
  · right
    have hnone : start[position]? = none := List.getElem?_eq_none (by omega)
    refine ⟨position + 1, by simp only [counted, hnone], by omega, ?_⟩
    unfold counted
    split
    · exact hmax
    · simp only [settled]
      omega

/-- Every start of a burst agrees with the burst on the length of the first frame, or asks for more
octets, but for none behind that frame. -/
theorem ofRequest_of_start {start burst : Octets} (h : start <+: burst) :
    ofRequest start = .exactly (told burst) ∨
      (ofRequest start = .untilSilence ∧ told burst = maxFrame) ∨
      ∃ n, ofRequest start = .atLeast n ∧ start.length < n ∧ n ≤ told burst := by
  have hlow := (told_bounds burst).1
  match start, burst, h with
  | [], _, _ => exact .inr (.inr ⟨2, rfl, by decide, by omega⟩)
  | [_], _, _ => exact .inr (.inr ⟨2, rfl, by simp, by omega⟩)
  | unit :: code :: later, burst, h =>
    obtain ⟨rest, rfl⟩ := h
    have hprefix : unit :: code :: later <+: unit :: code :: (later ++ rest) :=
      List.prefix_append (unit :: code :: later) rest
    have hsix := @counted_of_start _ _ hprefix 6 9 (by decide) (by decide)
    have hten := @counted_of_start _ _ hprefix 10 13 (by decide) (by decide)
    simp only [List.cons_append, told, ofRequest]
    cases FunctionCode.ofOctet? code with
    | none => exact .inr (.inl ⟨rfl, rfl⟩)
    | some function =>
      cases function with
      | writeCoils | writeRegisters =>
        rcases hsix with hexact | hmore
        · exact .inl hexact
        · exact .inr (.inr hmore)
      | writeReadRegisters =>
        rcases hten with hexact | hmore
        · exact .inl hexact
        · exact .inr (.inr hmore)
      | _ => exact .inl rfl

theorem satisfied_iff_of_start {start burst : Octets} (h : start <+: burst)
    (hlen : start.length ≤ told burst) :
    (ofRequest start).satisfied start.length = true ↔ start.length = told burst := by
  have hmax := (told_bounds burst).2
  rcases ofRequest_of_start h with hexact | ⟨hsilence, hfull⟩ | ⟨n, hmore, hlow, hhigh⟩
  · rw [hexact]
    simp only [satisfied, target, Nat.min_eq_left hmax, decide_eq_true_eq]
    omega
  · rw [hsilence]
    simp only [satisfied, decide_eq_true_eq]
    omega
  · rw [hmore]
    simp only [satisfied, decide_eq_true_eq]
    omega

theorem room_of_start {start burst : Octets} (h : start <+: burst)
    (hlen : start.length < told burst) :
    start.length < (ofRequest start).target ∧ (ofRequest start).target ≤ told burst := by
  have hmax := (told_bounds burst).2
  rcases ofRequest_of_start h with hexact | ⟨hsilence, hfull⟩ | ⟨n, hmore, hlow, hhigh⟩
  · rw [hexact]
    simp only [target, Nat.min_eq_left hmax]
    omega
  · rw [hsilence]
    simp only [target]
    omega
  · rw [hmore]
    simp only [target]
    omega

theorem room_of_unsatisfied {framing : Octets → FrameLength} {start burst : Octets}
    (hframing : framing = ofRequest) (h : start <+: burst) (hlen : start.length ≤ told burst)
    (hopen : ¬(framing start).satisfied start.length = true) :
    start.length < (framing start).target ∧ (framing start).target ≤ told burst := by
  rw [hframing] at hopen ⊢
  have hne := mt (satisfied_iff_of_start h hlen).mpr hopen
  exact room_of_start h (Nat.lt_of_le_of_ne hlen hne)

theorem told_of_whole {request later : Octets} (h : Whole request) :
    told (request ++ later) = request.length := by
  have hown := foretells_ofRequest h (List.prefix_refl request)
  rcases hown with hexact | ⟨n, _, hlow, hhigh⟩
  · rcases ofRequest_of_start (List.prefix_append request later) with
      htold | ⟨hsilence, _⟩ | ⟨n, hmore, _⟩
    · rw [hexact] at htold
      exact (FrameLength.exactly.inj htold).symm
    · rw [hexact] at hsilence
      cases hsilence
    · rw [hexact] at hmore
      cases hmore
  · omega

end FrameLength

/-! ### The frames of a burst -/

def cut (burst : Octets) : List Octets :=
  if burst = [] then []
  else burst.take (FrameLength.told burst) :: cut (burst.drop (FrameLength.told burst))
termination_by burst.length
decreasing_by
  have hlow := (FrameLength.told_bounds burst).1
  have hpos := List.length_pos_iff.mpr ‹burst ≠ []›
  rw [List.length_drop]
  omega

theorem cut_nil : cut [] = [] := by
  rw [cut, if_pos rfl]

theorem cut_of_ne_nil {burst : Octets} (h : burst ≠ []) :
    cut burst =
      burst.take (FrameLength.told burst) :: cut (burst.drop (FrameLength.told burst)) := by
  rw [cut, if_neg h]

theorem flatten_cut (burst : Octets) : (cut burst).flatten = burst := by
  fun_induction cut burst with
  | case1 => rfl
  | case2 burst _ ih => rw [List.flatten_cons, ih, List.take_append_drop]

theorem length_of_mem_cut {burst frame : Octets} (h : frame ∈ cut burst) :
    1 ≤ frame.length ∧ frame.length ≤ maxFrame := by
  fun_induction cut burst with
  | case1 => cases h
  | case2 burst hne ih =>
    rcases List.mem_cons.mp h with rfl | h
    · obtain ⟨hlow, hhigh⟩ := FrameLength.told_bounds burst
      have hpos := List.length_pos_iff.mpr hne
      rw [List.length_take]
      omega
    · exact ih h

theorem cut_of_whole {request later : Octets} (h : Whole request) :
    cut (request ++ later) = request :: cut later := by
  have hne : request ++ later ≠ [] := List.append_ne_nil_of_left_ne_nil h.ne_nil later
  rw [cut_of_ne_nil hne, FrameLength.told_of_whole h, List.take_left, List.drop_left]

theorem flatten_flatMap_cut (found : List Octets) :
    (found.flatMap cut).flatten = found.flatten := by
  induction found with
  | nil => rfl
  | cons burst others ih =>
    rw [List.flatMap_cons, List.flatten_append, flatten_cut, ih, List.flatten_cons]

/-! ### The bursts on a line -/

/-- The octets before the first silence. -/
def unbroken : List Arrival → Octets
  | [] => []
  | .pause _ :: _ => []
  | a :: later => a.carries ++ unbroken later

/-- For each silence the octets behind it, up to the next one. -/
def resumed : List Arrival → List Octets
  | [] => []
  | .pause _ :: later => unbroken later :: resumed later
  | _ :: later => resumed later

/-- The stretches with octets: where one silence follows the other, there are none between. -/
def sift (stretches : List Octets) : List Octets := stretches.filter (· ≠ [])

def bursts (arrivals : List Arrival) : List Octets := sift (unbroken arrivals :: resumed arrivals)

theorem sift_nil_cons (stretches : List Octets) : sift ([] :: stretches) = sift stretches := rfl

theorem sift_cons_of_ne_nil {stretch : Octets} (stretches : List Octets) (h : stretch ≠ []) :
    sift (stretch :: stretches) = stretch :: sift stretches :=
  List.filter_cons_of_pos (decide_eq_true h)

theorem sift_cons_sift (stretch : Octets) (stretches : List Octets) :
    sift (stretch :: sift stretches) = sift (stretch :: stretches) := by
  simp only [sift, List.filter_cons, List.filter_filter, Bool.and_self]

theorem ne_nil_of_mem_sift {stretches : List Octets} {burst : Octets} (h : burst ∈ sift stretches) :
    burst ≠ [] :=
  of_decide_eq_true (List.mem_filter.mp h).2

theorem flatMap_cut_sift (stretches : List Octets) :
    (sift stretches).flatMap cut = stretches.flatMap cut := by
  induction stretches with
  | nil => rfl
  | cons first others ih =>
    by_cases h : first = []
    · rw [h, sift_nil_cons, ih, List.flatMap_cons, cut_nil, List.nil_append]
    · rw [sift_cons_of_ne_nil others h, List.flatMap_cons, List.flatMap_cons, ih]

theorem flatten_sift (stretches : List Octets) : (sift stretches).flatten = stretches.flatten := by
  induction stretches with
  | nil => rfl
  | cons first others ih =>
    by_cases h : first = []
    · rw [h, sift_nil_cons, ih]
      rfl
    · rw [sift_cons_of_ne_nil others h, List.flatten_cons, List.flatten_cons, ih]

theorem unbroken_append_resumed (arrivals : List Arrival) :
    unbroken arrivals ++ (resumed arrivals).flatten = carried arrivals := by
  induction arrivals with
  | nil => rfl
  | cons a later ih =>
    rw [carried_cons, ← ih]
    cases a with
    | octets chunk => exact List.append_assoc ..
    | _ => rfl

theorem flatten_bursts (arrivals : List Arrival) :
    (bursts arrivals).flatten = carried arrivals := by
  rw [bursts, flatten_sift, List.flatten_cons, unbroken_append_resumed]

theorem unbroken_of_carries_nil {a : Arrival} (later : List Arrival) (hnone : a.carries = [])
    (hpause : a.isPause = false) : unbroken (a :: later) = unbroken later := by
  cases a with
  | pause => cases hpause
  | _ =>
    simp only [unbroken]
    rw [hnone, List.nil_append]

theorem resumed_of_not_pause {a : Arrival} (later : List Arrival) (hpause : a.isPause = false) :
    resumed (a :: later) = resumed later := by
  cases a with
  | pause => cases hpause
  | _ => rfl

theorem unbroken_leaveRest (chunk : Octets) (room : Nat) (later : List Arrival) :
    unbroken (leaveRest chunk room later) = chunk.drop room ++ unbroken later := by
  unfold leaveRest
  split
  · next h => rw [List.drop_eq_nil_of_le h, List.nil_append]
  · rfl

theorem resumed_leaveRest (chunk : Octets) (room : Nat) (later : List Arrival) :
    resumed (leaveRest chunk room later) = resumed later := by
  unfold leaveRest
  split <;> rfl

/-- With the octets taken already, the events bring these bursts, and none of them raises the flag
`cancel`. -/
structure Brings (cancel : Nat) (found : List Octets) (taken : Octets) (arrivals : List Arrival) :
    Prop where
  octets : sift ((taken ++ unbroken arrivals) :: resumed arrivals) = found
  calm : ∀ a ∈ arrivals, a.raises? ≠ some cancel

namespace Brings

variable {cancel : Nat} {found others : List Octets} {burst taken : Octets}
variable {a : Arrival} {arrivals later : List Arrival}

theorem skip (h : Brings cancel found taken (a :: later)) (hnone : a.carries = [])
    (hpause : a.isPause = false) : Brings cancel found taken later where
  octets := by
    have hoctets := h.octets
    rwa [unbroken_of_carries_nil later hnone hpause, resumed_of_not_pause later hpause] at hoctets
  calm := fun b hb => h.calm b (List.mem_cons_of_mem a hb)

theorem skip_silence {raises : Option Nat} (h : Brings cancel found [] (.pause raises :: later)) :
    Brings cancel found [] later where
  octets := h.octets
  calm := fun b hb => h.calm b (List.mem_cons_of_mem _ hb)

theorem read {chunk : Octets} {raises : Option Nat}
    (h : Brings cancel found taken (.octets chunk raises :: later)) (room : Nat) :
    Brings cancel found (taken ++ chunk.take room) (leaveRest chunk room later) where
  octets := by
    have hoctets := h.octets
    rw [unbroken_leaveRest, resumed_leaveRest, List.append_assoc,
      ← List.append_assoc (chunk.take room), List.take_append_drop]
    exact hoctets
  calm := calm_leaveRest h.calm room

theorem of_taken (h : Brings cancel (burst :: others) taken arrivals) (htaken : taken ≠ []) :
    burst = taken ++ unbroken arrivals ∧ others = sift (resumed arrivals) := by
  have hoctets := h.octets
  rw [sift_cons_of_ne_nil _ (List.append_ne_nil_of_left_ne_nil htaken _)] at hoctets
  obtain ⟨hburst, hothers⟩ := List.cons.inj hoctets
  exact ⟨hburst.symm, hothers.symm⟩

theorem prefix_burst (h : Brings cancel (burst :: others) taken arrivals) : taken <+: burst := by
  by_cases htaken : taken = []
  · rw [htaken]
    exact List.nil_prefix
  · rw [(h.of_taken htaken).1]
    exact List.prefix_append _ _

theorem of_nil (h : Brings cancel (burst :: others) taken []) : taken ≠ [] ∧ burst = taken := by
  by_cases htaken : taken = []
  · have hoctets := h.octets
    rw [htaken] at hoctets
    cases hoctets
  · exact ⟨htaken, (h.of_taken htaken).1.trans (List.append_nil _)⟩

theorem of_silence {raises : Option Nat}
    (h : Brings cancel (burst :: others) taken (.pause raises :: later)) (htaken : taken ≠ []) : burst = taken :=
  (h.of_taken htaken).1.trans (List.append_nil _)

theorem shift (h : Brings cancel (burst :: others) taken arrivals) (htaken : taken ≠ []) :
    Brings cancel (sift (burst.drop taken.length :: others)) [] arrivals where
  octets := by
    obtain ⟨hburst, hothers⟩ := h.of_taken htaken
    rw [hburst, hothers, List.drop_left, List.nil_append, sift_cons_sift]
  calm := h.calm

end Brings

/-! ### Receptions -/

namespace Intake.Undisturbed

variable {framing : Octets → FrameLength} {taken full : Octets} {arrivals left : List Arrival}
variable {ending : Ending} {cancel : Nat}

/-- The first frame of the next burst is taken, and the rest of the burst and the bursts behind it
are left. -/
theorem of_brings {burst : Octets} {others : List Octets}
    (hcourse : Undisturbed framing .silent taken arrivals ending full left)
    (hframing : framing = FrameLength.ofRequest)
    (h : Brings cancel (burst :: others) taken arrivals)
    (hlen : taken.length ≤ FrameLength.told burst) :
    (ending = .whole ∨ ending = .silence) ∧ full = burst.take (FrameLength.told burst) ∧
      Brings cancel (sift (burst.drop (FrameLength.told burst) :: others)) [] left := by
  have hlow := (FrameLength.told_bounds burst).1
  -- The octets taken stay a start of the burst that is no longer than its first frame, so that the
  -- framing never leaves room for an octet behind that frame.
  induction hcourse with
  | @whole context _ satisfied =>
    have hstart := h.prefix_burst
    rw [hframing] at satisfied
    have hwhole := (FrameLength.satisfied_iff_of_start hstart hlen).mp satisfied
    have htaken : context ≠ [] := List.ne_nil_of_length_pos (by omega)
    have hframe : context = burst.take (FrameLength.told burst) := by
      rw [← hwhole]
      exact List.prefix_iff_eq_take.mp hstart
    have hleft := h.shift htaken
    rw [hwhole] at hleft
    exact ⟨.inl rfl, hframe, hleft⟩
  | atRest unsatisfied =>
    obtain ⟨htaken, rfl⟩ := h.of_nil
    have hsilence (room : Nat) : Rest.ending .silent burst room = .silence := by
      simp only [Rest.ending, List.isEmpty_iff, htaken, if_false]
    have hleft := h.shift htaken
    rw [List.drop_length] at hleft
    rw [List.take_of_length_le hlen, List.drop_eq_nil_of_le hlen]
    exact ⟨.inr (hsilence _), rfl, hleft⟩
  | skip nothing noPause _ ih => exact ih (h.skip nothing noPause) hlen
  | crowded unsatisfied noRoom =>
    have hroom := FrameLength.room_of_unsatisfied hframing h.prefix_burst hlen unsatisfied
    omega
  | @read context _ chunk _ _ _ _ room unsatisfied content space _ ih =>
    have hroom := FrameLength.room_of_unsatisfied hframing h.prefix_burst hlen unsatisfied
    have htaken : (context ++ chunk.take room).length ≤ FrameLength.told burst := by
      rw [List.length_append, List.length_take]
      omega
    exact ih (h.read room) htaken
  | pause _ ih => exact ih h.skip_silence hlen
  | silence unsatisfied begun =>
    obtain rfl := h.of_silence begun
    have hleft := (h.shift begun).skip_silence
    rw [List.drop_length] at hleft
    rw [List.take_of_length_le hlen, List.drop_eq_nil_of_le hlen]
    exact ⟨.inr rfl, rfl, hleft⟩

theorem of_brings_none (hcourse : Undisturbed framing .silent taken arrivals ending full left)
    (hframing : framing = FrameLength.ofRequest) (htaken : taken = [])
    (h : Brings cancel [] taken arrivals) :
    ending = .waiting ∧ full = [] ∧ Brings cancel [] [] left := by
  induction hcourse with
  | whole satisfied =>
    subst htaken
    rw [hframing] at satisfied
    exact absurd satisfied (by decide)
  | atRest unsatisfied =>
    subst htaken
    exact ⟨rfl, rfl, h⟩
  | skip nothing noPause _ ih => exact ih htaken (h.skip nothing noPause)
  | crowded unsatisfied noRoom =>
    subst htaken
    rw [hframing] at noRoom
    exact absurd noRoom (by decide)
  | @read context _ chunk raises later _ _ _ unsatisfied content space =>
    have hsome : context ++ unbroken (.octets chunk raises :: later) ≠ [] :=
      List.append_ne_nil_of_right_ne_nil _ (List.append_ne_nil_of_left_ne_nil content _)
    have hoctets := h.octets
    rw [sift_cons_of_ne_nil _ hsome] at hoctets
    cases hoctets
  | pause _ ih => exact ih rfl h.skip_silence
  | silence unsatisfied begun => exact absurd htaken begun

end Intake.Undisturbed

theorem intake_of_brings {terms : Intake.Terms} {burst taken : Octets} {others : List Octets}
    {arrivals : List Arrival} {flags : Flags} (hframing : terms.framing = FrameLength.ofRequest)
    (hwait : terms.waitFault = none) (hflag : flags.raised terms.cancel = false)
    (h : Brings terms.cancel (burst :: others) taken arrivals)
    (hlen : taken.length ≤ FrameLength.told burst) :
    ∃ ending reads left flags', intake terms .silent taken arrivals flags =
        ⟨ending, burst.take (FrameLength.told burst), reads, left, flags'⟩ ∧
      (ending = .whole ∨ ending = .silence) ∧ flags'.raised terms.cancel = false ∧
      Brings terms.cancel (sift (burst.drop (FrameLength.told burst) :: others)) [] left := by
  obtain ⟨hraised, hcourse⟩ := Intake.undisturbed_intake .silent taken hwait hflag h.calm
  obtain ⟨hending, hfull, hleft⟩ := hcourse.of_brings hframing h hlen
  refine ⟨_, _, _, _, Intake.eq_mk rfl hfull, hending, ?_, hleft⟩
  exact Bool.eq_false_iff.mpr fun hup => nomatch (hraised hup).1

theorem intake_of_brings_none {terms : Intake.Terms} {arrivals : List Arrival} {flags : Flags}
    (hframing : terms.framing = FrameLength.ofRequest) (hwait : terms.waitFault = none)
    (hflag : flags.raised terms.cancel = false) (h : Brings terms.cancel [] [] arrivals) :
    ∃ reads left flags', intake terms .silent [] arrivals flags =
        ⟨.waiting, [], reads, left, flags'⟩ ∧
      flags'.raised terms.cancel = false ∧ Brings terms.cancel [] [] left := by
  obtain ⟨hraised, hcourse⟩ := Intake.undisturbed_intake .silent [] hwait hflag h.calm
  obtain ⟨hending, hfull, hleft⟩ := hcourse.of_brings_none hframing rfl h
  refine ⟨_, _, _, Intake.eq_mk hending hfull, ?_, hleft⟩
  exact Bool.eq_false_iff.mpr fun hup => nomatch (hraised hup).1

namespace Port

/-- The line of a port stays open and still brings these bursts; waiting for octets is possible, and
the port's cancellation flag is not raised. -/
structure Awaits (p : Port) (found : List Octets) (w : World) : Prop where
  able : w.exhausted = false
  calm : w.flags.raised p.cancel = false
  brings : ∃ line, w.lines[p.line]? = some line ∧ line.rest = .silent ∧
    Brings p.cancel found [] line.arrivals

theorem waitFault_terms {p : Port} {framing : Octets → FrameLength} {w : World}
    (hable : w.exhausted = false) : (p.terms framing w).waitFault = none := by
  simp [terms, World.waitFault, hable]

theorem receive_of_awaits {p : Port} {burst : Octets} {others : List Octets} {w : World}
    (hopen : p.closed = false) (h : p.Awaits (burst :: others) w) :
    ∃ after, (p.receive FrameLength.ofRequest).run w =
        ((⟨burst.take (FrameLength.told burst), .ok .request⟩, p), after) ∧
      p.Awaits (sift (burst.drop (FrameLength.told burst) :: others)) after := by
  obtain ⟨line, hline, hrest, hbrings⟩ := h.brings
  obtain ⟨ending, reads, left, flags, hintake, hending, hcalm, hleft⟩ :=
    @intake_of_brings (p.terms FrameLength.ofRequest w) burst [] others line.arrivals w.flags rfl
      (waitFault_terms h.able) h.calm hbrings (Nat.zero_le _)
  rw [← hrest] at hintake
  have hrun := receive_run hopen hline hintake
  have hafter : p.Awaits (sift (burst.drop (FrameLength.told burst) :: others))
      (p.received ⟨ending, burst.take (FrameLength.told burst), reads, left, flags⟩ w) :=
    ⟨h.able, hcalm, _, line_received _ hline, hrest, hleft⟩
  rcases hending with rfl | rfl
  · exact ⟨_, hrun, hafter⟩
  · -- the end by silence may be reported, which no later reception sees
    simp only [conclude] at hrun
    split at hrun
    · exact ⟨_, hrun.trans (Deed.run_bind rfl), hafter.able, hafter.calm, hafter.brings⟩
    · exact ⟨_, hrun, hafter⟩

theorem receive_of_awaits_none {p : Port} {w : World} (hopen : p.closed = false)
    (h : p.Awaits [] w) :
    ∃ after, (p.receive FrameLength.ofRequest).run w = ((⟨[], .ok .waiting⟩, p), after) ∧
      p.Awaits [] after := by
  obtain ⟨line, hline, hrest, hbrings⟩ := h.brings
  obtain ⟨reads, left, flags, hintake, hcalm, hleft⟩ :=
    @intake_of_brings_none (p.terms FrameLength.ofRequest w) line.arrivals w.flags rfl
      (waitFault_terms h.able) h.calm hbrings
  rw [← hrest] at hintake
  exact ⟨_, receive_run hopen hline hintake,
    h.able, hcalm, _, line_received _ hline, hrest, hleft⟩

/-- What so many receptions find where these frames are to come: the frames, and then nothing. -/
def findings (frames : List Octets) (n : Nat) : List Reception :=
  (frames.take n).map (fun frame => ⟨frame, .ok .request⟩) ++
    List.replicate (n - frames.length) ⟨[], .ok .waiting⟩

theorem findings_nil (n : Nat) :
    findings [] (n + 1) = ⟨[], .ok .waiting⟩ :: findings [] n := by
  simp [findings, List.replicate_succ]

theorem findings_cons (frame : Octets) (frames : List Octets) (n : Nat) :
    findings (frame :: frames) (n + 1) = ⟨frame, .ok .request⟩ :: findings frames n := by
  simp [findings]

theorem receives_of_awaits {p : Port} {found : List Octets} {w : World} (n : Nat)
    (hopen : p.closed = false) (hfound : ∀ burst ∈ found, burst ≠ []) (h : p.Awaits found w) :
    ∃ after rest, (p.receives FrameLength.ofRequest n).run w =
        ((findings (found.flatMap cut) n, p), after) ∧
      p.Awaits rest after ∧ rest.flatten = ((found.flatMap cut).drop n).flatten := by
  induction n generalizing found w with
  | zero =>
    have hnone : findings (found.flatMap cut) 0 = [] := by simp [findings]
    refine ⟨w, found, ?_, h, (flatten_flatMap_cut found).symm⟩
    rw [hnone]
    rfl
  | succ n ih =>
    cases found with
    | nil =>
      obtain ⟨next, hfirst, hnext⟩ := receive_of_awaits_none hopen h
      obtain ⟨after, rest, hothers, hafter, hrest⟩ := @ih [] next nofun hnext
      refine ⟨after, rest, ?_, hafter, ?_⟩
      · simp only [receives_succ, hfirst, hothers, List.flatMap_nil, findings_nil]
      · rw [hrest, List.flatMap_nil, List.drop_nil, List.drop_nil]
    | cons burst others =>
      have hburst := hfound burst (List.mem_cons_self ..)
      obtain ⟨next, hfirst, hnext⟩ := receive_of_awaits hopen h
      obtain ⟨after, rest, hothers, hafter, hrest⟩ := ih (fun b hb => ne_nil_of_mem_sift hb) hnext
      have hframes : (burst :: others).flatMap cut =
          burst.take (FrameLength.told burst) ::
            (sift (burst.drop (FrameLength.told burst) :: others)).flatMap cut := by
        rw [flatMap_cut_sift, List.flatMap_cons, cut_of_ne_nil hburst]
        rfl
      refine ⟨after, rest, ?_, hafter, ?_⟩
      · simp only [receives_succ, hfirst, hothers, hframes, findings_cons]
      · rw [hrest, hframes, List.drop_succ_cons]

/-- On a line that stays open, every burst is received as frames that make it up, and none of them
reaches into another burst: so many receptions find the first of these frames, and what is left on
the line are the others. A request at the start of a burst is received alone, whatever came before
the silence. -/
theorem receives_burst_by_burst {p : Port} {w : World} {line : Line} (hopen : p.closed = false)
    (hable : w.exhausted = false) (hcalm : w.flags.raised p.cancel = false)
    (hline : w.lines[p.line]? = some line) (hrest : line.rest = .silent)
    (hquiet : ∀ a ∈ line.arrivals, a.raises? ≠ some p.cancel) :
    (bursts line.arrivals).flatten = carried line.arrivals ∧
    (∀ burst ∈ bursts line.arrivals, burst ≠ [] ∧ (cut burst).flatten = burst ∧
      (∀ frame ∈ cut burst, 1 ≤ frame.length ∧ frame.length ≤ 256) ∧
      ∀ request later, Whole request → burst = request ++ later →
        cut burst = request :: cut later) ∧
    cut [] = [] ∧
    ∀ n, ∃ after left, (p.receives FrameLength.ofRequest n).run w =
        ((findings ((bursts line.arrivals).flatMap cut) n, p), after) ∧
      after.lines[p.line]? = some left ∧
      carried left.arrivals = (((bursts line.arrivals).flatMap cut).drop n).flatten := by
  refine ⟨flatten_bursts _, ?_, cut_nil, ?_⟩
  · intro burst hburst
    refine ⟨ne_nil_of_mem_sift hburst, flatten_cut burst, fun frame => length_of_mem_cut, ?_⟩
    rintro request later hwhole rfl
    exact cut_of_whole hwhole
  · intro n
    have hawaits : p.Awaits (bursts line.arrivals) w :=
      { able := hable
        calm := hcalm
        brings := ⟨line, hline, hrest, rfl, hquiet⟩ }
    obtain ⟨after, rest, hrun, hafter, hleft⟩ :=
      @receives_of_awaits p (bursts line.arrivals) w n hopen
        (fun burst hburst => ne_nil_of_mem_sift hburst) hawaits
    obtain ⟨left, hline', _, hbrings⟩ := hafter.brings
    have hburst : rest = bursts left.arrivals := hbrings.octets.symm
    refine ⟨after, left, hrun, hline', ?_⟩
    rw [← hleft, hburst, flatten_bursts]

/-- What looks like the start of a write of many registers, then a silence, then a request in two
pieces. -/
def noise : Octets := [0x07, 0x10, 0x00, 0x00, 0xFF, 0xFF, 0xFF, 0x01]

def noisyLine : Line where
  sink := .endless
  arrivals := [.octets [0x07, 0x10, 0x00, 0x00, 0xFF], .retry, .octets [0xFF, 0xFF, 0x01], .pause,
    .pause, .octets [0x07, 0x03, 0x00], .interrupted none, .octets [0x10, 0x00, 0x01, 0x85, 0xA9]]

theorem cut_noise : cut noise = [noise] := by
  have htold : FrameLength.told noise = 256 := rfl
  have hall : noise.length ≤ 256 := by decide
  rw [cut_of_ne_nil (by decide), htold, List.take_of_length_le hall, List.drop_eq_nil_of_le hall,
    cut_nil]

theorem request_behind_noise :
    ∃ after left, (({ line := 0, cancel := 0 } : Port).receives FrameLength.ofRequest 3).run
        { lines := #[noisyLine], flags := #[false] } =
      (([⟨noise, .ok .request⟩, ⟨readRequest, .ok .request⟩, ⟨[], .ok .waiting⟩],
        { line := 0, cancel := 0 }), after) ∧
      after.lines[0]? = some left ∧ carried left.arrivals = [] := by
  have hbursts : bursts noisyLine.arrivals = [noise, readRequest] := by decide
  have hwhole : Whole (readRequest) := ⟨.fixed (by decide) rfl, by decide⟩
  obtain ⟨-, hcut, hnil, hruns⟩ := @receives_burst_by_burst { line := 0, cancel := 0 }
    { lines := #[noisyLine], flags := #[false] } noisyLine rfl rfl rfl rfl rfl (by decide)
  rw [hbursts] at hcut hruns
  have hrequest : cut readRequest = [readRequest] := by
    have hread : readRequest ∈ [noise, readRequest] := by decide
    rw [(hcut readRequest hread).2.2.2 readRequest [] hwhole rfl, hnil]
  have hframes : [noise, readRequest].flatMap cut = [noise, readRequest] := by
    rw [List.flatMap_cons, List.flatMap_cons, cut_noise, hrequest]
    rfl
  obtain ⟨after, left, hrun, hline, hleft⟩ := hruns 3
  rw [hframes] at hrun hleft
  exact ⟨after, left, hrun, hline, hleft⟩

end Port
end RtuStation
