import RtuStation.Proofs.Courses

/-!
# Receptions with any framing

A framing may ask for anything: too little, too much, or something else each time. A reception still
reads into the space that a frame has, never asks the line for nothing, and takes from the line exactly
what it finds (`Intake.Fills`). It finds the other side gone only where the line has told so, and from
then on the port leaves the line alone: `receptions_stay_in_bounds` says this of any series of
receptions, with whatever happens to the world between them.
-/

namespace RtuStation

theorem FrameLength.target_le (hint : FrameLength) : hint.target ≤ maxFrame := by
  cases hint with
  | untilSilence => exact Nat.le_refl _
  | _ => exact Nat.min_le_right ..

namespace Intake

/-! ### Reads into a context -/

/-- Reads that fill a context: each asks for what the framing allows beyond the octets that are there,
which is something, and gives no more than it asks for. -/
inductive Fills (framing : Octets → FrameLength) : Octets → List Read → Octets → Prop
  | done {context : Octets} : Fills framing context [] context
  | read {context full : Octets} {read : Read} {later : List Read}
    (room : read.asked = (framing context).target - context.length) (pos : 0 < read.asked)
    (within : read.got.length ≤ read.asked) (rest : Fills framing (context ++ read.got) later full) :
    Fills framing context (read :: later) full

namespace Fills

variable {framing : Octets → FrameLength} {context full : Octets} {reads later : List Read}
variable {read : Read}

/-- A read that finds nothing leaves the context as it is. -/
theorem vain (pos : 0 < (framing context).target - context.length)
    (rest : Fills framing context later full) :
    Fills framing context (⟨(framing context).target - context.length, []⟩ :: later) full := by
  refine .read rfl pos (Nat.zero_le _) ?_
  rwa [List.append_nil]

theorem asked_le (room : read.asked = (framing context).target - context.length)
    (pos : 0 < read.asked) : context.length + read.asked ≤ maxFrame := by
  have := (framing context).target_le
  omega

theorem length_le (h : Fills framing context reads full) (hfits : context.length ≤ maxFrame) :
    full.length ≤ maxFrame := by
  induction h with
  | done => exact hfits
  | read room pos within _ ih =>
    have := asked_le room pos
    refine ih ?_
    rw [List.length_append]
    omega

/-- What each single read finds before it, and how much it asks for. -/
theorem asks (h : Fills framing context reads full) {before : List Read}
    (hsplit : reads = before ++ read :: later) :
    0 < read.asked ∧ read.got.length ≤ read.asked ∧
      (context ++ before.flatMap (·.got)).length + read.asked ≤ maxFrame := by
  induction h generalizing before with
  | done => exact absurd hsplit.symm (List.append_ne_nil_of_right_ne_nil before nofun)
  | read room pos within _ ih =>
    cases before with
    | nil =>
      obtain ⟨rfl, _⟩ := List.cons.inj hsplit
      rw [List.flatMap_nil, List.append_nil]
      exact ⟨pos, within, asked_le room pos⟩
    | cons first before =>
      obtain ⟨rfl, hlater⟩ := List.cons.inj hsplit
      rw [List.flatMap_cons, ← List.append_assoc]
      exact ih hlater

/-- Each read that gives something makes the context longer. -/
theorem successes_le (h : Fills framing context reads full) :
    context.length + (reads.filter fun read => read.got ≠ []).length ≤ full.length := by
  induction h with
  | done => exact Nat.le_refl _
  | @read context _ read _ _ _ _ _ ih =>
    rw [List.length_append] at ih
    by_cases hgot : read.got = []
    · simp only [hgot, List.length_nil] at ih
      simpa [List.filter_cons, hgot] using ih
    · have hpos := List.length_pos_iff.mpr hgot
      simp only [List.filter_cons, hgot, ne_eq, not_false_eq_true, decide_true, if_true,
        List.length_cons]
      simp only [ne_eq] at ih
      omega

end Fills

theorem fills_rest (framing : Octets → FrameLength) (rest : Rest) (context : Octets) :
    Fills framing context (rest.reads ((framing context).target - context.length)) context := by
  unfold Rest.reads
  cases rest with
  | ended | reset | unreadable =>
    dsimp only
    split
    · exact .done
    · next hroom => exact .vain (Nat.pos_of_ne_zero hroom) .done
  | silent | hungUp | broken => exact .done

theorem fills_intake (terms : Terms) (rest : Rest) (context : Octets) (arrivals : List Arrival)
    (flags : Flags) :
    Fills terms.framing context (intake terms rest context arrivals flags).reads
      (intake terms rest context arrivals flags).context := by
  fun_induction intake terms rest context arrivals flags with
  | case4 context => exact fills_rest terms.framing rest context
  | case7 _ _ _ _ _ _ _ _ _ _ hroom _ ih =>
    exact .read rfl (Nat.pos_of_ne_zero hroom) (List.length_take_le ..) ih
  | case11 _ _ _ _ _ _ _ _ hroom _ ih => exact .vain (Nat.pos_of_ne_zero hroom) ih
  | case5 _ _ _ _ _ _ _ _ ih | case8 _ _ _ _ _ _ _ _ _ ih => exact ih
  | case13 _ _ _ _ _ _ _ _ _ _ ih | case14 _ _ _ _ _ _ _ _ ih => exact ih
  | _ => exact .done

/-- What a line carries is taken or left, and nothing else is taken. -/
theorem carried_intake (terms : Terms) (rest : Rest) (context : Octets) (arrivals : List Arrival)
    (flags : Flags) :
    carried arrivals = (intake terms rest context arrivals flags).taken ++
      carried (intake terms rest context arrivals flags).arrivals := by
  fun_induction intake terms rest context arrivals flags with
  | case4 _ _ _ room =>
    have hnone : (rest.reads room).flatMap (·.got) = [] :=
      List.flatMap_eq_nil_iff.mpr fun _ h => got_eq_nil_of_mem_reads h
    simp only [taken, hnone, List.nil_append]
  | case5 _ _ _ _ _ _ _ _ ih => exact ih
  | case7 _ _ _ room _ _ chunk _ later _ _ _ ih =>
    rw [carried_leaveRest] at ih
    simp only [carried_cons, Arrival.carries, after, taken, List.flatMap_cons, List.append_assoc] at ih ⊢
    rw [← ih, ← List.append_assoc, List.take_append_drop]
  | case8 _ _ _ _ _ _ _ _ _ ih | case11 _ _ _ _ _ _ _ _ _ _ ih => exact ih
  | case13 _ _ _ _ _ _ _ _ _ _ ih | case14 _ _ _ _ _ _ _ _ ih => exact ih
  | _ => rfl

/-! ### The other side gone -/

/-- The reception ended because the line told that the other side is gone, after everything that it had
to bring: the wait found the line hung up, or a read that asked for something found the end of the
stream or a reset. -/
inductive FoundEnd : Rest → Intake → Prop
  | hungUp {r : Intake} {raises : Option Nat} (closed : r.ending = .closed)
    (used : r.arrivals = []) : FoundEnd (.hungUp raises) r
  | read {r : Intake} {rest : Rest} {before : List Read} {asked : Nat} (closed : r.ending = .closed)
    (told : ∃ raises, rest = .ended raises ∨ rest = .reset raises) (used : r.arrivals = []) (pos : 0 < asked)
    (last : r.reads = before ++ [⟨asked, []⟩]) : FoundEnd rest r

namespace FoundEnd

variable {rest : Rest} {r : Intake}

theorem closed (h : FoundEnd rest r) : r.ending = .closed := by
  cases h <;> assumption

theorem after (h : FoundEnd rest r) (first : Read) : FoundEnd rest (r.after first) := by
  cases h with
  | hungUp closed used => exact .hungUp closed used
  | @read _ _ before _ closed told used pos last =>
    exact @read _ _ (first :: before) _ closed told used pos (congrArg (List.cons first) last)

end FoundEnd

theorem told_of_closed {rest : Rest} {context : Octets} {room : Nat}
    (h : rest.ending context room = .closed) :
    ∃ raises, rest = .hungUp raises ∨
      (rest = .ended raises ∨ rest = .reset raises) ∧ room ≠ 0 := by
  unfold Rest.ending at h
  cases rest with
  | hungUp raises => exact ⟨raises, .inl rfl⟩
  | broken => cases h
  | silent | unreadable =>
    dsimp only at h
    split at h <;> cases h
  | ended raises =>
    dsimp only at h
    split at h
    · cases h
    · next hroom => exact ⟨raises, .inr ⟨.inl rfl, hroom⟩⟩
  | reset raises =>
    dsimp only at h
    split at h
    · cases h
    · next hroom => exact ⟨raises, .inr ⟨.inr rfl, hroom⟩⟩

theorem foundEnd_of_closed {terms : Terms} {rest : Rest} {context : Octets}
    {arrivals : List Arrival} {flags : Flags}
    (h : (intake terms rest context arrivals flags).ending = .closed) :
    FoundEnd rest (intake terms rest context arrivals flags) := by
  fun_induction intake terms rest context arrivals flags with
  | case4 context _ _ room =>
    obtain ⟨raises, rfl | ⟨told, hroom⟩⟩ := told_of_closed h
    · exact .hungUp rfl rfl
    · refine @FoundEnd.read _ _ [] room h ⟨raises, told⟩ rfl (Nat.pos_of_ne_zero hroom) ?_
      rcases told with rfl | rfl <;> exact if_neg hroom
  | case7 _ _ _ _ _ _ _ _ _ _ _ _ ih => exact (ih h).after _
  | case11 _ _ _ _ _ _ _ _ _ _ ih => exact (ih h).after _
  | case5 _ _ _ _ _ _ _ _ ih | case8 _ _ _ _ _ _ _ _ _ ih => exact ih h
  | case13 _ _ _ _ _ _ _ _ _ _ ih | case14 _ _ _ _ _ _ _ _ ih => exact ih h
  | _ => cases h

end Intake

/-! ### One reception after the other -/

/-- What a reception is called with: a framing, and the world as it is then. -/
structure Port.Call where
  framing : Octets → FrameLength
  world : World

namespace Port

variable {p : Port} {call : Call}

def after (p : Port) (call : Call) : Port := ((p.receive call.framing).run call.world).1.2

def afterAll (p : Port) (calls : List Call) : Port := calls.foldl after p

def FindsEnd (p : Port) (call : Call) : Prop :=
  Intake.FoundEnd ((call.world.lines[p.line]?).getD .dead).rest (p.intake call.framing call.world)

theorem findsEnd_iff : p.FindsEnd call ↔ (p.intake call.framing call.world).ending = .closed :=
  ⟨Intake.FoundEnd.closed, Intake.foundEnd_of_closed⟩

instance : Decidable (p.FindsEnd call) := decidable_of_iff' _ findsEnd_iff

theorem after_eq (p : Port) (call : Call) :
    p.after call = { p with closed := p.closed || decide (p.FindsEnd call) } := by
  unfold after
  cases hclosed : p.closed with
  | true =>
    rw [receive_of_closed hclosed, Bool.true_or, ← hclosed]
  | false =>
    obtain ⟨notices, hrun⟩ := @receive_of_open p call.framing call.world hclosed
    simp only [hrun, Bool.false_or, findsEnd_iff]

/-- A port is closed from the call on that finds the other side gone. -/
theorem afterAll_eq (p : Port) (calls : List Call) :
    p.afterAll calls = { p with closed := p.closed || calls.any fun call => p.FindsEnd call } := by
  unfold afterAll
  induction calls generalizing p with
  | nil => rw [List.foldl_nil, List.any_nil, Bool.or_false]
  | cons call later ih =>
    -- whether a call finds the end does not depend on the port being closed
    have hsame (closed : Bool) (c : Call) : ({ p with closed } : Port).FindsEnd c ↔ p.FindsEnd c := .rfl
    rw [List.foldl_cons, ih, after_eq, List.any_cons, Bool.or_assoc]
    simp only [hsame]

/-- What a reception does while nothing has told yet that the other side is gone. -/
structure InBounds (p : Port) (call : Call) (reception : Reception) (after : World) : Prop where
  taken : reception.context = (p.intake call.framing call.world).taken
  fits : reception.context.length ≤ maxFrame
  successes : ((p.intake call.framing call.world).reads.filter
    fun read => read.got ≠ []).length ≤ maxFrame
  /-- Each read asks for something, and for no more than there is space behind what was read before. -/
  asks (before later : List Intake.Read) (read : Intake.Read) :
    (p.intake call.framing call.world).reads = before ++ read :: later →
      0 < read.asked ∧ read.got.length ≤ read.asked ∧
        (before.flatMap (·.got)).length + read.asked ≤ maxFrame
  /-- The line loses what the context has gained. -/
  consumed (line : Line) : call.world.lines[p.line]? = some line →
    ∃ left, after.lines[p.line]? = some { line with arrivals := left } ∧
      carried line.arrivals = reception.context ++ carried left
  peerClosed : reception.result = .ok .peerClosed ↔ p.FindsEnd call

theorem verdict_eq_peerClosed {ending : Ending} :
    ending.verdict = .ok .peerClosed ↔ ending = .closed := by
  cases ending <;> simp [Ending.verdict]

theorem inBounds_of_intake (p : Port) (call : Call) (notices : Array Notice) :
    p.InBounds call
      ⟨(p.intake call.framing call.world).context,
        (p.intake call.framing call.world).ending.verdict⟩
      { p.received (p.intake call.framing call.world) call.world with notices } := by
  have hfills : Intake.Fills call.framing [] (p.intake call.framing call.world).reads
      (p.intake call.framing call.world).context :=
    Intake.fills_intake (p.terms call.framing call.world) _ [] _ _
  have hcontext : (p.intake call.framing call.world).context =
      (p.intake call.framing call.world).taken :=
    context_intake (p.terms call.framing call.world) _ [] _ _
  have hfits := hfills.length_le (Nat.zero_le _)
  refine ⟨hcontext, hfits, ?_, ?_, ?_, ?_⟩
  · have := hfills.successes_le
    rw [List.length_nil, Nat.zero_add] at this
    exact Nat.le_trans this hfits
  · intro before later read hsplit
    simpa using hfills.asks hsplit
  · intro line hline
    refine ⟨(p.intake call.framing call.world).arrivals, ?_, ?_⟩
    · exact line_received _ hline
    · dsimp only
      rw [hcontext]
      unfold intake
      rw [hline]
      exact Intake.carried_intake ..
  · exact verdict_eq_peerClosed.trans findsEnd_iff.symm

/-- In a series of receptions with any framings, each one stays in bounds until one of them finds the
other side gone. Every later one finds the same at once and leaves the world as it is. -/
theorem receptions_stay_in_bounds (hopen : p.closed = false) (earlier : List Call) (call : Call)
    {reception : Reception} {q : Port} {after : World}
    (h : ((p.afterAll earlier).receive call.framing).run call.world = ((reception, q), after)) :
    (∃ c ∈ earlier, p.FindsEnd c) ∧ reception = ⟨[], .ok .peerClosed⟩ ∧ after = call.world ∨
      (∀ c ∈ earlier, ¬ p.FindsEnd c) ∧ p.InBounds call reception after := by
  rw [afterAll_eq, hopen, Bool.false_or] at h
  by_cases hfound : ∃ c ∈ earlier, p.FindsEnd c
  · have hclosed : (earlier.any fun call => p.FindsEnd call) = true := by simpa using hfound
    rw [receive_of_closed hclosed] at h
    cases h
    exact .inl ⟨hfound, rfl, rfl⟩
  · have hstill : (earlier.any fun call => p.FindsEnd call) = false := by simpa using hfound
    obtain ⟨notices, hrun⟩ := @receive_of_open
      { p with closed := earlier.any fun call => p.FindsEnd call } call.framing call.world hstill
    rw [hrun] at h
    cases h
    exact .inr ⟨fun c hc hends => hfound ⟨c, hc, hends⟩, p.inBounds_of_intake call notices⟩

/-- It asks for one octet more each time, except that behind the first one it asks for far too many. -/
def fickle (octets : Octets) : FrameLength :=
  if octets.length = 1 then .exactly 1000 else .atLeast (octets.length + 1)

def fickleCall : Call where
  framing := fickle
  world :=
    { lines := #[{ arrivals := [.octets [0x01, 0x02], .retry, .octets [0x03]]
                   rest := .ended
                   sink := .endless }]
      flags := #[false] }

def newPort : Port := { line := 0, cancel := 0 }

theorem end_found_and_remembered :
    (∃ q after, (newPort.receive fickle).run fickleCall.world =
        ((⟨[0x01, 0x02, 0x03], .ok .peerClosed⟩, q), after) ∧
      newPort.InBounds fickleCall ⟨[0x01, 0x02, 0x03], .ok .peerClosed⟩ after) ∧
    ∃ q, ((newPort.afterAll [fickleCall]).receive fickle).run fickleCall.world =
      ((⟨[], .ok .peerClosed⟩, q), fickleCall.world) := by
  have hcontext : (newPort.intake fickle fickleCall.world).context = [0x01, 0x02, 0x03] := by cbv
  have hending : (newPort.intake fickle fickleCall.world).ending = .closed := by cbv
  obtain ⟨notices, hrun⟩ := @receive_of_open newPort fickle fickleCall.world rfl
  rw [hcontext, hending] at hrun
  obtain ⟨⟨_, hnone, _⟩, _⟩ | ⟨-, hbounds⟩ := receptions_stay_in_bounds rfl [] fickleCall hrun
  · exact absurd hnone List.not_mem_nil
  have hfound := hbounds.peerClosed.mp rfl
  refine ⟨⟨_, _, hrun, hbounds⟩, ?_⟩
  obtain ⟨-, hreception, hworld⟩ | ⟨hnone, -⟩ :=
    @receptions_stay_in_bounds newPort rfl [fickleCall] fickleCall _ _ _ rfl
  · exact ⟨_, Prod.ext (Prod.ext hreception rfl) hworld⟩
  · exact absurd hfound (hnone fickleCall (List.mem_singleton.mpr rfl))

end Port
end RtuStation
