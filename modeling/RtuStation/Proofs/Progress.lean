import RtuStation.Proofs.Courses

/-!
# Progress of a session

A server over a line goes on from one request to the next with the same connection and the same
engine, and each time it has taken something off what the line has still to bring, unless the engine
asks for no octet at all. That is why so many rounds as `run` allows are enough.
-/

namespace RtuStation

theorem FrameLength.satisfied_zero {hint : FrameLength} (h : hint.target ≠ 0) :
    hint.satisfied 0 = false := by
  cases hint with
  | exactly n => simpa [satisfied] using h
  | atLeast | untilSilence => simp [satisfied, maxFrame]

theorem pending_intake_le (terms : Intake.Terms) (rest : Rest) (context : Octets)
    (arrivals : List Arrival) (flags : Flags) :
    pending (intake terms rest context arrivals flags).arrivals ≤ pending arrivals := by
  fun_induction intake terms rest context arrivals flags with
  | case1 | case2 | case3 | case6 => exact Nat.le_refl _
  | case4 => exact Nat.zero_le _
  | case7 _ _ _ _ _ _ chunk raises later hchunk hroom _ ih =>
    have hless := @pending_leaveRest chunk raises _ later hchunk hroom
    exact Nat.le_trans ih (Nat.le_of_lt hless)
  | case5 | case8 | case11 | case13 | case14 =>
    simp only [Intake.after, pending]
    omega
  | case9 | case10 | case12 =>
    simp only [Intake.stop, pending]
    omega

/-- A request cannot be found without taking something off the line, unless the framing is content
with no octet. -/
theorem pending_intake_lt {terms : Intake.Terms} {rest : Rest} {context : Octets}
    {arrivals : List Arrival} {flags : Flags} (htarget : (terms.framing []).target ≠ 0)
    (hcontext : context = [])
    (hrequest : (intake terms rest context arrivals flags).ending.verdict = .ok .request) :
    pending (intake terms rest context arrivals flags).arrivals < pending arrivals := by
  fun_induction intake terms rest context arrivals flags with
  | case1 context _ _ _ hsatisfied =>
    subst hcontext
    have hopen : (terms.framing []).satisfied 0 = false := FrameLength.satisfied_zero htarget
    rw [show (terms.framing []).satisfied 0 = true from hsatisfied] at hopen
    cases hopen
  | case2 | case3 | case12 => cases hrequest
  | case4 context flags hint room =>
    -- on a line at rest nothing is taken for a request where there is room for an octet
    subst hcontext
    have hroom : room ≠ 0 := htarget
    unfold Rest.ending at hrequest
    cases rest <;> simp [hroom, Ending.verdict] at hrequest
  | case6 context _ _ room _ _ _ _ _ _ hzero | case10 context _ _ room _ _ _ _ hzero =>
    subst hcontext
    exact absurd hzero htarget
  | case7 context _ _ room _ _ chunk raises later hchunk hroom =>
    -- from here on octets are taken, so that no more than the bound can be had from the induction
    have hless := @pending_leaveRest chunk raises _ later hchunk hroom
    have hle := pending_intake_le terms rest (context ++ chunk.take room)
      (leaveRest chunk room later)
    exact Nat.lt_of_le_of_lt (hle _) hless
  | case9 _ _ _ _ _ _ _ hsome =>
    subst hcontext
    exact absurd rfl hsome
  | case5 _ _ _ _ _ _ _ _ ih | case8 _ _ _ _ _ _ _ _ _ ih | case11 _ _ _ _ _ _ _ _ _ _ ih
  | case13 _ _ _ _ _ _ _ _ _ _ ih | case14 _ _ _ _ _ _ _ _ ih =>
    have hless := ih hcontext hrequest
    simp only [Intake.after, pending]
    omega

theorem calm_of_waiting {terms : Intake.Terms} {rest : Rest} {context : Octets}
    {arrivals : List Arrival} {flags : Flags}
    (h : (intake terms rest context arrivals flags).ending = .waiting) :
    (intake terms rest context arrivals flags).flags.raised terms.cancel = false := by
  fun_induction intake terms rest context arrivals flags with
  | case4 _ flags _ _ _ hcalm =>
    -- only a line that stays silent lets the reception wait, and that raises no flag
    cases rest with
    | silent => exact Bool.eq_false_iff.mpr hcalm
    | hungUp | broken => cases h
    | ended | reset | unreadable =>
      dsimp only [Rest.ending] at h
      split at h <;> cases h
  | case1 | case2 | case3 | case6 | case9 | case10 | case12 => cases h
  | case5 _ _ _ _ _ _ _ _ ih | case7 _ _ _ _ _ _ _ _ _ _ _ _ ih | case8 _ _ _ _ _ _ _ _ _ ih
  | case11 _ _ _ _ _ _ _ _ _ _ ih | case13 _ _ _ _ _ _ _ _ _ _ ih | case14 _ _ _ _ _ _ _ _ ih =>
    exact ih h

theorem pending_passOver_le (n : Nat) (arrivals : List Arrival) :
    pending (Line.passOver n arrivals) ≤ pending arrivals := by
  fun_induction Line.passOver n arrivals with
  | case1 n chunk _ later hfits ih =>
    simp only [pending]
    omega
  | case2 n chunk _ later hfits =>
    simp only [pending, List.length_drop]
    omega
  | case3 => exact Nat.le_refl _

/-! ### Ports -/

namespace Port

variable {p p' : Port} {framing : Octets → FrameLength} {context : Octets} {w after : World}

theorem pending_received_le (p : Port) (r : Intake) (w : World) :
    Connection.pending (p.received r w) (.port p) ≤ pending r.arrivals := by
  unfold Connection.pending received
  dsimp only
  rw [Array.getElem?_modify, if_pos rfl]
  cases w.lines[p.line]? with
  | none => exact Nat.zero_le _
  | some line => exact Nat.le_refl _

theorem pending_of_request
    (h : (p.receive framing).run w = ((⟨context, .ok .request⟩, p'), after)) :
    p' = p ∧ ((framing []).target ≠ 0 →
      Connection.pending after (.port p) < Connection.pending w (.port p)) := by
  cases hclosed : p.closed with
  | true =>
    rw [receive_of_closed hclosed] at h
    cases h
  | false =>
    obtain ⟨notices, hrun⟩ := @receive_of_open p framing w hclosed
    rw [hrun] at h
    have hverdict : (p.intake framing w).ending.verdict = .ok .request :=
      congrArg (fun result => result.1.1.result) h
    have hopen : (p.intake framing w).ending ≠ .closed := by
      intro hending
      rw [hending] at hverdict
      cases hverdict
    refine ⟨?_, fun htarget => ?_⟩
    · have hsame : { p with closed := false } = p := by rw [← hclosed]
      have hport := congrArg (fun result => result.1.2) h
      simp only [hopen, decide_false, hsame] at hport
      exact hport.symm
    · have hless : pending (p.intake framing w).arrivals < Connection.pending w (.port p) :=
        pending_intake_lt htarget rfl hverdict
      have hafter : after.lines = (p.received (p.intake framing w) w).lines :=
        congrArg (fun result => result.2.lines) h.symm
      have hle := p.pending_received_le (p.intake framing w) w
      unfold Connection.pending at hle ⊢
      rw [hafter]
      exact Nat.lt_of_le_of_lt hle hless

theorem calm_of_receives_waiting
    (h : (p.receive framing).run w = ((⟨context, .ok .waiting⟩, p'), after)) :
    after.flags.raised p.cancel = false := by
  cases hclosed : p.closed with
  | true =>
    rw [receive_of_closed hclosed] at h
    cases h
  | false =>
    obtain ⟨notices, hrun⟩ := @receive_of_open p framing w hclosed
    rw [hrun] at h
    have hverdict : (p.intake framing w).ending.verdict = .ok .waiting :=
      congrArg (fun result => result.1.1.result) h
    have hwaiting : (p.intake framing w).ending = .waiting := by
      cases hending : (p.intake framing w).ending with
      | waiting => rfl
      | _ =>
        rw [hending] at hverdict
        cases hverdict
    have hflags : after.flags = (p.intake framing w).flags :=
      congrArg (fun result => result.2.flags) h.symm
    rw [hflags]
    exact calm_of_waiting hwaiting

/-- Sending brings nothing, and may put octets in the place of some that were to come. -/
theorem pending_of_send {frame : Octets} {outcome : Except Error Unit}
    (h : (p.send frame).run w = (outcome, after)) :
    Connection.pending after (.port p) ≤ Connection.pending w (.port p) := by
  rw [send_run] at h
  cases h
  unfold Connection.pending transmitted
  dsimp only
  rw [Array.getElem?_modify, if_pos rfl]
  cases w.lines[p.line]? with
  | none => exact Nat.zero_le _
  | some line =>
    show pending (line.dispatched (p.transmission frame w)).arrivals ≤ pending line.arrivals
    unfold Line.dispatched
    dsimp only
    split
    · exact pending_passOver_le ..
    · exact Nat.le_refl _

end Port

/-! ### Servers -/

namespace Server

variable {s s₁ s₂ : Server} {p : Port} {w w₁ w₃ after : World} {reply : Option Octets}

theorem Heard.port (h : s.Heard w s₁ w₁) (hport : s.connection = .port p) :
    ∃ context, s₁ = s.heard (.port p) context ∧
      ((s.engine.frameLength []).target ≠ 0 →
        Connection.pending w₁ (.port p) < Connection.pending w (.port p)) := by
  have hreceives := receives_of_run h.run
  cases hreceives with
  | @request connection context found output _ hreceive =>
    rw [hport] at hreceive
    obtain ⟨⟨_, p'⟩, _, hfound, hmade⟩ := Deed.of_run_bind hreceive
    cases hmade
    obtain ⟨rfl, hless⟩ := Port.pending_of_request hfound
    exact ⟨context, rfl, hless⟩
  | failed _ _ habort =>
    obtain ⟨_, _, hended⟩ := ended_of_abort habort
    exact absurd rfl hended.ne_ok

theorem Answered.port (h : s.Answered w reply s₂ w₃) (hport : s.connection = .port p) :
    s₂.connection = .port p ∧ s₂.cancel = s.cancel ∧ s₂.engine = s.engine ∧
      ((s.engine.frameLength []).target ≠ 0 →
        Connection.pending w₃ (.port p) < Connection.pending w (.port p)) := by
  cases h with
  | @intro s₁ w₁ w₂ hheard _ hacquire hanswer =>
    obtain ⟨context, rfl, hless⟩ := hheard.port hport
    obtain ⟨hsame, -, hunmoved⟩ := acquire_frame hacquire
    have hlines : w₃.lines = w₁.lines := (answer_frame hanswer).2.trans hunmoved.lines
    rw [hsame]
    refine ⟨rfl, rfl, rfl, ?_⟩
    unfold Connection.pending at hless ⊢
    rw [hlines]
    exact hless

theorem serves_continue {out : Except Error Step × Server} (h : s.Serves w out after)
    (hcontinue : out.1 = .ok .continue) (hport : s.connection = .port p) :
    out.2.connection = .port p ∧ out.2.cancel = s.cancel ∧ out.2.engine = s.engine ∧
      out.2.state = .idle ∧ ((s.engine.frameLength []).target ≠ 0 →
        Connection.pending after (.port p) < Connection.pending w (.port p)) := by
  cases h with
  | terminated | peerClosed | waiting | unheard => cases hcontinue
  | heeded _ _ hshut | withdrawn _ _ hshut =>
    exact absurd hcontinue (ended_of_shutDown hshut).ne_ok
  | unacquired _ _ _ habort | unreleased _ _ habort =>
    obtain ⟨_, _, hended⟩ := ended_of_abort habort
    exact absurd hcontinue hended.ne_ok
  | @delivered reply s₂ s₃ w₃ w₄ _ _ hanswered hrelease hdeliver =>
    obtain ⟨hconnection, hcancel, hengine, hless⟩ := hanswered.port hport
    obtain ⟨rfl, hunmoved, -⟩ := freed_of_release hrelease
    have hless₄ : (s.engine.frameLength []).target ≠ 0 →
        Connection.pending w₄ (.port p) < Connection.pending w (.port p) := by
      unfold Connection.pending at hless ⊢
      rw [hunmoved.lines]
      exact hless
    have hsends := sends_of_run hdeliver
    cases hsends with
    | silent => exact ⟨hconnection, hcancel, hengine, rfl, hless₄⟩
    | @sent frame output _ _ hsend =>
      have hspeaks : (freed { s₂ with state := .replying }).connection = .port p := hconnection
      rw [hspeaks] at hsend
      obtain ⟨_, _, hsent, hmade⟩ := Deed.of_run_bind hsend
      cases hmade
      have hle := Port.pending_of_send hsent
      exact ⟨rfl, hcancel, hengine, rfl, fun htarget => Nat.lt_of_le_of_lt hle (hless₄ htarget)⟩
    | stopped _ hshut => exact absurd hcontinue (ended_of_shutDown hshut).ne_ok
    | failed _ _ habort =>
      obtain ⟨_, _, hended⟩ := ended_of_abort habort
      exact absurd hcontinue hended.ne_ok

end Server
end RtuStation
