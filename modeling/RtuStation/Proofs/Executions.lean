import RtuStation.Proofs.Outcomes

/-!
# Executions of requests

A call of `serveOne` either withholds what it has received from the engine, if it has received
anything, or has the engine execute it, once and as it came. `Admits` tells which; the journal counts
the executions, the segments are changed by nothing else, and the line is sent nothing but the start
of the reply.
-/

namespace RtuStation

def Entry.answered? : Entry → Option Octets
  | .answer _ frame => some frame
  | _ => none

/-- The frames that an engine was given to answer, the latest one first. -/
def World.answered (w : World) : List Octets := w.journal.filterMap Entry.answered?

theorem World.Unanswered.answered {w after : World} (h : w.Unanswered after) :
    after.answered = w.answered := by
  obtain ⟨entries, hjournal, hnone⟩ := h.entries
  have hentries : entries.filterMap Entry.answered? = [] := by
    refine List.filterMap_eq_nil_iff.mpr fun entry hmem => ?_
    cases entry with
    | answer held frame => exact absurd hmem (hnone held frame)
    | _ => rfl
  unfold World.answered
  rw [hjournal, List.filterMap_append, hentries, List.nil_append]

/-! ### What the line is sent -/

namespace Port

variable {p : Port} {framing : Octets → FrameLength} {frame : Octets} {c : Connection} {r : Reception}
  {outcome : Except Error Unit} {w after : World}

/-- What has been sent over the line and not yet been read there. -/
def sent (p : Port) (w : World) : Octets := ((w.lines[p.line]?).getD .dead).sent

theorem sent_congr (h : after.lines = w.lines) : p.sent after = p.sent w := by
  unfold sent
  rw [h]

theorem sent_of_receive
    (h : ((Connection.port p).receive framing).run w = ((r, c), after)) : p.sent after = p.sent w := by
  rcases (Connection.receive_port_cases h).2 with ⟨-, rfl⟩ | ⟨-, notices, rfl⟩
  · rfl
  · simp only [sent, received, Array.getElem?_modify, if_true]
    cases w.lines[p.line]? <;> rfl

theorem context_of_request {context : Octets}
    (h : ((Connection.port p).receive framing).run w = ((⟨context, .ok .request⟩, c), after)) :
    context = (p.intake framing w).taken := by
  rcases (Connection.receive_port_cases h).2 with ⟨hpeer, -⟩ | ⟨hfound, -⟩
  · cases hpeer
  · have hcontext : context = (p.intake framing w).context := congrArg Reception.context hfound
    rw [hcontext]
    exact context_intake ..

theorem sent_of_send (h : ((Connection.port p).send frame).run w = ((outcome, c), after)) :
    ∃ taken, taken <+: frame ∧ p.sent after = p.sent w ++ taken ∧
      (outcome = .ok () → taken = frame) := by
  obtain ⟨_, _, hsend, hmade⟩ := Deed.of_run_bind h
  cases hmade
  rw [send_run] at hsend
  cases hsend
  obtain ⟨n, hn⟩ := accepted_transmit { cancel := p.cancel, waitFault := w.waitFault }
    ((w.lines[p.line]?).getD .dead).sink ((w.lines[p.line]?).getD .dead).departures frame w.flags
  refine ⟨(p.transmission frame w).accepted, ?_, ?_, fun hwhole => ?_⟩
  · rw [show (p.transmission frame w).accepted = frame.take n from hn]
    exact List.take_prefix n frame
  · simp only [sent, transmitted, Array.getElem?_modify, if_true]
    cases hline : w.lines[p.line]? with
    | none =>
      -- a line that does not exist takes nothing
      simp only [transmission, hline]
      rfl
    | some line => rfl
  · refine accepted_of_whole ?_
    cases hending : (p.transmission frame w).ending with
    | whole => exact hending
    | _ =>
      rw [hending] at hwhole
      cases hwhole

end Port

namespace Server

variable {s s₁ s₂ : Server} {p : Port} {w w₁ w₃ after : World} {reply : Option Octets}

/-! ### Which requests are executed -/

/-- A request is received, the flag is down before and after that, and the guard does not fail; that
it may not get the semaphore in time does not matter. -/
structure Admits (s : Server) (w : World) : Prop where
  heard : s.Heard w (s.receive.run w).1.2 (s.receive.run w).2
  calm : (s.receive.run w).2.flags.raised s.cancel = false
  granted : ∀ g, s.guard = some g →
    ∃ acquisition, (g.tryAcquire.run (s.receive.run w).2).1.1 = .ok acquisition

/-- The octets that a reception takes off the line. -/
def incoming (s : Server) (p : Port) (w : World) : Octets :=
  (p.intake s.engine.frameLength w).taken

theorem sent_of_receives {out : Except Error Received × Server} (h : s.Receives w out after)
    (hport : s.connection = .port p) : p.sent after = p.sent w := by
  have hfound {c : Connection} {r : Reception} {found : World}
      (hreceive : (s.connection.receive s.engine.frameLength).run (s.listening w) =
        ((r, c), found)) : p.sent found = p.sent w := by
    rw [hport] at hreceive
    have hlistening : p.sent found = p.sent (s.listening w) := Port.sent_of_receive hreceive
    exact hlistening
  cases h with
  | terminated => rfl
  | request _ hreceive | peerClosed _ hreceive =>
    have hsent := hfound hreceive
    exact hsent
  | waiting _ hreceive => exact hfound hreceive
  | failed _ hreceive habort =>
    obtain ⟨_, _, hended⟩ := ended_of_abort habort
    exact (Port.sent_congr hended.unmoved.lines).trans (hfound hreceive)

theorem Heard.received (h : s.Heard w s₁ w₁) (hport : s.connection = .port p) :
    s₁ = s.heard (.port p) (s.incoming p w) ∧ w.Unanswered w₁ ∧ p.sent w₁ = p.sent w := by
  obtain ⟨context, rfl, -⟩ := h.port hport
  have hreceives := receives_of_run h.run
  refine ⟨?_, unanswered_of_receives hreceives, sent_of_receives hreceives hport⟩
  cases hreceives with
  | request _ hreceive =>
    rw [hport] at hreceive
    rw [Port.context_of_request hreceive]
    rfl
  | failed _ _ habort =>
    obtain ⟨_, _, hended⟩ := ended_of_abort habort
    exact absurd rfl hended.ne_ok

theorem executes_of_answer (h : s.answer.run w = (reply, after)) :
    reply = ((s.store.execute s.engine s.request).run w).1 ∧
      after.segments = ((s.store.execute s.engine s.request).run w).2.segments := by
  obtain ⟨v, hexecute, -, -, hsame⟩ := answer_cases h
  obtain ⟨hreply, hsegments⟩ := s.store.execute_congr s.engine s.request hsame
  rw [hexecute] at hreply hsegments
  exact ⟨hreply, hsegments⟩

theorem unanswered_of_acquire {outcome : Except Error Unit}
    (h : s.acquire.run w = ((outcome, s₁), after)) : w.Unanswered after := by
  unfold acquire at h
  split at h
  · cases h
    exact .refl w
  · next g _ =>
    obtain ⟨⟨result, g'⟩, _, hacquire, hdone⟩ := Deed.of_run_bind h
    cases hdone
    obtain ⟨hunmoved, hjournal⟩ := (Guard.acquires_of_run hacquire).frame
    rcases hjournal with ⟨hjournal, -⟩ | ⟨-, hjournal⟩
    · exact ⟨hunmoved.segments, [], hjournal, nofun⟩
    · refine ⟨hunmoved.segments, [_], hjournal, fun held frame hmem => ?_⟩
      cases List.mem_singleton.mp hmem

theorem granted_of_acquire (h : s.acquire.run w = ((.ok (), s₁), after)) {g : Guard}
    (hguard : s.guard = some g) : ∃ acquisition, (g.tryAcquire.run w).1.1 = .ok acquisition := by
  unfold acquire at h
  rw [hguard] at h
  obtain ⟨⟨result, g'⟩, _, hacquire, hdone⟩ := Deed.of_run_bind h
  rw [hacquire]
  cases result with
  | error => cases hdone
  | ok acquisition => exact ⟨acquisition, rfl⟩

theorem not_granted_of_acquire {e : Error} (h : s.acquire.run w = ((.error e, s₁), after)) :
    ∃ g, s.guard = some g ∧ (g.tryAcquire.run w).1.1 = .error e := by
  unfold acquire at h
  cases hguard : s.guard with
  | none =>
    rw [hguard] at h
    cases h
  | some g =>
    rw [hguard] at h
    obtain ⟨⟨result, g'⟩, _, hacquire, hdone⟩ := Deed.of_run_bind h
    refine ⟨g, rfl, ?_⟩
    rw [hacquire]
    cases result with
    | error =>
      cases hdone
      rfl
    | ok acquisition => cases hdone

/-! ### Withheld and executed requests -/

/-- Nothing was executed. -/
structure Withheld (s : Server) (p : Port) (w : World) (out : Except Error Step × Server)
    (after : World) : Prop where
  barred : ¬s.Admits w
  unanswered : w.Unanswered after
  sent : p.sent after = p.sent w
  ends : s.state.isTerminal = false → Ends Step.state Error.Early out.1 out.2.state
  stops : out.1 ≠ .ok .continue

/-- The request was executed, and the line sent the start of the reply. -/
structure Executed (s : Server) (p : Port) (w : World) (out : Except Error Step × Server)
    (after : World) : Prop where
  admitted : s.Admits w
  answered : after.answered = s.incoming p w :: w.answered
  segments : after.segments =
    ((s.store.execute s.engine (s.incoming p w)).run w).2.segments
  sent : ∃ taken, taken <+: ((s.store.execute s.engine (s.incoming p w)).run w).1.getD [] ∧
    p.sent after = p.sent w ++ taken ∧
    (out.1 = .ok .continue →
      taken = ((s.store.execute s.engine (s.incoming p w)).run w).1.getD [])
  ends : Ends Step.state Error.Late out.1 out.2.state

theorem Answered.executes (h : s.Answered w reply s₂ w₃) (hport : s.connection = .port p) :
    s.Admits w ∧ w₃.answered = s.incoming p w :: w.answered ∧
      reply = ((s.store.execute s.engine (s.incoming p w)).run w).1 ∧
      w₃.segments = ((s.store.execute s.engine (s.incoming p w)).run w).2.segments ∧
      p.sent w₃ = p.sent w := by
  cases h with
  | @intro s₁ w₁ w₂ hheard hcalm hacquire hanswer =>
    obtain ⟨rfl, hunanswered, hsent⟩ := hheard.received hport
    obtain ⟨hsame, -, hunmoved⟩ := acquire_frame hacquire
    have hunanswered₂ := hunanswered.trans (unanswered_of_acquire hacquire)
    obtain ⟨hjournal, hlines⟩ := answer_frame hanswer
    obtain ⟨hreply, hsegments⟩ := executes_of_answer hanswer
    rw [hsame] at hjournal hreply hsegments
    obtain ⟨hreply', hsegments'⟩ := s.store.execute_congr s.engine (s.incoming p w)
      hunanswered₂.segments
    refine ⟨?_, ?_, hreply.trans hreply', hsegments.trans hsegments', ?_⟩
    · have hrun := hheard.run
      refine ⟨?_, ?_, fun g hguard => ?_⟩
      · rw [hrun]
        exact hheard
      · rw [hrun]
        exact hcalm
      · rw [hrun]
        exact granted_of_acquire hacquire hguard
    · rw [← hunanswered₂.answered]
      unfold World.answered
      rw [hjournal]
      rfl
    · rw [Port.sent_congr hlines, Port.sent_congr hunmoved.lines, hsent]

theorem unanswered_of_abort {α : Type} {e : Error} {out : Except Error α × Server}
    (h : (s.abort e).run w = (out, after)) : w.Unanswered after ∧ after.lines = w.lines := by
  obtain ⟨_, _, hended⟩ := ended_of_abort h
  exact ⟨unanswered_of_ended hended, hended.unmoved.lines⟩

theorem unanswered_of_release {outcome : Except Error Unit}
    (h : s.release.run w = ((outcome, s₁), after)) : w.Unanswered after ∧ after.lines = w.lines := by
  obtain ⟨-, hunmoved, hjournal⟩ := freed_of_release h
  refine ⟨⟨hunmoved.segments, s.returns, hjournal, fun held frame hmem => ?_⟩, hunmoved.lines⟩
  obtain ⟨object, hpost⟩ := post_of_mem_returns hmem
  cases hpost

theorem sent_of_sends {out : Except Error Step × Server} (h : s.Sends w reply out after)
    (hport : s.connection = .port p) :
    w.Unanswered after ∧ ∃ taken, taken <+: reply.getD [] ∧ p.sent after = p.sent w ++ taken ∧
      (out.1 = .ok .continue → taken = reply.getD []) := by
  have hsent {frame : Octets} {output : Array String} {c : Connection} {outcome : Except Error Unit}
      {found : World}
      (hsend : (s.connection.send frame).run (s.speaking frame output w) = ((outcome, c), found)) :
      w.Unanswered found ∧ ∃ taken, taken <+: frame ∧ p.sent found = p.sent w ++ taken ∧
        (outcome = .ok () → taken = frame) := by
    obtain ⟨hsegments, hjournal⟩ := Connection.send_kept hsend
    rw [hport] at hsend
    have htaken := Port.sent_of_send hsend
    refine ⟨⟨hsegments, [.send s.holds frame], hjournal, ?_⟩, htaken⟩
    intro held other hmem
    cases List.mem_singleton.mp hmem
  cases h with
  | silent => exact ⟨.refl w, [], List.nil_prefix, (List.append_nil _).symm, fun _ => rfl⟩
  | sent hsend =>
    obtain ⟨hunanswered, taken, htaken, hafter, hwhole⟩ := hsent hsend
    exact ⟨hunanswered, taken, htaken, hafter, fun _ => hwhole rfl⟩
  | stopped hsend hshut =>
    obtain ⟨hunanswered, taken, htaken, hafter, -⟩ := hsent hsend
    have hended := ended_of_shutDown hshut
    refine ⟨hunanswered.trans (unanswered_of_ended hended), taken, htaken, ?_, ?_⟩
    · rw [Port.sent_congr hended.unmoved.lines, hafter]
    · exact fun hok => absurd hok hended.ne_ok
  | failed _ hsend habort =>
    obtain ⟨hunanswered, taken, htaken, hafter, -⟩ := hsent hsend
    obtain ⟨_, _, hended⟩ := ended_of_abort habort
    refine ⟨hunanswered.trans (unanswered_of_ended hended), taken, htaken, ?_, ?_⟩
    · rw [Port.sent_congr hended.unmoved.lines, hafter]
    · exact fun hok => absurd hok hended.ne_ok

theorem withheld_of_receives {result : Except Error Received} {step : Except Error Step}
    (hport : s.connection = .port p) (h : s.receive.run w = ((result, s₁), after))
    (hrequest : result ≠ .ok .request) (hstep : step ≠ .ok .continue)
    (hends : ∀ state, Ends Received.state Error.Early result state →
      Ends Step.state Error.Early step state) : s.Withheld p w (step, s₁) after := by
  have hreceives := receives_of_run h
  refine ⟨fun hadmits => ?_, unanswered_of_receives hreceives, sent_of_receives hreceives hport,
    fun hactive => hends _ (ends_of_receives hreceives hport hactive), hstep⟩
  have hrun := hadmits.heard.run
  rw [h] at hrun
  cases hrun
  exact hrequest rfl

/-- Whatever way a call goes, its request is withheld or executed. -/
theorem serves_cases {out : Except Error Step × Server} (h : s.Serves w out after)
    (hport : s.connection = .port p) : s.Withheld p w out after ∨ s.Executed p w out after := by
  -- only the two ways that come to a reply execute the request; on all others it is withheld
  cases h with
  | terminated hterminal =>
    refine .inl ⟨fun hadmits => ?_, .refl w, rfl, fun hactive => ?_, nofun⟩
    · rw [hadmits.heard.active] at hterminal
      cases hterminal
    · rw [hactive] at hterminal
      cases hterminal
  | heeded _ hraised hshut =>
    have hended := ended_of_shutDown hshut
    refine .inl ⟨fun hadmits => ?_, unanswered_of_ended hended,
      Port.sent_congr hended.unmoved.lines, fun _ => ends_of_shutDown hshut, hended.ne_ok⟩
    rw [hadmits.heard.calm] at hraised
    cases hraised
  | peerClosed _ _ hreceive =>
    refine .inl (withheld_of_receives hport hreceive nofun nofun fun state hends => ?_)
    cases hends
    exact .ok Step.peerClosed
  | waiting _ _ hreceive =>
    refine .inl (withheld_of_receives hport hreceive nofun nofun fun state hends => ?_)
    cases hends
    exact .ok Step.waiting
  | unheard _ _ hreceive =>
    refine .inl (withheld_of_receives hport hreceive nofun nofun fun state hends => ?_)
    cases hends with
    | shutDown => exact .shutDown
    | failed hearly => exact .failed hearly
  | withdrawn hheard hraised hshut =>
    obtain ⟨rfl, hunanswered, hsent⟩ := hheard.received hport
    have hended := ended_of_shutDown hshut
    refine .inl ⟨fun hadmits => ?_, hunanswered.trans (unanswered_of_ended hended),
      (Port.sent_congr hended.unmoved.lines).trans hsent, fun _ => ends_of_shutDown hshut,
      hended.ne_ok⟩
    have hcalm := hadmits.calm
    rw [hheard.run, show s.cancel = (s.heard (.port p) (s.incoming p w)).cancel from rfl,
      hraised] at hcalm
    cases hcalm
  | unacquired hheard _ hacquire habort =>
    obtain ⟨rfl, hunanswered, hsent⟩ := hheard.received hport
    obtain ⟨-, -, hunmoved⟩ := acquire_frame hacquire
    obtain ⟨hunanswered', hlines⟩ := unanswered_of_abort habort
    obtain ⟨_, _, hended⟩ := ended_of_abort habort
    refine .inl ⟨fun hadmits => ?_,
      (hunanswered.trans (unanswered_of_acquire hacquire)).trans hunanswered', ?_,
      fun _ => ends_of_abort habort (early_of_acquire hacquire), hended.ne_ok⟩
    · obtain ⟨g, hguard, hfails⟩ := not_granted_of_acquire hacquire
      obtain ⟨acquisition, hgranted⟩ := hadmits.granted g hguard
      rw [hheard.run, hfails] at hgranted
      cases hgranted
    · rw [Port.sent_congr hlines, Port.sent_congr hunmoved.lines, hsent]
  | unreleased hanswered hrelease habort =>
    obtain ⟨hadmits, hentered, rfl, hsegments, hsent⟩ := hanswered.executes hport
    obtain ⟨hunanswered, hlines⟩ := unanswered_of_release hrelease
    obtain ⟨hunanswered', hlines'⟩ := unanswered_of_abort habort
    have hquiet := hunanswered.trans hunanswered'
    obtain ⟨_, _, hended⟩ := ended_of_abort habort
    refine .inr ⟨hadmits, hquiet.answered.trans hentered, hquiet.segments.trans hsegments,
      ⟨[], List.nil_prefix, ?_, fun hok => absurd hok hended.ne_ok⟩,
      ends_of_abort habort (late_of_release hrelease)⟩
    rw [Port.sent_congr hlines', Port.sent_congr hlines, hsent, List.append_nil]
  | delivered hanswered hrelease hdeliver =>
    obtain ⟨hadmits, hentered, rfl, hsegments, hsent⟩ := hanswered.executes hport
    obtain ⟨hconnection, -, -, -⟩ := hanswered.port hport
    obtain ⟨hunanswered, hlines⟩ := unanswered_of_release hrelease
    obtain ⟨rfl, -, -⟩ := freed_of_release hrelease
    have hsends := sends_of_run hdeliver
    obtain ⟨hunanswered', taken, htaken, hafter, hwhole⟩ := sent_of_sends hsends hconnection
    have hquiet := hunanswered.trans hunanswered'
    refine .inr ⟨hadmits, hquiet.answered.trans hentered, hquiet.segments.trans hsegments,
      ⟨taken, htaken, ?_, hwhole⟩, ends_of_sends hsends hconnection⟩
    rw [hafter, Port.sent_congr hlines, hsent]

/-- One call executes at most one request, and the banks change by that alone. Its result tells
whether it did: errors of the line while receiving and of acquiring the semaphore come before an
execution, errors of giving it back and of sending the reply come after one. -/
theorem executes_at_most_once (hport : s.connection = .port p) (w : World) :
    let result := (s.serveOne.run w).1.1
    let after := (s.serveOne.run w).2
    let execution := (s.store.execute s.engine (s.incoming p w)).run w
    (s.Admits w →
      after.answered = s.incoming p w :: w.answered ∧ after.segments = execution.2.segments ∧
        ∃ taken, taken <+: execution.1.getD [] ∧ p.sent after = p.sent w ++ taken ∧
          (result = .ok .continue → taken = execution.1.getD [])) ∧
    (¬s.Admits w →
      after.answered = w.answered ∧ after.segments = w.segments ∧ p.sent after = p.sent w) ∧
    (result = .ok .continue → s.Admits w) ∧
    ∀ e, result = .error e → (e.Early → ¬s.Admits w) ∧ (e.Late → s.Admits w) ∧
      (e.Early ∨ e.Late ∨ e = .cancelled ∨ e = .terminated ∧ ¬s.Admits w) := by
  intro result after execution
  have hserves : s.Serves w (s.serveOne.run w).1 after := serves_of_run rfl
  rcases serves_cases hserves hport with hwithheld | hexecuted
  · refine ⟨fun hadmits => absurd hadmits hwithheld.barred, fun _ => ?_,
      fun hok => absurd hok hwithheld.stops, fun e herror => ?_⟩
    · exact ⟨hwithheld.unanswered.answered, hwithheld.unanswered.segments, hwithheld.sent⟩
    · cases hactive : s.state.isTerminal with
      | true =>
        have hterminated : result = .error .terminated := by
          show (s.serveOne.run w).1.1 = _
          unfold serveOne
          simp only [hactive, if_true]
          rfl
        rw [hterminated] at herror
        cases herror
        exact ⟨fun _ => hwithheld.barred, nofun, .inr (.inr (.inr ⟨rfl, hwithheld.barred⟩))⟩
      | false =>
        have hends := hwithheld.ends hactive
        rw [show (s.serveOne.run w).1.1 = .error e from herror] at hends
        rcases hends.of_error with ⟨rfl, -⟩ | ⟨hearly, -⟩
        · exact ⟨fun _ => hwithheld.barred, nofun, .inr (.inr (.inl rfl))⟩
        · exact ⟨fun _ => hwithheld.barred, fun hlate => absurd hlate hearly.not_late, .inl hearly⟩
  · refine ⟨fun _ => ⟨hexecuted.answered, hexecuted.segments, hexecuted.sent⟩,
      fun hbarred => absurd hexecuted.admitted hbarred, fun _ => hexecuted.admitted,
      fun e herror => ?_⟩
    have hends := hexecuted.ends
    rw [show (s.serveOne.run w).1.1 = .error e from herror] at hends
    rcases hends.of_error with ⟨rfl, -⟩ | ⟨hlate, -⟩
    · exact ⟨nofun, fun _ => hexecuted.admitted, .inr (.inr (.inl rfl))⟩
    · exact ⟨fun hearly => absurd hlate hearly.not_late, fun _ => hexecuted.admitted,
        .inr (.inl hlate)⟩

/-- The first request of a visitor to station 7 is executed once, and its reply is sent whole. -/
theorem visitor_executed_once :
    (guardedServer.serveOne.run visited).2.answered =
        [[0x07, 0x06, 0x00, 0x01, 0x12, 0x34, 0xD5, 0x1B]] ∧
      Port.sent { line := 0, cancel := 0 } (guardedServer.serveOne.run visited).2 =
        [0x07, 0x06, 0x00, 0x01, 0x12, 0x34, 0xD5, 0x1B] := by
  have hresult : (guardedServer.serveOne.run visited).1.1.toOption = some .continue := by
    decide +kernel
  have hcontinue := eq_ok_of_toOption hresult
  have hincoming : guardedServer.incoming { line := 0, cancel := 0 } visited =
      [0x07, 0x06, 0x00, 0x01, 0x12, 0x34, 0xD5, 0x1B] := by
    decide +kernel
  have hreply : ((guardedServer.store.execute guardedServer.engine
      [0x07, 0x06, 0x00, 0x01, 0x12, 0x34, 0xD5, 0x1B]).run visited).1 =
        some [0x07, 0x06, 0x00, 0x01, 0x12, 0x34, 0xD5, 0x1B] := by
    decide +kernel
  obtain ⟨hexecuted, -, hadmitted, -⟩ :=
    @executes_at_most_once guardedServer { line := 0, cancel := 0 } rfl visited
  obtain ⟨hanswered, -, taken, -, hsent, hwhole⟩ := hexecuted (hadmitted hcontinue)
  rw [hwhole hcontinue, hincoming, hreply] at hsent
  rw [hincoming] at hanswered
  exact ⟨hanswered, hsent⟩

end Server
end RtuStation
