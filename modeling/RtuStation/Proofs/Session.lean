import RtuStation.Proofs.Contention
import RtuStation.Proofs.Deliveries
import RtuStation.Proofs.Extents
import RtuStation.Proofs.History
import RtuStation.Proofs.Transmissions

/-!
# Sessions over a line

A session that nothing disturbs does what its engine does frame by frame: the banks go through the
changes of the answers, in their order, and the line takes the replies, one after the other.

`Store.answers` is the engine on a list of frames, with no line between. `Port.Carries` is what the
line has still to do, `Server.Ready` a server between two requests. Serving one request takes a ready
server to a ready one, with one frame and its reply less to come.
-/

namespace RtuStation

/-! ### The engine, frame by frame -/

namespace Store

/-- Has an engine answer frames, one after the other; the replies that are due, in their order. -/
def answers (store : Store) (engine : Engine) : List Octets → Deed (List Octets)
  | [] => return []
  | frame :: later => do
    let reply ← store.execute engine frame
    let replies ← answers store engine later
    return reply.toList ++ replies

variable (store : Store) (engine : Engine)

theorem answers_cons (frame : Octets) (later : List Octets) (w : World) :
    (store.answers engine (frame :: later)).run w =
      let first := (store.execute engine frame).run w
      let others := (store.answers engine later).run first.2
      (first.1.toList ++ others.1, others.2) := rfl

theorem segments_apply_congr (change : Change) {v w : World} (h : v.segments = w.segments) :
    ((store.apply change).run v).2.segments = ((store.apply change).run w).2.segments := by
  cases change with
  | nothing => exact h
  | coils bank | holdingRegisters bank =>
    show v.segments.modify _ _ = w.segments.modify _ _
    rw [h]

theorem execute_congr (frame : Octets) {v w : World} (h : v.segments = w.segments) :
    ((store.execute engine frame).run v).1 = ((store.execute engine frame).run w).1 ∧
      ((store.execute engine frame).run v).2.segments =
        ((store.execute engine frame).run w).2.segments := by
  obtain ⟨hreply, hsegments⟩ := store.execute_run engine frame v
  obtain ⟨hreply', hsegments'⟩ := store.execute_run engine frame w
  rw [hreply, hreply', hsegments, hsegments', store.banks_congr h]
  exact ⟨rfl, store.segments_apply_congr _ h⟩

theorem answers_congr (frames : List Octets) {v w : World} (h : v.segments = w.segments) :
    ((store.answers engine frames).run v).1 = ((store.answers engine frames).run w).1 ∧
      ((store.answers engine frames).run v).2.segments =
        ((store.answers engine frames).run w).2.segments := by
  induction frames generalizing v w with
  | nil => exact ⟨rfl, h⟩
  | cons frame later ih =>
    obtain ⟨hreply, hsegments⟩ := store.execute_congr engine frame h
    obtain ⟨hreplies, hfinal⟩ := ih hsegments
    refine ⟨?_, hfinal⟩
    simp only [answers_cons, hreply, hreplies]

theorem banks_answers (distinct : store.Distinct) (station : Station) (frames : List Octets)
    (w : World) :
    store.banks ((store.answers station.engine frames).run w).2 =
      station.after (store.banks w) frames := by
  induction frames generalizing w with
  | nil => rfl
  | cons frame later ih =>
    have hfirst := (execute_eq_process distinct station frame w).2
    rw [answers_cons, ih, hfirst]
    rfl

theorem execute_kept (frame : Octets) (w : World) :
    ((store.execute engine frame).run w).2.lines = w.lines ∧
      ((store.execute engine frame).run w).2.exhausted = w.exhausted ∧
      ((store.execute engine frame).run w).2.flags = w.flags ∧
      ((store.execute engine frame).run w).2.contention = w.contention := by
  obtain ⟨notices, hrun⟩ := store.execute_eq engine frame w
  rw [hrun]
  cases (engine.answer frame (store.banks w)).change <;> exact ⟨rfl, rfl, rfl, rfl⟩

end Store

/-! ### The line -/

namespace Port

/-- The line of a port brings frames and then the end of the session, has taken `sent` and accepts
replies; waits are possible and the cancellation flag is not raised. -/
structure Carries (p : Port) (frames replies : List Octets) (sent : Octets) (w : World) : Prop where
  able : w.exhausted = false
  calm : w.flags.raised p.cancel = false
  line : ∃ line, w.lines[p.line]? = some line ∧ line.rest.Ends ∧ line.sent = sent ∧
    Delivers p.cancel frames [] [] line.arrivals ∧
    Accepts p.cancel replies line.sink line.departures

variable {p : Port} {frames replies : List Octets} {frame reply sent : Octets} {w : World}

theorem Carries.congr {v : World} (h : p.Carries frames replies sent w) (hlines : v.lines = w.lines)
    (hable : v.exhausted = w.exhausted)
    (hcalm : w.flags.raised p.cancel = false → v.flags.raised p.cancel = false) :
    p.Carries frames replies sent v where
  able := hable.trans h.able
  calm := hcalm h.calm
  line := by
    rw [hlines]
    exact h.line

theorem receive_of_carries {framing : Octets → FrameLength} (hopen : p.closed = false)
    (hcuts : FrameLength.Cuts framing frame) (hframe : frame ≠ [])
    (h : p.Carries (frame :: frames) replies sent w) :
    ∃ after, (p.receive framing).run w = ((⟨frame, .ok .request⟩, p), after) ∧
      p.Carries frames replies sent after ∧ after.segments = w.segments ∧
      after.contention = w.contention := by
  obtain ⟨line, hline, hends, hsent, hdelivers, haccepts⟩ := h.line
  obtain ⟨r, hrun, hexpects⟩ :=
    receive_of_expects hopen hcuts hframe ⟨h.able, h.calm, line, hline, hdelivers⟩
  obtain ⟨line', hline', hdelivers'⟩ := hexpects.brings
  have heq : line' = { line with arrivals := r.arrivals } :=
    Option.some.inj (hline'.symm.trans (line_received r hline))
  subst heq
  exact ⟨_, hrun, ⟨hexpects.able, hexpects.calm, _, hline', hends, hsent, hdelivers', haccepts⟩,
    rfl, rfl⟩

theorem send_of_carries (h : p.Carries frames (reply :: replies) sent w) :
    ∃ after, (p.send reply).run w = (.ok (), after) ∧
      p.Carries frames replies (sent ++ reply) after ∧ after.segments = w.segments ∧
      after.contention = w.contention := by
  obtain ⟨line, hline, hends, hsent, hdelivers, haccepts⟩ := h.line
  obtain ⟨r, hrun, haccepted, hcalm, harrivals, hlater⟩ :=
    send_of_accepts h.able h.calm hline haccepts
  refine ⟨_, hrun, ⟨h.able, hcalm, _, line_transmitted r hline, hends, ?_, ?_, hlater⟩, rfl, rfl⟩
  · show line.sent ++ r.accepted = _
    rw [hsent, haccepted]
  · rw [harrivals]
    exact hdelivers

theorem receive_at_end {framing : Octets → FrameLength} (hopen : p.closed = false)
    (hstart : (framing []).satisfied 0 = false) (hroom : (framing []).target ≠ 0)
    (h : p.Carries [] replies sent w) :
    ∃ after line, (p.receive framing).run w =
        ((⟨[], .ok .peerClosed⟩, { p with closed := true }), after) ∧
      after.lines[p.line]? = some line ∧ line.sent = sent ∧ after.segments = w.segments := by
  obtain ⟨line, hline, hends, hsent, hdelivers, _⟩ := h.line
  obtain ⟨r, hrun⟩ := receive_of_ends hopen h.able h.calm hline hends hstart hroom hdelivers
  exact ⟨_, _, hrun, line_received r hline, hsent, rfl⟩

end Port

/-! ### The server -/

namespace Server

theorem display_run (s : Server) (mark : String) (frame : Octets) (w : World) :
    ∃ output, (s.display mark frame).run w = ((), { w with output }) := by
  unfold display
  cases s.monitor with
  | false => exact ⟨w.output, rfl⟩
  | true => exact ⟨_, rfl⟩

variable {s : Server} {p : Port} {frames replies : List Octets} {frame sent : Octets} {w : World}
variable {cancel n : Nat}

theorem receive_of_carries (hconnection : s.connection = .port p) (hopen : p.closed = false)
    (hactive : s.state.isTerminal = false) (hframing : s.engine.frameLength = FrameLength.ofRequest)
    (hwhole : Whole frame) (h : p.Carries (frame :: frames) replies sent w) :
    ∃ after, s.receive.run w = ((.ok .request,
        { s with state := .receiving, connection := .port p, request := frame }), after) ∧
      p.Carries frames replies sent after ∧ after.segments = w.segments ∧
      after.contention = w.contention := by
  have hentered : p.Carries (frame :: frames) replies sent ((enter (.receive s.holds)).run w).2 :=
    h.congr rfl rfl id
  obtain ⟨received, hreceive, hcarries, hsegments, hcontention⟩ :=
    Port.receive_of_carries hopen (FrameLength.cuts_ofRequest hwhole) hwhole.ne_nil hentered
  have hfound : (s.connection.receive s.engine.frameLength).run ((enter (.receive s.holds)).run w).2 =
      ((⟨frame, .ok .request⟩, .port p), received) := by
    rw [hconnection, hframing]
    exact Deed.run_bind hreceive
  obtain ⟨output, hdisplay⟩ := display_run
    { s with state := .receiving, connection := .port p, request := frame } "<" frame received
  refine ⟨{ received with output }, ?_, hcarries.congr rfl rfl id, hsegments, hcontention⟩
  unfold receive
  simp only [hactive, Bool.false_eq_true, if_false]
  refine (Deed.run_bind rfl).trans ?_
  refine (Deed.run_bind hfound).trans ?_
  exact Deed.run_bind hdisplay

theorem acquire_of_bears
    (h : ∀ g, s.guard = some g → g.held = false ∧ g.Bears cancel (n + 1) w.contention) :
    ∃ guard after, s.acquire.run w = ((.ok (), { s with guard }), after) ∧ w.Kept cancel after ∧
      ∀ g, guard = some g → g.Bears cancel n after.contention := by
  unfold acquire
  cases hguard : s.guard with
  | none =>
    refine ⟨s.guard, w, rfl, ⟨rfl, rfl, rfl, id⟩, ?_⟩
    rw [hguard]
    exact nofun
  | some g =>
    obtain ⟨hfree, hbears⟩ := h g hguard
    obtain ⟨outcome, g', after, hrun, hafter, hkept⟩ := Guard.tryAcquire_of_bears hbears hfree
    refine ⟨some g', after, Deed.run_bind hrun, hkept, ?_⟩
    intro g'' hg
    cases hg
    exact hafter

theorem release_of_bears (h : ∀ g, s.guard = some g → g.Bears cancel n w.contention) :
    ∃ guard after, s.release.run w = ((.ok (), { s with guard }), after) ∧ w.Kept cancel after ∧
      ∀ g, guard = some g → g.held = false ∧ g.Bears cancel n after.contention := by
  unfold release
  cases hguard : s.guard with
  | none =>
    refine ⟨s.guard, w, rfl, ⟨rfl, rfl, rfl, id⟩, ?_⟩
    rw [hguard]
    exact nofun
  | some g =>
    obtain ⟨g', after, hrun, hfree, hafter, hkept⟩ := Guard.release_of_bears (h g hguard)
    refine ⟨some g', after, Deed.run_bind hrun, hkept, ?_⟩
    intro g'' hg
    cases hg
    exact ⟨hfree, hafter⟩

theorem deliver_of_carries {reply : Option Octets} (hconnection : s.connection = .port p)
    (h : p.Carries frames (reply.toList ++ replies) sent w) :
    ∃ after, (s.deliver reply).run w =
        ((.ok .continue, { s with connection := .port p, state := .idle }), after) ∧
      p.Carries frames replies (sent ++ reply.getD []) after ∧ after.segments = w.segments ∧
      after.contention = w.contention := by
  cases reply with
  | none =>
    refine ⟨w, ?_, ?_, rfl, rfl⟩
    · rw [← hconnection]
      rfl
    · rw [Option.getD_none, List.append_nil]
      exact h
  | some reply =>
    obtain ⟨output, hdisplay⟩ := display_run s ">" reply w
    have hentered : p.Carries frames (reply :: replies) sent
        ((enter (.send s.holds reply)).run { w with output }).2 := h.congr rfl rfl id
    obtain ⟨after, hsend, hcarries, hsegments, hcontention⟩ := Port.send_of_carries hentered
    have hsent : (s.connection.send reply).run ((enter (.send s.holds reply)).run { w with output }).2 =
        ((.ok (), .port p), after) := by
      rw [hconnection]
      exact Deed.run_bind hsend
    refine ⟨after, ?_, hcarries, hsegments, hcontention⟩
    refine (Deed.run_bind hdisplay).trans ?_
    refine (Deed.run_bind rfl).trans ?_
    exact Deed.run_bind hsent

/-- A frame that has been received is answered as the engine answers it on the banks, and its reply
is sent. -/
theorem answerRequest_of_carries (hconnection : s.connection = .port p)
    (hquiet : s.engine.cancels = false)
    (hbears : ∀ g, s.guard = some g → g.held = false ∧ g.Bears p.cancel (n + 1) w.contention)
    (h : p.Carries frames
      (((s.store.execute s.engine s.request).run w).1.toList ++ replies) sent w) :
    ∃ guard after, s.answerRequest.run w = ((.ok .continue,
        { s with connection := .port p, guard, state := .idle }), after) ∧
      p.Carries frames replies
        (sent ++ ((s.store.execute s.engine s.request).run w).1.getD []) after ∧
      after.segments = ((s.store.execute s.engine s.request).run w).2.segments ∧
      ∀ g, guard = some g → g.held = false ∧ g.Bears p.cancel n after.contention := by
  obtain ⟨taken, w₁, hacquire, hkept₁, hbears₁⟩ :=
    @acquire_of_bears { s with state := .guarding } w p.cancel n hbears
  let held : Server := { s with guard := taken, state := .replying }
  let w₂ := ((enter (.answer held.holds s.request)).run w₁).2
  obtain ⟨hreply, hchanged⟩ := s.store.execute_congr s.engine s.request
    (show w₂.segments = w.segments from hkept₁.segments)
  obtain ⟨hlines, hexhausted, hflags, hcontention⟩ := s.store.execute_kept s.engine s.request w₂
  have hanswer : held.answer.run w₁ = (s.store.execute s.engine s.request).run w₂ := by
    refine (Deed.run_bind rfl).trans ?_
    have hheld : held.engine.cancels = false := hquiet
    simp only [hheld, Bool.false_eq_true, if_false]
    exact Deed.run_bind rfl
  let w₃ := ((s.store.execute s.engine s.request).run w₂).2
  have hbears₃ : ∀ g, held.guard = some g → g.Bears p.cancel n w₃.contention := by
    intro g hg
    rw [hcontention]
    exact hbears₁ g hg
  obtain ⟨guard, w₄, hrelease, hkept₄, hbears₄⟩ := release_of_bears hbears₃
  -- Guard and engine leave the line alone, so that it still takes the reply.
  have hcarries : p.Carries frames
      (((s.store.execute s.engine s.request).run w).1.toList ++ replies) sent w₄ := by
    refine ((h.congr hkept₁.lines hkept₁.exhausted hkept₁.calm).congr hlines hexhausted
      fun hcalm => ?_).congr hkept₄.lines hkept₄.exhausted hkept₄.calm
    rw [hflags]
    exact hcalm
  obtain ⟨after, hdeliver, hsent, hsegments, hafter⟩ :=
    @deliver_of_carries { held with guard } p frames replies sent w₄ _ hconnection hcarries
  refine ⟨guard, after, ?_, hsent, ?_, ?_⟩
  · refine (Deed.run_bind hacquire).trans ?_
    refine (Deed.run_bind hanswer).trans ?_
    refine (Deed.run_bind hrelease).trans ?_
    rw [← hreply] at hdeliver
    exact hdeliver
  · rw [hsegments, hkept₄.segments]
    exact hchanged
  · intro g hg
    rw [hafter]
    exact hbears₄ g hg

/-- A server between two requests, with frames to come over the line and the line accepting the
replies that the engine gives to them. Its guard, if it has one, bears as many acquisitions. -/
structure Ready (s : Server) (p : Port) (frames : List Octets) (sent : Octets) (w : World) :
    Prop where
  connection : s.connection = .port p
  shared : p.cancel = s.cancel
  opened : p.closed = false
  active : s.state.isTerminal = false
  framing : s.engine.frameLength = FrameLength.ofRequest
  quiet : s.engine.cancels = false
  whole : ∀ frame ∈ frames, Whole frame
  carries : p.Carries frames ((s.store.answers s.engine frames).run w).1 sent w
  bears : ∀ g, s.guard = some g → g.held = false ∧ g.Bears p.cancel frames.length w.contention

theorem isRaised_run (number : Nat) (w : World) :
    (isRaised number).run w = (w.flags.raised number, w) := rfl

/-- Serving one request leaves a server ready for the others. -/
theorem serveOne_of_ready (h : s.Ready p (frame :: frames) sent w) :
    ∃ s' after, s.serveOne.run w = ((.ok .continue, s'), after) ∧
      s'.Ready p frames (sent ++ ((s.store.execute s.engine frame).run w).1.getD []) after ∧
      s'.store = s.store ∧ s'.engine = s.engine ∧
      after.segments = ((s.store.execute s.engine frame).run w).2.segments := by
  obtain ⟨received, hreceive, hcarries, hsegments, hcontention⟩ := receive_of_carries h.connection
    h.opened h.active h.framing (h.whole frame (List.mem_cons_self ..)) h.carries
  let s₁ : Server := { s with state := .receiving, connection := .port p, request := frame }
  obtain ⟨hreply, hchanged⟩ := s.store.execute_congr s.engine frame hsegments
  have hbears : ∀ g, s₁.guard = some g →
      g.held = false ∧ g.Bears p.cancel (frames.length + 1) received.contention := by
    rw [hcontention]
    exact h.bears
  have hdue : p.Carries frames (((s.store.execute s.engine frame).run received).1.toList ++
      ((s.store.answers s.engine frames).run ((s.store.execute s.engine frame).run w).2).1)
      sent received := by
    rw [hreply]
    exact hcarries
  obtain ⟨guard, after, hanswer, hafter, hsegments', hbears'⟩ :=
    @answerRequest_of_carries s₁ p frames _ sent received frames.length rfl h.quiet hbears hdue
  have hfinal : after.segments = ((s.store.execute s.engine frame).run w).2.segments :=
    hsegments'.trans hchanged
  refine ⟨{ s₁ with guard, state := .idle }, after, ?_, ?_, rfl, rfl, hfinal⟩
  · have hcalm : w.flags.raised s.cancel = false := h.shared ▸ h.carries.calm
    have hcalm₁ : received.flags.raised s.cancel = false := h.shared ▸ hcarries.calm
    unfold serveOne
    simp only [h.active, Bool.false_eq_true, if_false]
    refine (Deed.run_bind (isRaised_run ..)).trans ?_
    simp only [hcalm, Bool.false_eq_true, if_false]
    refine (Deed.run_bind hreceive).trans ?_
    refine (Deed.run_bind (isRaised_run ..)).trans ?_
    simp only [hcalm₁, Bool.false_eq_true, if_false]
    exact hanswer
  · refine ⟨rfl, h.shared, h.opened, rfl, h.framing, h.quiet, ?_, ?_, hbears'⟩
    · exact fun f hf => h.whole f (List.mem_cons_of_mem frame hf)
    · rw [← hreply]
      have hreplies := (s.store.answers_congr s.engine frames hfinal).1
      show p.Carries frames ((s.store.answers s.engine frames).run after).1 _ after
      rw [hreplies]
      exact hafter

theorem serveOne_at_end (h : s.Ready p [] sent w) :
    ∃ s' after line, s.serveOne.run w = ((.ok .peerClosed, s'), after) ∧ s'.state = .closed ∧
      after.lines[p.line]? = some line ∧ line.sent = sent ∧ after.segments = w.segments := by
  have hentered : p.Carries [] ((s.store.answers s.engine []).run w).1 sent
      ((enter (.receive s.holds)).run w).2 := h.carries.congr rfl rfl id
  obtain ⟨received, line, hreceive, hline, hsent, hsegments⟩ :=
    @Port.receive_at_end p _ sent _ FrameLength.ofRequest h.opened rfl (by decide) hentered
  have hfound : (s.connection.receive s.engine.frameLength).run ((enter (.receive s.holds)).run w).2 =
      ((⟨[], .ok .peerClosed⟩, .port { p with closed := true }), received) := by
    rw [h.connection, h.framing]
    exact Deed.run_bind hreceive
  let after := ((report (.peerClosed s.role)).run received).2
  let s' : Server :=
    { s with state := .closed, connection := .port { p with closed := true }, request := [] }
  have hclosed : s.receive.run w = ((.ok .peerClosed, s'), after) := by
    unfold receive
    simp only [h.active, Bool.false_eq_true, if_false]
    refine (Deed.run_bind rfl).trans ?_
    refine (Deed.run_bind hfound).trans ?_
    rfl
  refine ⟨s', after, line, ?_, rfl, hline, hsent, hsegments⟩
  have hcalm : w.flags.raised s.cancel = false := h.shared ▸ h.carries.calm
  unfold serveOne
  simp only [h.active, Bool.false_eq_true, if_false]
  refine (Deed.run_bind (isRaised_run ..)).trans ?_
  simp only [hcalm, Bool.false_eq_true, if_false]
  exact Deed.run_bind hclosed

theorem serve_of_ready {n : Nat} (h : s.Ready p frames sent w) (hn : frames.length < n) :
    ∃ s' after line, (serve n s).run w = ((.ok .peerClosed, s'), after) ∧ s'.state = .closed ∧
      after.lines[p.line]? = some line ∧
      line.sent = sent ++ ((s.store.answers s.engine frames).run w).1.flatten ∧
      after.segments = ((s.store.answers s.engine frames).run w).2.segments := by
  induction frames generalizing s w sent n with
  | nil =>
    obtain ⟨n, rfl⟩ := Nat.exists_eq_succ_of_ne_zero (Nat.ne_zero_of_lt hn)
    obtain ⟨s', after, line, hserve, hclosed, hline, hsent, hsegments⟩ := serveOne_at_end h
    refine ⟨s', after, line, Deed.run_bind hserve, hclosed, hline, ?_, hsegments⟩
    rw [hsent]
    exact (List.append_nil _).symm
  | cons frame frames ih =>
    obtain ⟨n, rfl⟩ := Nat.exists_eq_succ_of_ne_zero (Nat.ne_zero_of_lt hn)
    obtain ⟨s₁, w₁, hserve, hready, hstore, hengine, hsegments⟩ := serveOne_of_ready h
    obtain ⟨s', after, line, hrest, hclosed, hline, hsent, hfinal⟩ :=
      ih hready (Nat.lt_of_succ_lt_succ hn)
    obtain ⟨hreplies, hchanged⟩ := s.store.answers_congr s.engine frames hsegments
    rw [hstore, hengine] at hsent hfinal
    refine ⟨s', after, line, (Deed.run_bind hserve).trans hrest, hclosed, hline, ?_,
      hfinal.trans hchanged⟩
    rw [hsent, hreplies, Store.answers_cons]
    dsimp only
    cases ((s.store.execute s.engine frame).run w).1 with
    | none => simp
    | some reply => simp

/-- A station's server over a line refines the station's engine over frames: it serves whole requests
that come one after the other, whatever the line does to them on the way and however others contend
for its guard, as the engine answers them with no line between. The line takes the replies that are
due, in the order of the requests, and the banks go through the changes of the answers. -/
theorem run_refines_engine (station : Station) (s : Server) (p : Port) (w : World) (line : Line)
    (frames : List Octets) (hengine : s.engine = station.engine)
    (hconnection : s.connection = .port p) (hshared : p.cancel = s.cancel)
    (hopen : p.closed = false) (hactive : s.state.isTerminal = false)
    (hable : w.exhausted = false) (hcalm : w.flags.raised s.cancel = false)
    (hline : w.lines[p.line]? = some line) (hends : line.rest.Ends)
    (hwhole : ∀ frame ∈ frames, Whole frame)
    (hdelivers : Delivers s.cancel frames [] [] line.arrivals)
    (haccepts : Accepts s.cancel ((s.store.answers station.engine frames).run w).1 line.sink
      line.departures)
    (hbears : ∀ g, s.guard = some g →
      g.held = false ∧ g.Bears s.cancel frames.length w.contention) :
    ∃ s' after line', s.run.run w = ((.ok .peerClosed, s'), after) ∧ s'.state = .closed ∧
      after.lines[p.line]? = some line' ∧
      line'.sent = line.sent ++ ((s.store.answers station.engine frames).run w).1.flatten ∧
      after.segments = ((s.store.answers station.engine frames).run w).2.segments ∧
      (s.store.Distinct → s.store.banks after = station.after (s.store.banks w) frames) := by
  have hbanks {after : World}
      (hsegments : after.segments = ((s.store.answers station.engine frames).run w).2.segments)
      (distinct : s.store.Distinct) :
      s.store.banks after = station.after (s.store.banks w) frames :=
    (s.store.banks_congr hsegments).trans (s.store.banks_answers distinct station frames w)
  rw [← hshared] at hcalm hdelivers haccepts hbears
  rw [← hengine] at haccepts hbanks ⊢
  -- The report at the start touches no segment, so that the same replies are due after it.
  let started := ((report (.loopStarted s.role)).run w).2
  have hreplies := s.store.answers_congr s.engine frames (show started.segments = w.segments from rfl)
  have hready : s.Ready p frames line.sent started := by
    refine ⟨hconnection, hshared, hopen, hactive, ?_, ?_, hwhole, ?_, hbears⟩
    · rw [hengine]
      rfl
    · rw [hengine]
      rfl
    · rw [hreplies.1]
      exact ⟨hable, hcalm, line, hline, hends, rfl, hdelivers, haccepts⟩
  -- Each frame still has an octet on the line, so that no request is left when serving stops.
  have hfuel : frames.length < s.connection.pending started + 2 := by
    have hpending := hdelivers.length_le_pending fun frame hframe => (hwhole frame hframe).ne_nil
    have hsame : s.connection.pending started = pending line.arrivals := by
      rw [hconnection]
      show pending ((w.lines[p.line]?).getD .dead).arrivals = _
      rw [hline]
      rfl
    omega
  obtain ⟨s', after, line', hserve, hclosed, hline', hsent, hsegments⟩ := serve_of_ready hready hfuel
  have hfinal := hsegments.trans hreplies.2
  refine ⟨s', after, line', ?_, hclosed, hline', ?_, hfinal, hbanks hfinal⟩
  · refine (Deed.run_bind rfl).trans ?_
    exact (Deed.run_bind rfl).trans hserve
  · rw [hsent, hreplies.1]

def writeThenRead : List Octets :=
  [[0x07, 0x06, 0x00, 0x01, 0x12, 0x34, 0xD5, 0x1B],
    [0x07, 0x03, 0x00, 0x01, 0x00, 0x01, 0xD5, 0xAC]]

/-- They come in three pieces, and the replies leave in several. -/
def visitedLine : Line where
  sink := .endless
  rest := .ended
  arrivals := [.octets [0x07, 0x06, 0x00], .octets [0x01, 0x12, 0x34, 0xD5, 0x1B, 0x07, 0x03],
    .octets [0x00, 0x01, 0x00, 0x01, 0xD5, 0xAC]]
  departures := [.takes 3, .interrupted, .full .ready]

/-- Others let the guard be taken once and then have it time out. -/
def visited : World where
  segments := Store.fourSegments.segments
  semaphores := Registry.empty.add ⟨"/guard"⟩ 1
  lines := #[visitedLine]
  flags := #[false]
  agenda := [Acquisition.acquired, .timedOut].flatMap (Acquisition.causes 0)

def stationSeven : Station := ⟨7, by decide⟩

def guardedServer : Server where
  role := .slave
  connection := .port { line := 0, cancel := 0 }
  engine := stationSeven.engine
  store := Store.overFour
  guard := some (.ofSemaphore ⟨0, "guard", ⟨"/guard"⟩, true⟩ {})
  cancel := 0

theorem delivers_visited : Delivers 0 writeThenRead [] [] visitedLine.arrivals := by
  iterate 3 refine Delivers.cons nofun nofun ?_
  exact Delivers.none 0 writeThenRead []

theorem accepts_visited (replies : List Octets) :
    Accepts 0 replies visitedLine.sink visitedLine.departures := by
  refine accepts_of_passes replies fun departure hdeparture => ?_
  simp only [visitedLine, List.mem_cons, List.not_mem_nil, or_false] at hdeparture
  rcases hdeparture with rfl | rfl | rfl <;> exact nofun

theorem bears_visited {g : Guard} (h : guardedServer.guard = some g) :
    g.held = false ∧ g.Bears 0 2 visited.contention := by
  obtain rfl := Option.some.inj h
  refine ⟨rfl, ?_, ?_, by decide, ?_⟩
  · have hall : ∀ happening ∈ visited.agenda,
        happening.fault = none ∧ happening.raises ≠ some 0 := by decide
    exact hall
  · have hall : ∀ happening ∈ visited.agenda, ∀ brought ∈ happening.brings,
        brought.2 < maxCount := by decide
    exact fun happening hmem k hk => hall happening hmem (0, k) hk
  · intro k
    have houtlook : Contention.outcomes 0 2 visited.contention = [.acquired, .timedOut] :=
      @outcomes_causes 0 visited.semaphores [.acquired, .timedOut] (by decide)
    show (Health.after _ (List.take k (Contention.outcomes 0 2 visited.contention))).state ≠ _
    rw [houtlook]
    match k with
    | 0 => decide
    | 1 => decide
    | k + 2 =>
      rw [List.take_of_length_le (Nat.le_add_left 2 k)]
      decide

theorem replies_visited :
    ((Store.overFour.answers stationSeven.engine writeThenRead).run visited).1 =
      [[0x07, 0x06, 0x00, 0x01, 0x12, 0x34, 0xD5, 0x1B],
        [0x07, 0x03, 0x02, 0x12, 0x34, 0x3D, 0x33]] := by
  decide +kernel

/-- The write is answered under the guard and the read without it, since acquiring times out. -/
theorem guarded_session :
    ∃ s' after line, guardedServer.run.run visited = ((.ok .peerClosed, s'), after) ∧
      s'.state = .closed ∧ after.lines[0]? = some line ∧
      line.sent = [0x07, 0x06, 0x00, 0x01, 0x12, 0x34, 0xD5, 0x1B, 0x07, 0x03, 0x02, 0x12, 0x34,
        0x3D, 0x33] ∧
      (guardedServer.store.banks after).holdingRegisters.get? 1 = some 0x1234 := by
  have hwhole : ∀ frame ∈ writeThenRead, Whole frame := by
    intro frame hframe
    simp only [writeThenRead, List.mem_cons, List.not_mem_nil, or_false] at hframe
    rcases hframe with rfl | rfl <;> exact ⟨.fixed (by decide) rfl, by decide⟩
  have hreplies : ((guardedServer.store.answers stationSeven.engine writeThenRead).run visited).1 = _ :=
    replies_visited
  have hwritten : (stationSeven.after (guardedServer.store.banks visited)
      writeThenRead).holdingRegisters.get? 1 = some 0x1234 := by
    decide +kernel
  obtain ⟨s', after, line, hrun, hclosed, hline, hsent, -, hbanks⟩ :=
    run_refines_engine stationSeven guardedServer { line := 0, cancel := 0 } visited visitedLine
      writeThenRead rfl rfl rfl rfl rfl rfl rfl rfl trivial hwhole delivers_visited
      (accepts_visited _) fun _ => bears_visited
  refine ⟨s', after, line, hrun, hclosed, hline, ?_, ?_⟩
  · rw [hsent, hreplies]
    rfl
  · rw [hbanks Store.distinct_overFour]
    exact hwritten

end Server
end RtuStation
