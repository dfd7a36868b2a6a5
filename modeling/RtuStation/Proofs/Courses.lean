import RtuStation.Proofs.Calls
import RtuStation.Proofs.Session

/-!
# Courses of a request

Serving a request can go many ways: each of its steps may fail, and the operator may cancel it in
between. `Receives`, `Sends` and `Serves` list these ways, with what each step was given and what it
left; every run of `receive`, `deliver` and `serveOne` is on one of them.
-/

namespace RtuStation

/-! ### Connections -/

/-- What a reception over a line has found, by the way it ended. -/
def Ending.verdict : Ending → Except Error Received
  | .whole | .crowded | .silence => .ok .request
  | .closed => .ok .peerClosed
  | .failed fault => .error (.transport fault)
  | .cancelled => .error cancelledReception
  | .waiting => .ok .waiting

namespace Port

variable {p : Port} {framing : Octets → FrameLength} {w : World}

def intake (p : Port) (framing : Octets → FrameLength) (w : World) : Intake :=
  let line := (w.lines[p.line]?).getD .dead
  RtuStation.intake (p.terms framing w) line.rest [] line.arrivals w.flags

theorem receive_of_closed (h : p.closed = true) :
    (p.receive framing).run w = ((⟨[], .ok .peerClosed⟩, p), w) := by
  simp only [receive, h, if_true]
  rfl

theorem receive_of_open (h : p.closed = false) :
    ∃ notices, (p.receive framing).run w =
      ((⟨(p.intake framing w).context, (p.intake framing w).ending.verdict⟩,
          { p with closed := (p.intake framing w).ending = .closed }),
        { p.received (p.intake framing w) w with notices }) := by
  have hrun : (p.receive framing).run w =
      (p.conclude framing (p.intake framing w)).run (p.received (p.intake framing w) w) := by
    simp only [receive, h, Bool.false_eq_true, if_false, StateT.run_bind, StateT.run_get,
      StateT.run_set, pure_bind]
    rfl
  have hsame : { p with closed := false } = p := by rw [← h]
  rw [hrun]
  unfold conclude
  cases hending : (p.intake framing w).ending with
  | silence =>
    dsimp only
    split
    all_goals exact ⟨_, by simp only [reduceCtorEq, decide_false, hsame]; rfl⟩
  | closed => exact ⟨_, rfl⟩
  | _ => exact ⟨_, by simp only [reduceCtorEq, decide_false, hsame]; rfl⟩

def transmission (p : Port) (frame : Octets) (w : World) : Dispatch :=
  let line := (w.lines[p.line]?).getD .dead
  transmit { cancel := p.cancel, waitFault := w.waitFault } line.sink line.departures frame w.flags

end Port

def Dispatch.Ending.verdict : Dispatch.Ending → Except Error Unit
  | .whole => .ok ()
  | .cancelled => .error .cancelled
  | .failed fault => .error (.reply fault)
  | .hungUp => .error (.reply (.kind .brokenPipe))
  | .expired => .error (.reply (.worded .timedOut "reply not sent within the response timeout"))

theorem Port.send_run (p : Port) (frame : Octets) (w : World) :
    (p.send frame).run w =
      ((p.transmission frame w).ending.verdict, p.transmitted (p.transmission frame w) w) := by
  simp only [send, StateT.run_bind, StateT.run_get, StateT.run_set, pure_bind]
  cases hending : (p.transmission frame w).ending with
  | _ =>
    simp only [transmission] at hending
    simp only [hending]
    rfl

namespace Connection

variable {c c' : Connection} {framing : Octets → FrameLength} {r : Reception}

/-- A line whose end was seen brings nothing more, and any other what its intake has taken. -/
theorem receive_port_cases {p : Port} {w after : World}
    (h : ((port p).receive framing).run w = ((r, c'), after)) :
    (∃ p', c' = port p') ∧
      (r.result = .ok .peerClosed ∧ after = w ∨
        r = ⟨(p.intake framing w).context, (p.intake framing w).ending.verdict⟩ ∧
          ∃ notices, after = { p.received (p.intake framing w) w with notices }) := by
  obtain ⟨⟨_, p'⟩, _, hreceive, hmade⟩ := Deed.of_run_bind h
  cases hmade
  refine ⟨⟨p', rfl⟩, ?_⟩
  cases hclosed : p.closed with
  | true =>
    rw [Port.receive_of_closed hclosed] at hreceive
    cases hreceive
    exact .inl ⟨rfl, rfl⟩
  | false =>
    obtain ⟨notices, hrun⟩ := @Port.receive_of_open p framing w hclosed
    rw [hrun] at hreceive
    cases hreceive
    exact .inr ⟨rfl, notices, rfl⟩

theorem receive_kept {w after : World}
    (h : (c.receive framing).run w = ((r, c'), after)) :
    after.segments = w.segments ∧ after.journal = w.journal := by
  cases c with
  | port p =>
    obtain ⟨⟨_, _⟩, _, hreceive, hmade⟩ := Deed.of_run_bind h
    cases hmade
    cases hclosed : p.closed with
    | true =>
      rw [Port.receive_of_closed hclosed] at hreceive
      cases hreceive
      exact ⟨rfl, rfl⟩
    | false =>
      obtain ⟨notices, hrun⟩ := @Port.receive_of_open p framing w hclosed
      rw [hrun] at hreceive
      cases hreceive
      exact ⟨rfl, rfl⟩
  | script s =>
    obtain ⟨⟨_, _⟩, _, hreceive, hmade⟩ := Deed.of_run_bind h
    cases hmade
    unfold Script.receive at hreceive
    split at hreceive
    · cases hreceive
      exact ⟨rfl, rfl⟩
    · next cancels cue later _ =>
      cases cancels <;> cases cue <;>
        · cases hreceive
          exact ⟨rfl, rfl⟩

theorem send_kept {frame : Octets} {outcome : Except Error Unit} {w after : World}
    (h : (c.send frame).run w = ((outcome, c'), after)) :
    after.segments = w.segments ∧ after.journal = w.journal := by
  cases c with
  | port p =>
    obtain ⟨_, _, hsend, hmade⟩ := Deed.of_run_bind h
    cases hmade
    rw [Port.send_run] at hsend
    cases hsend
    exact ⟨rfl, rfl⟩
  | script s =>
    obtain ⟨⟨_, _⟩, _, hsend, hmade⟩ := Deed.of_run_bind h
    cases hmade
    unfold Script.send at hsend
    split at hsend
    · cases hsend
      exact ⟨rfl, rfl⟩
    · next cancels failure later _ =>
      cases cancels <;> cases failure <;>
        · cases hsend
          exact ⟨rfl, rfl⟩

end Connection

theorem Store.execute_frame {store : Store} {engine : Engine} {frame : Octets}
    {reply : Option Octets} {w after : World}
    (h : (store.execute engine frame).run w = (reply, after)) :
    after.journal = w.journal ∧ after.lines = w.lines := by
  obtain ⟨notices, hrun⟩ := store.execute_eq engine frame w
  rw [hrun] at h
  cases h
  cases (engine.answer frame (store.banks w)).change <;> exact ⟨rfl, rfl⟩

namespace Server

/-! ### Giving the guard back -/

def freed (s : Server) : Server :=
  { s with guard := s.guard.map fun g => { g with held := false } }

def returns (s : Server) : List Entry := s.guard.elim [] Guard.returns

variable {s s₁ s₂ s₃ : Server} {w w₁ w₂ w₃ after : World}

theorem holds_freed (s : Server) : s.freed.holds = false := by
  unfold holds freed
  cases s.guard <;> rfl

theorem freed_of_free (h : s.holds = false) : s.freed = s := by
  obtain ⟨role, connection, engine, store, guard, cancel, state, monitor, request⟩ := s
  cases guard with
  | none => rfl
  | some g =>
    obtain ⟨semaphore, policy, health, held⟩ := g
    obtain rfl : held = false := h
    rfl

theorem returns_of_free (h : s.holds = false) : s.returns = [] := by
  unfold holds at h
  unfold returns
  cases hguard : s.guard with
  | none => rfl
  | some g =>
    rw [hguard] at h
    have hfree : g.held = false := h
    simp [Guard.returns, hfree]

theorem release_run (s : Server) (w : World) :
    ∃ outcome after, s.release.run w = ((outcome, s.freed), after) ∧ w.Unmoved after ∧
      after.journal = s.returns ++ w.journal := by
  obtain ⟨role, connection, engine, store, guard, cancel, state, monitor, request⟩ := s
  cases guard with
  | none => exact ⟨.ok (), w, rfl, .refl w, rfl⟩
  | some g =>
    obtain ⟨outcome, after, hrelease, hunmoved, hjournal⟩ := g.release_cases w
    exact ⟨outcome, after, Deed.run_bind hrelease, hunmoved, hjournal⟩

theorem freed_of_release {outcome : Except Error Unit}
    (h : s.release.run w = ((outcome, s₁), after)) :
    s₁ = s.freed ∧ w.Unmoved after ∧ after.journal = s.returns ++ w.journal := by
  obtain ⟨_, _, hrun, hunmoved, hjournal⟩ := s.release_run w
  rw [hrun] at h
  cases h
  exact ⟨rfl, hunmoved, hjournal⟩

-- letting go is a release whose outcome nobody looks at
theorem freed_of_letGo (h : s.letGo.run w = (s₁, after)) :
    s₁ = s.freed ∧ w.Unmoved after ∧ after.journal = s.returns ++ w.journal := by
  have hlet : s.letGo.run w = ((s.release.run w).1.2, (s.release.run w).2) := by
    unfold letGo release
    cases s.guard <;> rfl
  obtain ⟨_, _, hrun, hunmoved, hjournal⟩ := s.release_run w
  rw [hlet, hrun] at h
  cases h
  exact ⟨rfl, hunmoved, hjournal⟩

/-! ### Acquiring and answering -/

theorem acquire_frame {outcome : Except Error Unit}
    (h : s.acquire.run w = ((outcome, s₁), after)) :
    s₁ = { s with guard := s₁.guard } ∧ s₁.guard.isSome = s.guard.isSome ∧ w.Unmoved after := by
  unfold acquire at h
  split at h
  · cases h
    exact ⟨rfl, rfl, .refl w⟩
  · next g hguard =>
    obtain ⟨⟨result, g'⟩, _, hacquire, hdone⟩ := Deed.of_run_bind h
    cases hdone
    exact ⟨rfl, by rw [hguard]; rfl, (Guard.acquires_of_run hacquire).frame.1⟩

/-- Answering is noted, and may raise the engine's flag, before the request is executed. -/
theorem answer_cases {reply : Option Octets} (h : s.answer.run w = (reply, after)) :
    ∃ v, (s.store.execute s.engine s.request).run v = (reply, after) ∧
      v.journal = .answer s.holds s.request :: w.journal ∧ v.lines = w.lines ∧
      v.segments = w.segments := by
  obtain ⟨_, _, hentered, h⟩ := Deed.of_run_bind h
  cases hentered
  cases hcancels : s.engine.cancels with
  | true =>
    simp only [hcancels, if_true] at h
    obtain ⟨_, _, hraised, h⟩ := Deed.of_run_bind h
    cases hraised
    exact ⟨_, h, rfl, rfl, rfl⟩
  | false =>
    simp only [hcancels, Bool.false_eq_true, if_false] at h
    exact ⟨_, h, rfl, rfl, rfl⟩

theorem answer_frame {reply : Option Octets} (h : s.answer.run w = (reply, after)) :
    after.journal = .answer s.holds s.request :: w.journal ∧ after.lines = w.lines := by
  obtain ⟨v, hexecute, hjournal, hlines, -⟩ := answer_cases h
  obtain ⟨hjournal', hlines'⟩ := Store.execute_frame hexecute
  exact ⟨hjournal'.trans hjournal, hlines'.trans hlines⟩

/-! ### Ends of a session -/

variable {α : Type} {out : Except Error α × Server} {e : Error}

/-- A session has ended in a state and with an error, and the guard has been let go. -/
structure Ended (s : Server) (state : ServerState) (e : Error) (w : World)
    (out : Except Error α × Server) (after : World) : Prop where
  out : out = (.error e, { s with state }.freed)
  unmoved : w.Unmoved after
  journal : after.journal = s.returns ++ w.journal

theorem Ended.of_free {state : ServerState} (h : s.Ended state e w out after)
    (hfree : s.holds = false) : out.2 = { s with state } ∧ after.journal = w.journal := by
  refine ⟨?_, ?_⟩
  · rw [h.out]
    exact @freed_of_free { s with state } hfree
  · rw [h.journal, returns_of_free hfree, List.nil_append]

theorem Ended.ne_ok {state : ServerState} {a : α} (h : s.Ended state e w out after) :
    out.1 ≠ .ok a := by
  rw [h.out]
  exact nofun

theorem ended_of_shutDown (h : s.shutDown.run w = (out, after)) :
    s.Ended .closed .cancelled w out after := by
  obtain ⟨_, _, hlet, hdone⟩ := Deed.of_run_bind h
  obtain ⟨rfl, hunmoved, hjournal⟩ := freed_of_letGo hlet
  cases hdone
  exact ⟨rfl, hunmoved, hjournal⟩

theorem ended_of_fail (h : (s.fail e).run w = (out, after)) : s.Ended .fatal e w out after := by
  obtain ⟨_, _, hlet, hdone⟩ := Deed.of_run_bind h
  obtain ⟨rfl, hunmoved, hjournal⟩ := freed_of_letGo hlet
  cases hdone
  exact ⟨rfl, ⟨hunmoved.segments, hunmoved.lines⟩, hjournal⟩

/-- After an error a session ends as a shutdown if its flag is raised, and else as a failure. -/
theorem abort_cases (h : (s.abort e).run w = (out, after)) :
    w.flags.raised s.cancel = true ∧ s.Ended .closed .cancelled w out after ∨
      w.flags.raised s.cancel = false ∧ s.Ended .fatal e w out after := by
  have hrun := (Deed.run_bind (isRaised_run ..)).symm.trans h
  cases hraised : w.flags.raised s.cancel with
  | true =>
    simp only [hraised, if_true] at hrun
    exact .inl ⟨rfl, ended_of_shutDown hrun⟩
  | false =>
    simp only [hraised, Bool.false_eq_true, if_false] at hrun
    exact .inr ⟨rfl, ended_of_fail hrun⟩

theorem ended_of_abort (h : (s.abort e).run w = (out, after)) :
    ∃ state error, s.Ended state error w out after := by
  rcases abort_cases h with ⟨_, hended⟩ | ⟨_, hended⟩
  · exact ⟨.closed, .cancelled, hended⟩
  · exact ⟨.fatal, e, hended⟩

/-! ### Receptions -/

def listening (s : Server) (w : World) : World := ((enter (.receive s.holds)).run w).2

def heard (s : Server) (connection : Connection) (context : Octets) : Server :=
  { s with state := .receiving, connection, request := context }

/-- The ways of `receive`. -/
inductive Receives (s : Server) (w : World) :
    Except Error Received × Server → World → Prop
  | terminated : s.state.isTerminal = true → Receives s w (.error .terminated, s) w
  | request {connection : Connection} {context : Octets} {found : World} {output : Array String} :
      s.state.isTerminal = false →
      (s.connection.receive s.engine.frameLength).run (s.listening w) =
        ((⟨context, .ok .request⟩, connection), found) →
      Receives s w (.ok .request, s.heard connection context) { found with output }
  | peerClosed {connection : Connection} {context : Octets} {found : World} :
      s.state.isTerminal = false →
      (s.connection.receive s.engine.frameLength).run (s.listening w) =
        ((⟨context, .ok .peerClosed⟩, connection), found) →
      Receives s w (.ok .peerClosed, { s.heard connection context with state := .closed })
        ((report (.peerClosed s.role)).run found).2
  | waiting {connection : Connection} {context : Octets} {found : World} :
      s.state.isTerminal = false →
      (s.connection.receive s.engine.frameLength).run (s.listening w) =
        ((⟨context, .ok .waiting⟩, connection), found) →
      Receives s w (.ok .waiting, s.heard connection context) found
  | failed {connection : Connection} {context : Octets} {e : Error} {found after : World}
      {out : Except Error Received × Server} :
      s.state.isTerminal = false →
      (s.connection.receive s.engine.frameLength).run (s.listening w) =
        ((⟨context, .error e⟩, connection), found) →
      ((s.heard connection context).abort e).run found = (out, after) →
      Receives s w out after

theorem receives_of_run {out : Except Error Received × Server}
    (h : s.receive.run w = (out, after)) : s.Receives w out after := by
  unfold receive at h
  cases hactive : s.state.isTerminal with
  | true =>
    simp only [hactive, if_true] at h
    cases h
    exact .terminated hactive
  | false =>
    simp only [hactive, Bool.false_eq_true, if_false] at h
    obtain ⟨_, _, hentered, h⟩ := Deed.of_run_bind h
    cases hentered
    obtain ⟨⟨⟨context, result⟩, connection⟩, found, hreceive, h⟩ := Deed.of_run_bind h
    rcases result with e | _ | _ | _
    · exact .failed hactive hreceive h
    · obtain ⟨output, hdisplay⟩ := display_run (s.heard connection context) "<" context found
      have hdone := (Deed.run_bind hdisplay).symm.trans h
      cases hdone
      exact .request hactive hreceive
    · cases h
      exact .peerClosed hactive hreceive
    · cases h
      exact .waiting hactive hreceive

/-! ### Replies -/

def speaking (s : Server) (frame : Octets) (output : Array String) (w : World) : World :=
  ((enter (.send s.holds frame)).run { w with output }).2

/-- The ways of `deliver`. -/
inductive Sends (s : Server) (w : World) :
    Option Octets → Except Error Step × Server → World → Prop
  | silent : Sends s w none (.ok .continue, { s with state := .idle }) w
  | sent {frame : Octets} {output : Array String} {connection : Connection} {after : World} :
      (s.connection.send frame).run (s.speaking frame output w) = ((.ok (), connection), after) →
      Sends s w (some frame) (.ok .continue, { s with connection, state := .idle }) after
  | stopped {frame : Octets} {output : Array String} {connection : Connection}
      {sent after : World} {out : Except Error Step × Server} :
      (s.connection.send frame).run (s.speaking frame output w) =
        ((.error .cancelled, connection), sent) →
      (shutDown { s with connection }).run sent = (out, after) →
      Sends s w (some frame) out after
  | failed {frame : Octets} {output : Array String} {connection : Connection} {e : Error}
      {sent after : World} {out : Except Error Step × Server} :
      e ≠ .cancelled →
      (s.connection.send frame).run (s.speaking frame output w) =
        ((.error e, connection), sent) →
      (abort { s with connection } e).run sent = (out, after) →
      Sends s w (some frame) out after

theorem sends_of_run {reply : Option Octets} {out : Except Error Step × Server}
    (h : (s.deliver reply).run w = (out, after)) : s.Sends w reply out after := by
  cases reply with
  | none =>
    cases h
    exact .silent
  | some frame =>
    obtain ⟨output, hdisplay⟩ := display_run s ">" frame w
    have hsend := (Deed.run_bind hdisplay).symm.trans h
    obtain ⟨_, _, hentered, hsend⟩ := Deed.of_run_bind hsend
    cases hentered
    obtain ⟨⟨outcome, connection⟩, sent, hsent, hout⟩ := Deed.of_run_bind hsend
    cases outcome with
    | ok _ =>
      cases hout
      exact .sent hsent
    | error e =>
      by_cases he : e = .cancelled
      · subst he
        exact .stopped hsent hout
      · -- the outcome is matched against `cancelled` first
        refine .failed he hsent ?_
        cases e <;> first | exact hout | exact absurd rfl he

/-! ### Requests -/

structure Heard (s : Server) (w : World) (s₁ : Server) (w₁ : World) : Prop where
  active : s.state.isTerminal = false
  calm : w.flags.raised s.cancel = false
  run : s.receive.run w = ((.ok .request, s₁), w₁)

/-- The request has been answered, and the guard not yet been given back. -/
inductive Answered (s : Server) (w : World) (reply : Option Octets) (s₂ : Server) (w₃ : World) :
    Prop
  | intro {s₁ : Server} {w₁ w₂ : World} :
      s.Heard w s₁ w₁ → w₁.flags.raised s₁.cancel = false →
      (acquire { s₁ with state := .guarding }).run w₁ = ((.ok (), s₂), w₂) →
      (answer { s₂ with state := .replying }).run w₂ = (reply, w₃) →
      Answered s w reply s₂ w₃

/-- The ways of `serveOne`. -/
inductive Serves (s : Server) (w : World) : Except Error Step × Server → World → Prop
  | terminated : s.state.isTerminal = true → Serves s w (.error .terminated, s) w
  | heeded {out : Except Error Step × Server} {after : World} :
      s.state.isTerminal = false → w.flags.raised s.cancel = true →
      s.shutDown.run w = (out, after) → Serves s w out after
  | peerClosed {s₁ : Server} {w₁ : World} :
      s.state.isTerminal = false → w.flags.raised s.cancel = false →
      s.receive.run w = ((.ok .peerClosed, s₁), w₁) → Serves s w (.ok .peerClosed, s₁) w₁
  | waiting {s₁ : Server} {w₁ : World} :
      s.state.isTerminal = false → w.flags.raised s.cancel = false →
      s.receive.run w = ((.ok .waiting, s₁), w₁) → Serves s w (.ok .waiting, s₁) w₁
  | unheard {e : Error} {s₁ : Server} {w₁ : World} :
      s.state.isTerminal = false → w.flags.raised s.cancel = false →
      s.receive.run w = ((.error e, s₁), w₁) → Serves s w (.error e, s₁) w₁
  | withdrawn {s₁ : Server} {w₁ after : World} {out : Except Error Step × Server} :
      s.Heard w s₁ w₁ → w₁.flags.raised s₁.cancel = true → s₁.shutDown.run w₁ = (out, after) →
      Serves s w out after
  | unacquired {s₁ s₂ : Server} {e : Error} {w₁ w₂ after : World}
      {out : Except Error Step × Server} :
      s.Heard w s₁ w₁ → w₁.flags.raised s₁.cancel = false →
      (acquire { s₁ with state := .guarding }).run w₁ = ((.error e, s₂), w₂) →
      (s₂.abort e).run w₂ = (out, after) → Serves s w out after
  | unreleased {reply : Option Octets} {s₂ s₃ : Server} {e : Error} {w₃ w₄ after : World}
      {out : Except Error Step × Server} :
      s.Answered w reply s₂ w₃ →
      (release { s₂ with state := .replying }).run w₃ = ((.error e, s₃), w₄) →
      (s₃.abort e).run w₄ = (out, after) → Serves s w out after
  | delivered {reply : Option Octets} {s₂ s₃ : Server} {w₃ w₄ after : World}
      {out : Except Error Step × Server} :
      s.Answered w reply s₂ w₃ →
      (release { s₂ with state := .replying }).run w₃ = ((.ok (), s₃), w₄) →
      (s₃.deliver reply).run w₄ = (out, after) → Serves s w out after

theorem serves_of_run {out : Except Error Step × Server}
    (h : s.serveOne.run w = (out, after)) : s.Serves w out after := by
  -- the two looks at the flag and the three results that can end the call early, in their order
  unfold serveOne at h
  cases hactive : s.state.isTerminal with
  | true =>
    simp only [hactive, if_true] at h
    cases h
    exact .terminated hactive
  | false =>
    simp only [hactive, Bool.false_eq_true, if_false] at h
    obtain ⟨_, _, hlook, h⟩ := Deed.of_run_bind h
    cases hlook
    cases hraised : w.flags.raised s.cancel with
    | true =>
      simp only [hraised, if_true] at h
      exact .heeded hactive hraised h
    | false =>
      simp only [hraised, Bool.false_eq_true, if_false] at h
      obtain ⟨⟨result, s₁⟩, w₁, hreceive, h⟩ := Deed.of_run_bind h
      rcases result with e | _ | _ | _
      · cases h
        exact .unheard hactive hraised hreceive
      · have hheard : s.Heard w s₁ w₁ := ⟨hactive, hraised, hreceive⟩
        obtain ⟨_, _, hlook, h⟩ := Deed.of_run_bind h
        cases hlook
        cases hraised₁ : w₁.flags.raised s₁.cancel with
        | true =>
          simp only [hraised₁, if_true] at h
          exact .withdrawn hheard hraised₁ h
        | false =>
          simp only [hraised₁, Bool.false_eq_true, if_false] at h
          obtain ⟨⟨acquired, s₂⟩, w₂, hacquire, h⟩ := Deed.of_run_bind h
          cases acquired with
          | error e => exact .unacquired hheard hraised₁ hacquire h
          | ok _ =>
            obtain ⟨reply, w₃, hanswer, h⟩ := Deed.of_run_bind h
            have hanswered : s.Answered w reply s₂ w₃ := .intro hheard hraised₁ hacquire hanswer
            obtain ⟨⟨released, s₃⟩, w₄, hrelease, h⟩ := Deed.of_run_bind h
            cases released with
            | error e => exact .unreleased hanswered hrelease h
            | ok _ => exact .delivered hanswered hrelease h
      · cases h
        exact .peerClosed hactive hraised hreceive
      · cases h
        exact .waiting hactive hraised hreceive

end Server
end RtuStation
