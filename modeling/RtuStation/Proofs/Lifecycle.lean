import RtuStation.Proofs.Executions

/-!
# The life of a server

An owner calls a server again and again, each time in a world that has changed in between. The state
of the server tells what its last call has come to, and once a session is over nothing brings it back
to life: each further call is refused and changes nothing.
-/

namespace RtuStation
namespace Server

/-- What the owner of a server can have it do. -/
inductive Call where
  | receive
  | serveOne
  | run
  deriving DecidableEq, Repr

namespace Call

def Result : Call → Type
  | receive => Received
  | serveOne => Step
  | run => Shutdown

def perform : (call : Call) → Server → Deed (Except Error call.Result × Server)
  | receive, s => s.receive
  | serveOne, s => s.serveOne
  | run, s => s.run

end Call

/-- The server after calls that are each made in a world of its own. -/
def afterCalls (s : Server) : List (Call × World) → Server
  | [] => s
  | (call, w) :: later => afterCalls ((call.perform s).run w).1.2 later

variable {s s₁ : Server} {p : Port} {w w₁ after : World} {reply : Option Octets}

theorem afterCalls_append (s : Server) (calls later : List (Call × World)) :
    s.afterCalls (calls ++ later) = (s.afterCalls calls).afterCalls later := by
  induction calls generalizing s with
  | nil => rfl
  | cons first calls ih => exact ih _

/-! ### The line of a server -/

def OverLine (s : Server) : Prop := ∃ p, s.connection = .port p

theorem overLine_of_receives {out : Except Error Received × Server} (h : s.Receives w out after)
    (hline : s.OverLine) : out.2.OverLine := by
  obtain ⟨p, hport⟩ := hline
  have hfound {c : Connection} {r : Reception} {found : World}
      (hreceive : (s.connection.receive s.engine.frameLength).run (s.listening w) =
        ((r, c), found)) : ∃ p', c = .port p' := by
    rw [hport] at hreceive
    exact (Connection.receive_port_cases hreceive).1
  cases h with
  | terminated => exact ⟨p, hport⟩
  | request _ hreceive | peerClosed _ hreceive | waiting _ hreceive => exact hfound hreceive
  | failed _ hreceive habort =>
    obtain ⟨_, _, hended⟩ := ended_of_abort habort
    rw [hended.out]
    exact hfound hreceive

theorem connection_of_sends {out : Except Error Step × Server} (h : s.Sends w reply out after)
    (hport : s.connection = .port p) : out.2.connection = .port p := by
  have hkept {frame : Octets} {output : Array String} {outcome : Except Error Unit} {c : Connection}
      {sent : World}
      (hsend : (s.connection.send frame).run (s.speaking frame output w) = ((outcome, c), sent)) :
      c = .port p := by
    rw [hport] at hsend
    obtain ⟨_, _, _, hmade⟩ := Deed.of_run_bind hsend
    cases hmade
    rfl
  cases h with
  | silent => exact hport
  | sent hsend => exact hkept hsend
  | stopped hsend hshut =>
    rw [(ended_of_shutDown hshut).out]
    exact hkept hsend
  | failed _ hsend habort =>
    obtain ⟨_, _, hended⟩ := ended_of_abort habort
    rw [hended.out]
    exact hkept hsend

theorem overLine_of_serves {out : Except Error Step × Server} (h : s.Serves w out after)
    (hline : s.OverLine) : out.2.OverLine := by
  obtain ⟨p, hport⟩ := hline
  cases h with
  | terminated => exact ⟨p, hport⟩
  | heeded _ _ hshut =>
    rw [(ended_of_shutDown hshut).out]
    exact ⟨p, hport⟩
  | peerClosed _ _ hreceive | waiting _ _ hreceive | unheard _ _ hreceive =>
    exact overLine_of_receives (receives_of_run hreceive) ⟨p, hport⟩
  | withdrawn hheard _ hshut =>
    obtain ⟨rfl, -⟩ := hheard.received hport
    rw [(ended_of_shutDown hshut).out]
    exact ⟨p, rfl⟩
  | unacquired hheard _ hacquire habort =>
    obtain ⟨rfl, -⟩ := hheard.received hport
    obtain ⟨hsame, -, -⟩ := acquire_frame hacquire
    obtain ⟨_, _, hended⟩ := ended_of_abort habort
    rw [hended.out, hsame]
    exact ⟨p, rfl⟩
  | unreleased hanswered hrelease habort =>
    obtain ⟨hconnection, -⟩ := hanswered.port hport
    obtain ⟨rfl, -, -⟩ := freed_of_release hrelease
    obtain ⟨_, _, hended⟩ := ended_of_abort habort
    rw [hended.out]
    exact ⟨p, hconnection⟩
  | delivered hanswered hrelease hdeliver =>
    obtain ⟨hconnection, -⟩ := hanswered.port hport
    obtain ⟨rfl, -, -⟩ := freed_of_release hrelease
    exact ⟨p, connection_of_sends (sends_of_run hdeliver) hconnection⟩

theorem overLine_serve {n : Nat} {out : Except Error Shutdown × Server}
    (h : (serve n s).run w = (out, after)) (hline : s.OverLine) : out.2.OverLine := by
  induction n generalizing s w with
  | zero =>
    cases h
    exact hline
  | succ n ih =>
    obtain ⟨⟨result, s₁⟩, w₁, hserve, h⟩ := Deed.of_run_bind h
    have hline₁ : s₁.OverLine := overLine_of_serves (serves_of_run hserve) hline
    rcases result with e | _ | _ | _
    · cases e <;> cases h <;> exact hline₁
    · exact ih h hline₁
    · cases h
      exact hline₁
    · cases h
      exact hline₁

theorem overLine_perform (call : Call) (w : World) (hline : s.OverLine) :
    ((call.perform s).run w).1.2.OverLine := by
  cases call with
  | receive =>
    have hreceives : s.Receives w (s.receive.run w).1 (s.receive.run w).2 := receives_of_run rfl
    exact overLine_of_receives hreceives hline
  | serveOne =>
    have hserves : s.Serves w (s.serveOne.run w).1 (s.serveOne.run w).2 := serves_of_run rfl
    exact overLine_of_serves hserves hline
  | run => exact @overLine_serve s ((report (.loopStarted s.role)).run w).2 _ _ _ rfl hline

theorem overLine_afterCalls (calls : List (Call × World)) (hline : s.OverLine) :
    (s.afterCalls calls).OverLine := by
  induction calls generalizing s with
  | nil => exact hline
  | cons first calls ih => exact ih (overLine_perform first.1 first.2 hline)

/-! ### What the state tells -/

theorem ends_of_serves {out : Except Error Step × Server} (h : s.Serves w out after)
    (hport : s.connection = .port p) (hactive : s.state.isTerminal = false) :
    Ends Step.state (· ≠ .cancelled) out.1 out.2.state := by
  rcases serves_cases h hport with hwithheld | hexecuted
  · exact (hwithheld.ends hactive).mono fun e hearly => hearly.ne_cancelled
  · exact hexecuted.ends.mono fun e hlate => hlate.ne_cancelled

theorem serveOne_of_terminal (h : s.state.isTerminal = true) (w : World) :
    s.serveOne.run w = ((.error .terminated, s), w) := by
  unfold serveOne
  simp only [h, if_true]
  rfl

/-- A loop that has not come to its end waits for a silent line, or has too few rounds for what the
line has still to bring, or goes on without taking anything. -/
theorem serve_ends {n : Nat} (hport : s.connection = .port p) :
    ((serve n s).run w).1.2.state.isTerminal = true ∨
      ((serve n s).run w).1.1 = .ok .unfinished ∧
        (((serve n s).run w).1.2.state = .receiving ∨
          n ≤ Connection.pending w (.port p) ∨ (s.engine.frameLength []).target = 0) := by
  induction n generalizing s w with
  | zero => exact .inr ⟨rfl, .inr (.inl (Nat.zero_le _))⟩
  | succ n ih =>
    cases hactive : s.state.isTerminal with
    | true =>
      have hrun : (serve (n + 1) s).run w = ((.error .terminated, s), w) :=
        Deed.run_bind (serveOne_of_terminal hactive w)
      rw [hrun]
      exact .inl hactive
    | false =>
      rcases hserve : s.serveOne.run w with ⟨⟨result, s₁⟩, w₁⟩
      have hserves := serves_of_run hserve
      have hends := ends_of_serves hserves hport hactive
      rcases result with e | _ | _ | _
      · have hterminal : s₁.state.isTerminal = true := by
          rcases hends.of_error with ⟨-, hstate⟩ | ⟨-, hstate⟩
          all_goals
            rw [hstate]
            rfl
        have hrun : ((serve (n + 1) s).run w).1.2 = s₁ := by
          rw [serve, Deed.run_bind hserve]
          cases e <;> rfl
        rw [hrun]
        exact .inl hterminal
      · obtain ⟨hport₁, -, hengine, -, hless⟩ := serves_continue hserves rfl hport
        rw [serve_succ_of_continue hserve]
        -- a round that goes on has used up something, so that the rounds left are enough for the rest
        rcases ih hport₁ with hterminal | ⟨hunfinished, hwhy⟩
        · exact .inl hterminal
        · refine .inr ⟨hunfinished, ?_⟩
          rw [show s₁.engine = s.engine from hengine] at hwhy
          rcases hwhy with hreceiving | hrounds | hnone
          · exact .inl hreceiving
          · by_cases htarget : (s.engine.frameLength []).target = 0
            · exact .inr (.inr htarget)
            · have hpending := hless htarget
              exact .inr (.inl (Nat.lt_of_le_of_lt hrounds hpending))
          · exact .inr (.inr hnone)
      · have hrun : (serve (n + 1) s).run w = ((.ok .peerClosed, s₁), w₁) := Deed.run_bind hserve
        rw [hrun]
        exact .inl (congrArg ServerState.isTerminal hends.of_ok)
      · have hrun : (serve (n + 1) s).run w = ((.ok .unfinished, s₁), w₁) := Deed.run_bind hserve
        rw [hrun]
        exact .inr ⟨rfl, .inl hends.of_ok⟩

theorem perform_of_terminal (h : s.state.isTerminal = true) (call : Call) (w : World) :
    ∃ notices, (call.perform s).run w = ((.error .terminated, s), { w with notices }) := by
  cases call with
  | receive =>
    refine ⟨w.notices, ?_⟩
    unfold Call.perform receive
    simp only [h, if_true]
    rfl
  | serveOne => exact ⟨w.notices, serveOne_of_terminal h w⟩
  | run =>
    refine ⟨w.notices.push (.loopStarted s.role), ?_⟩
    refine (Deed.run_bind rfl).trans ?_
    exact (Deed.run_bind rfl).trans (Deed.run_bind (serveOne_of_terminal h _))

theorem afterCalls_of_terminal (h : s.state.isTerminal = true) (calls : List (Call × World)) :
    s.afterCalls calls = s := by
  induction calls with
  | nil => rfl
  | cons first calls ih =>
    obtain ⟨notices, hrun⟩ := perform_of_terminal h first.1 first.2
    rw [afterCalls, hrun]
    exact ih

/-- Whatever calls were made of a server over a line, and whatever happened meanwhile, its state
tells how the next call of `serveOne` ended, and a loop returns only when the session is over. From
then on each call is refused and leaves everything as it is, but for a notice. -/
theorem state_tells_outcome (hport : s.connection = .port p) (calls : List (Call × World))
    (w : World) :
    let t := s.afterCalls calls
    (t.state.isTerminal = false →
      let result := (t.serveOne.run w).1.1
      let state := (t.serveOne.run w).1.2.state
      (state = .idle ↔ result = .ok .continue) ∧
      (state = .closed ↔ result = .ok .peerClosed ∨ result = .error .cancelled) ∧
      (state = .fatal ↔ ∃ e, e ≠ .cancelled ∧ result = .error e)) ∧
    (∀ rounds, ((serve rounds t).run w).1.1 ≠ .ok .unfinished →
      ((serve rounds t).run w).1.2.state.isTerminal = true) ∧
    ((t.run.run w).1.2.state.isTerminal = true ∨
      (t.run.run w).1.1 = .ok .unfinished ∧
        ((t.run.run w).1.2.state = .receiving ∨ (t.engine.frameLength []).target = 0)) ∧
    (t.state.isTerminal = true → ∀ later call world,
      s.afterCalls (calls ++ later) = t ∧
        ∃ notices, (Call.perform call t).run world =
          ((.error .terminated, t), { world with notices })) := by
  intro t
  obtain ⟨q, hq⟩ := overLine_afterCalls calls ⟨p, hport⟩
  refine ⟨fun hactive => ?_, fun rounds hreturned => ?_, ?_, fun hterminal later call world => ?_⟩
  · have hserves : t.Serves w (t.serveOne.run w).1 (t.serveOne.run w).2 := serves_of_run rfl
    have hends := ends_of_serves hserves hq hactive
    generalize (t.serveOne.run w).1.1 = result at hends ⊢
    generalize (t.serveOne.run w).1.2.state = state at hends ⊢
    cases hends with
    | ok step => cases step <;> simp [Step.state]
    | shutDown => simp
    | failed hother => simp [hother]
  · rcases @serve_ends t q w rounds hq with hterminal | ⟨hunfinished, -⟩
    · exact hterminal
    · exact absurd hunfinished hreturned
  · let started := ((report (.loopStarted t.role)).run w).2
    have hrun : t.run.run w = (serve (t.connection.pending started + 2) t).run started := rfl
    rw [hrun]
    rcases @serve_ends t q started (t.connection.pending started + 2) hq with
      hterminal | ⟨hunfinished, hreceiving | hrounds | hnone⟩
    · exact .inl hterminal
    · exact .inr ⟨hunfinished, .inl hreceiving⟩
    · rw [show t.connection = .port q from hq] at hrounds
      omega
    · exact .inr ⟨hunfinished, .inr hnone⟩
  · refine ⟨?_, perform_of_terminal hterminal call world⟩
    rw [afterCalls_append]
    exact afterCalls_of_terminal hterminal later

/-- A server that has received a request is cancelled while it serves the next one, and stays closed
whatever comes. -/
theorem cancelled_server_stays_closed :
    let calls : List (Call × World) := [(.receive, visited), (.serveOne, signalled)]
    (guardedServer.afterCalls calls).state = .closed ∧
      ∀ later, guardedServer.afterCalls (calls ++ later) = guardedServer.afterCalls calls := by
  intro calls
  have hclosed : (guardedServer.afterCalls calls).state = .closed := by decide +kernel
  have hterminal : (guardedServer.afterCalls calls).state.isTerminal = true := by rw [hclosed]; rfl
  obtain ⟨-, -, -, hstays⟩ :=
    @state_tells_outcome guardedServer { line := 0, cancel := 0 } rfl calls visited
  exact ⟨hclosed, fun later => (hstays hterminal later .serveOne visited).1⟩

end Server
end RtuStation
