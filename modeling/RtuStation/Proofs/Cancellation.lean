import Mathlib.Logic.Relation
import RtuStation.Proofs.Progress

/-!
# Cancellation

A session whose cancellation flag is raised ends as a shutdown. `Fails` tells what can fail while a
request is served, and how the world stands then; where the flag is raised by that time, the failure
counts for nothing. A run goes from one position to the next by `Continues`, and what holds of one
request holds at each of its positions.
-/

namespace RtuStation

/-- Between two worlds nothing was answered. -/
structure World.Unanswered (w after : World) : Prop where
  segments : after.segments = w.segments
  entries : ∃ entries, after.journal = entries ++ w.journal ∧
    ∀ held frame, Entry.answer held frame ∉ entries

theorem World.Unanswered.refl (w : World) : w.Unanswered w := ⟨rfl, [], rfl, fun _ _ => nofun⟩

theorem World.Unanswered.trans {w v u : World} (h : w.Unanswered v) (h' : v.Unanswered u) :
    w.Unanswered u := by
  obtain ⟨entries, hjournal, hnone⟩ := h.entries
  obtain ⟨entries', hjournal', hnone'⟩ := h'.entries
  refine ⟨h'.segments.trans h.segments, entries' ++ entries, ?_, ?_⟩
  · rw [hjournal', hjournal, List.append_assoc]
  · intro held frame hmem
    rcases List.mem_append.mp hmem with hmem | hmem
    · exact hnone' held frame hmem
    · exact hnone held frame hmem

namespace Server

variable {s s₁ s₂ : Server} {p : Port} {w w₁ after found : World} {e : Error}

/-! ### What can fail -/

/-- An operation fails with an error while a request is served, and leaves the world so. A
transmission that the flag has stopped is no failure. -/
inductive Fails (s : Server) (w : World) : Error → World → Prop
  | reception {connection : Connection} {context : Octets} {e : Error} {found : World} :
      s.state.isTerminal = false → w.flags.raised s.cancel = false →
      (s.connection.receive s.engine.frameLength).run (s.listening w) =
        ((⟨context, .error e⟩, connection), found) →
      Fails s w e found
  | acquisition {s₁ s₂ : Server} {w₁ w₂ : World} {e : Error} :
      s.Heard w s₁ w₁ → w₁.flags.raised s₁.cancel = false →
      (acquire { s₁ with state := .guarding }).run w₁ = ((.error e, s₂), w₂) →
      Fails s w e w₂
  | giving {reply : Option Octets} {s₂ s₃ : Server} {w₃ w₄ : World} {e : Error} :
      s.Answered w reply s₂ w₃ →
      (release { s₂ with state := .replying }).run w₃ = ((.error e, s₃), w₄) →
      Fails s w e w₄
  | transmission {frame : Octets} {s₂ s₃ : Server} {w₃ w₄ sent : World} {e : Error}
      {output : Array String} {connection : Connection} :
      s.Answered w (some frame) s₂ w₃ →
      (release { s₂ with state := .replying }).run w₃ = ((.ok (), s₃), w₄) → e ≠ .cancelled →
      (s₃.connection.send frame).run (s₃.speaking frame output w₄) =
        ((.error e, connection), sent) →
      Fails s w e sent

theorem cancelled_of_abort {α : Type} {out : Except Error α × Server}
    (h : (s.abort e).run w = (out, after)) (hraised : w.flags.raised s.cancel = true) :
    out.1 = .error .cancelled := by
  rcases abort_cases h with ⟨-, hended⟩ | ⟨hcalm, -⟩
  · rw [hended.out]
  · rw [hraised] at hcalm
    cases hcalm

theorem calm_of_waits (h : s.receive.run w = ((.ok .waiting, s₁), after))
    (hport : s.connection = .port p) : after.flags.raised p.cancel = false := by
  have hreceives := receives_of_run h
  cases hreceives with
  | waiting _ hreceive =>
    rw [hport] at hreceive
    obtain ⟨⟨_, _⟩, _, hfound, hmade⟩ := Deed.of_run_bind hreceive
    cases hmade
    exact Port.calm_of_receives_waiting hfound
  | failed _ _ habort =>
    obtain ⟨_, _, hended⟩ := ended_of_abort habort
    exact absurd rfl hended.ne_ok

/-! ### One request -/

/-- A request during which the flag was raised before anything failed, if anything did, is served,
or the session ends as it should. It can also go on waiting, but only with the flag down. -/
theorem serves_of_raised {out : Except Error Step × Server} (h : s.Serves w out after)
    (hport : s.connection = .port p) (hshared : p.cancel = s.cancel)
    (hactive : s.state.isTerminal = false)
    (hfails : ∀ e found, s.Fails w e found → found.flags.raised s.cancel = true) :
    out.1 = .ok .continue ∨ out.1 = .ok .peerClosed ∨ out.1 = .error .cancelled ∨
      out.1 = .ok .waiting ∧ after.flags.raised s.cancel = false := by
  cases h with
  | terminated hterminal =>
    rw [hactive] at hterminal
    cases hterminal
  | heeded _ _ hshut | withdrawn _ _ hshut =>
    rw [(ended_of_shutDown hshut).out]
    exact .inr (.inr (.inl rfl))
  | peerClosed => exact .inr (.inl rfl)
  | waiting _ _ hreceive =>
    have hcalm := calm_of_waits hreceive hport
    rw [hshared] at hcalm
    exact .inr (.inr (.inr ⟨rfl, hcalm⟩))
  | unheard _ hcalm hreceive =>
    have hreceives := receives_of_run hreceive
    cases hreceives with
    | terminated hterminal =>
      rw [hactive] at hterminal
      cases hterminal
    | failed _ hfound habort =>
      -- `abort` looks at the flag in the world that the failed operation left
      have hraised := hfails _ _ (.reception hactive hcalm hfound)
      have hcancelled := cancelled_of_abort habort hraised
      cases hcancelled
      exact .inr (.inr (.inl rfl))
  | unacquired hheard hcalm hacquire habort =>
    have hraised := hfails _ _ (.acquisition hheard hcalm hacquire)
    obtain ⟨context, rfl, -⟩ := hheard.port hport
    obtain ⟨hsame, -, -⟩ := acquire_frame hacquire
    rw [hsame] at habort
    exact .inr (.inr (.inl (cancelled_of_abort habort hraised)))
  | unreleased hanswered hrelease habort =>
    have hraised := hfails _ _ (.giving hanswered hrelease)
    obtain ⟨-, hcancel, -, -⟩ := hanswered.port hport
    obtain ⟨rfl, -, -⟩ := freed_of_release hrelease
    rw [← hcancel] at hraised
    exact .inr (.inr (.inl (cancelled_of_abort habort hraised)))
  | delivered hanswered hrelease hdeliver =>
    have hsends := sends_of_run hdeliver
    cases hsends with
    | silent | sent => exact .inl rfl
    | stopped _ hshut =>
      rw [(ended_of_shutDown hshut).out]
      exact .inr (.inr (.inl rfl))
    | failed hother hsend habort =>
      have hraised := hfails _ _ (.transmission hanswered hrelease hother hsend)
      obtain ⟨-, hcancel, -, -⟩ := hanswered.port hport
      obtain ⟨rfl, -, -⟩ := freed_of_release hrelease
      rw [← hcancel] at hraised
      exact .inr (.inr (.inl (cancelled_of_abort habort hraised)))

theorem post_of_mem_returns {entry : Entry} (h : entry ∈ s.returns) :
    ∃ object, entry = .post object := by
  unfold returns at h
  cases hguard : s.guard with
  | none =>
    rw [hguard] at h
    cases h
  | some g =>
    rw [hguard] at h
    have hmem : entry ∈ if g.held then [.post g.semaphore.object] else [] := h
    cases hheld : g.held with
    | false =>
      rw [hheld] at hmem
      cases hmem
    | true =>
      rw [hheld] at hmem
      exact ⟨_, List.mem_singleton.mp hmem⟩

theorem ended_of_raised (hactive : s.state.isTerminal = false)
    (hraised : w.flags.raised s.cancel = true) :
    s.Ended .closed .cancelled w (s.serveOne.run w).1 (s.serveOne.run w).2 := by
  have hrun : s.serveOne.run w = s.shutDown.run w := by
    unfold serveOne
    simp only [hactive, Bool.false_eq_true, if_false]
    refine (Deed.run_bind (isRaised_run ..)).trans ?_
    simp only [hraised, if_true]
  exact ended_of_shutDown hrun.symm

theorem unanswered_of_ended {α : Type} {state : ServerState} {out : Except Error α × Server}
    (h : s.Ended state e w out after) : w.Unanswered after := by
  refine ⟨h.unmoved.segments, s.returns, h.journal, ?_⟩
  intro held frame hmem
  obtain ⟨object, hpost⟩ := post_of_mem_returns hmem
  cases hpost

theorem unanswered_of_receives {out : Except Error Received × Server}
    (h : s.Receives w out after) : w.Unanswered after := by
  have hlistening : w.Unanswered (s.listening w) :=
    ⟨rfl, [.receive s.holds], rfl, fun _ _ hmem => by cases List.mem_singleton.mp hmem⟩
  have hfound {c : Connection} {r : Reception} {found : World}
      (hreceive : (s.connection.receive s.engine.frameLength).run (s.listening w) =
        ((r, c), found)) : w.Unanswered found := by
    obtain ⟨hsegments, hjournal⟩ := Connection.receive_kept hreceive
    exact hlistening.trans ⟨hsegments, [], hjournal, fun _ _ => nofun⟩
  cases h with
  | terminated => exact .refl w
  | request _ hreceive | peerClosed _ hreceive | waiting _ hreceive =>
    have hunanswered := hfound hreceive
    exact ⟨hunanswered.segments, hunanswered.entries⟩
  | failed _ hreceive habort =>
    obtain ⟨_, _, hended⟩ := ended_of_abort habort
    exact (hfound hreceive).trans (unanswered_of_ended hended)

theorem Heard.raised (h : s.Heard w s₁ w₁) (hport : s.connection = .port p)
    (hraised : (s.receive.run w).2.flags.raised s.cancel = true) :
    w₁.flags.raised s₁.cancel = true := by
  obtain ⟨context, rfl, -⟩ := h.port hport
  rw [h.run] at hraised
  exact hraised

/-- A request whose reception ends with the flag raised is not answered. Having received it, the
server shuts down. -/
theorem unanswered_of_serves {out : Except Error Step × Server} (h : s.Serves w out after)
    (hport : s.connection = .port p)
    (hraised : (s.receive.run w).2.flags.raised s.cancel = true) :
    w.Unanswered after ∧ out.1 ≠ .ok .continue ∧
      ((s.receive.run w).1.1 = .ok .request → out.1 = .error .cancelled ∧
        out.2.state = .closed ∧ out.2.holds = false) := by
  cases h with
  | terminated hterminal =>
    have hrun : s.receive.run w = ((.error .terminated, s), w) := by
      unfold receive
      simp only [hterminal, if_true]
      rfl
    rw [hrun]
    exact ⟨.refl w, nofun, nofun⟩
  | heeded _ _ hshut =>
    have hended := ended_of_shutDown hshut
    refine ⟨unanswered_of_ended hended, hended.ne_ok, fun _ => ?_⟩
    rw [hended.out]
    exact ⟨rfl, rfl, holds_freed _⟩
  | peerClosed _ _ hreceive | waiting _ _ hreceive | unheard _ _ hreceive =>
    refine ⟨unanswered_of_receives (receives_of_run hreceive), nofun, fun hrequest => ?_⟩
    rw [hreceive] at hrequest
    cases hrequest
  | withdrawn hheard _ hshut =>
    have hended := ended_of_shutDown hshut
    have hreceived := unanswered_of_receives (receives_of_run hheard.run)
    refine ⟨hreceived.trans (unanswered_of_ended hended), hended.ne_ok, fun _ => ?_⟩
    rw [hended.out]
    exact ⟨rfl, rfl, holds_freed _⟩
  | unacquired hheard hcalm =>
    rw [hheard.raised hport hraised] at hcalm
    cases hcalm
  | unreleased hanswered | delivered hanswered =>
    cases hanswered with
    | intro hheard hcalm =>
      rw [hheard.raised hport hraised] at hcalm
      cases hcalm

/-! ### Runs -/

def Continues (before next : Server × World) : Prop :=
  before.1.serveOne.run before.2 = ((.ok .continue, next.1), next.2)

/-- A run that is at one position gets to another one. -/
def Visits (s : Server) (w : World) (s₁ : Server) (w₁ : World) : Prop :=
  Relation.ReflTransGen Continues (s, w) (s₁, w₁)

theorem Visits.after_first {s' : Server} {w' : World} (hfirst : Continues (s, w) (s₁, w₁))
    (h : Visits s₁ w₁ s' w') : Visits s w s' w' :=
  Relation.ReflTransGen.head hfirst h

theorem kept_of_continues {first last : Server × World}
    (h : Relation.ReflTransGen Continues first last) (hport : first.1.connection = .port p)
    (hactive : first.1.state.isTerminal = false) :
    last.1.connection = .port p ∧ last.1.cancel = first.1.cancel ∧
      last.1.state.isTerminal = false := by
  induction h with
  | refl => exact ⟨hport, rfl, hactive⟩
  | tail _ hstep ih =>
    obtain ⟨hconnection, hcancel, -⟩ := ih
    obtain ⟨hconnection', hcancel', -, hidle, -⟩ :=
      serves_continue (serves_of_run hstep) rfl hconnection
    exact ⟨hconnection', hcancel'.trans hcancel, congrArg ServerState.isTerminal hidle⟩

theorem serve_succ_of_continue {n : Nat} (h : Continues (s, w) (s₁, w₁)) :
    (serve (n + 1) s).run w = (serve n s₁).run w₁ :=
  Deed.run_bind h

/-- What a run comes to whose flag is raised before anything fails, if anything does: it is shut
down, or the other side closes. Only its number of rounds can keep it from that, and it is shut down
in the next one. -/
theorem serve_of_raised {n : Nat} (hport : s.connection = .port p) (hshared : p.cancel = s.cancel)
    (hactive : s.state.isTerminal = false)
    (hfails : ∀ s₁ w₁, Visits s w s₁ w₁ →
      ∀ e found, s₁.Fails w₁ e found → found.flags.raised s.cancel = true)
    (hraised : ((serve n s).run w).2.flags.raised s.cancel = true) :
    ((serve n s).run w).1.1 = .ok .cancelled ∨ ((serve n s).run w).1.1 = .ok .peerClosed ∨
      ((serve n s).run w).1.1 = .ok .unfinished ∧
        ((s.engine.frameLength []).target = 0 ∨ n ≤ Connection.pending w (.port p)) ∧
        (((serve n s).run w).1.2.serveOne.run ((serve n s).run w).2).1.1 = .error .cancelled := by
  induction n generalizing s w with
  | zero =>
    have hended := ended_of_raised hactive hraised
    exact .inr (.inr ⟨rfl, .inr (Nat.zero_le _), congrArg Prod.fst hended.out⟩)
  | succ n ih =>
    rcases hserve : s.serveOne.run w with ⟨⟨result, s₁⟩, w₁⟩
    have hserves := serves_of_run hserve
    rcases serves_of_raised hserves hport hshared hactive (hfails s w .refl) with
      hresult | hresult | hresult | ⟨hresult, hcalm⟩
    · cases hresult
      rw [serve_succ_of_continue hserve] at hraised ⊢
      obtain ⟨hport₁, hcancel₁, hengine₁, hidle, hless⟩ := serves_continue hserves rfl hport
      have hfails₁ : ∀ s₂ w₂, Visits s₁ w₁ s₂ w₂ →
          ∀ e found, s₂.Fails w₂ e found → found.flags.raised s₁.cancel = true := by
        intro s₂ w₂ hvisits e found hfailed
        rw [hcancel₁]
        exact hfails s₂ w₂ (hvisits.after_first hserve) e found hfailed
      rw [← hcancel₁] at hraised
      have hactive₁ : s₁.state.isTerminal = false := congrArg ServerState.isTerminal hidle
      rcases ih hport₁ (hshared.trans hcancel₁.symm) hactive₁ hfails₁ hraised with
        hdone | hdone | ⟨hdone, hrounds, hnext⟩
      · exact .inl hdone
      · exact .inr (.inl hdone)
      · refine .inr (.inr ⟨hdone, ?_, hnext⟩)
        rw [show s₁.engine = s.engine from hengine₁] at hrounds
        -- each round took something off the line, unless the engine asks for nothing
        by_cases htarget : (s.engine.frameLength []).target = 0
        · exact .inl htarget
        · have hpending := hless htarget
          rcases hrounds with hnone | hrounds
          · exact absurd hnone htarget
          · exact .inr (Nat.lt_of_le_of_lt hrounds hpending)
    · cases hresult
      have hrun : (serve (n + 1) s).run w = ((.ok .peerClosed, s₁), w₁) := Deed.run_bind hserve
      rw [hrun]
      exact .inr (.inl rfl)
    · cases hresult
      have hrun : (serve (n + 1) s).run w = ((.ok .cancelled, s₁), w₁) := Deed.run_bind hserve
      rw [hrun]
      exact .inl rfl
    · cases hresult
      have hrun : (serve (n + 1) s).run w = ((.ok .unfinished, s₁), w₁) := Deed.run_bind hserve
      rw [hrun, hcalm] at hraised
      cases hraised

theorem unanswered_serve {n : Nat} (hport : s.connection = .port p)
    (hraised : (s.receive.run w).2.flags.raised s.cancel = true) :
    w.Unanswered ((serve n s).run w).2 := by
  cases n with
  | zero => exact .refl w
  | succ n =>
    -- the session ends with this request, so that the other rounds do nothing
    rcases hserve : s.serveOne.run w with ⟨⟨result, s₁⟩, w₁⟩
    obtain ⟨hunanswered, hends, -⟩ := unanswered_of_serves (serves_of_run hserve) hport hraised
    have hrun : ((serve (n + 1) s).run w).2 = w₁ := by
      rw [serve, Deed.run_bind hserve]
      rcases result with e | _ | _ | _
      · cases e <;> rfl
      · exact absurd rfl hends
      · rfl
      · rfl
    rw [hrun]
    exact hunanswered

/-- A cancelled session over a line ends as a shutdown and never as a failure. -/
theorem cancellation_never_fails (hport : s.connection = .port p) (hshared : p.cancel = s.cancel)
    (hactive : s.state.isTerminal = false) (w : World) :
    let started := ((report (.loopStarted s.role)).run w).2
    -- the flag is raised when a request is to be served
    (w.flags.raised s.cancel = true →
      ∃ s' after posts, s.serveOne.run w = ((.error .cancelled, s'), after) ∧ s'.state = .closed ∧
        s'.connection = s.connection ∧ s'.holds = false ∧ after.lines = w.lines ∧
        after.segments = w.segments ∧ after.journal = posts ++ w.journal ∧
        ∀ entry ∈ posts, ∃ object, entry = .post object) ∧
    -- it is raised while a request is served, before anything fails
    ((∀ e found, s.Fails w e found → found.flags.raised s.cancel = true) →
      (s.serveOne.run w).2.flags.raised s.cancel = true →
        (s.serveOne.run w).1.1 = .ok .continue ∨ (s.serveOne.run w).1.1 = .ok .peerClosed ∨
          (s.serveOne.run w).1.1 = .error .cancelled) ∧
    -- it is raised during a run, before anything fails; only an engine that asks for no octet has
    -- rounds without end, and the next one of these is the last
    ((∀ s₁ w₁, s.Visits started s₁ w₁ →
        ∀ e found, s₁.Fails w₁ e found → found.flags.raised s.cancel = true) →
      (s.run.run w).2.flags.raised s.cancel = true →
        (s.run.run w).1.1 = .ok .cancelled ∨ (s.run.run w).1.1 = .ok .peerClosed ∨
          (s.run.run w).1.1 = .ok .unfinished ∧ (s.engine.frameLength []).target = 0 ∧
            ((s.run.run w).1.2.serveOne.run (s.run.run w).2).1.1 = .error .cancelled) ∧
    -- from the position in a run at which a reception ends with the flag raised, nothing more is
    -- answered, and if it ends with a request then that is the last one
    ∀ s₁ w₁, s.Visits started s₁ w₁ → (s₁.receive.run w₁).2.flags.raised s.cancel = true →
      (∀ n, w₁.Unanswered ((serve n s₁).run w₁).2) ∧
      ((s₁.receive.run w₁).1.1 = .ok .request → (s₁.serveOne.run w₁).1.1 = .error .cancelled ∧
        (s₁.serveOne.run w₁).1.2.state = .closed ∧ (s₁.serveOne.run w₁).1.2.holds = false) := by
  intro started
  have hrun : s.run.run w = (serve (s.connection.pending started + 2) s).run started := rfl
  refine ⟨?_, ?_, ?_, ?_⟩
  · intro hraised
    have hended := ended_of_raised hactive hraised
    refine ⟨_, _, s.returns, Prod.ext hended.out rfl, rfl, rfl, holds_freed _, hended.unmoved.lines,
      hended.unmoved.segments, hended.journal, fun _ => post_of_mem_returns⟩
  · intro hfails hraised
    have hserves : s.Serves w (s.serveOne.run w).1 (s.serveOne.run w).2 := serves_of_run rfl
    rcases serves_of_raised hserves hport hshared hactive hfails with
      hresult | hresult | hresult | ⟨_, hcalm⟩
    · exact .inl hresult
    · exact .inr (.inl hresult)
    · exact .inr (.inr hresult)
    · rw [hraised] at hcalm
      cases hcalm
  · intro hfails hraised
    rw [hrun] at hraised ⊢
    rcases serve_of_raised hport hshared hactive hfails hraised with
      hresult | hresult | ⟨hresult, hrounds, hnext⟩
    · exact .inl hresult
    · exact .inr (.inl hresult)
    · rw [hport] at hrounds
      exact .inr (.inr ⟨hresult, by omega, hnext⟩)
  · intro s₁ w₁ hvisits hraised
    obtain ⟨hport₁, hcancel₁, -⟩ := kept_of_continues hvisits hport hactive
    rw [← show s₁.cancel = s.cancel from hcancel₁] at hraised
    have hserves : s₁.Serves w₁ (s₁.serveOne.run w₁).1 (s₁.serveOne.run w₁).2 := serves_of_run rfl
    exact ⟨fun n => unanswered_serve hport₁ hraised,
      (unanswered_of_serves hserves hport₁ hraised).2.2⟩

/-! A signal raises the flag in the middle of a frame, which lets the reception fail; or the flag
rises while the last octets of a frame are read, so that a request is received all the same. -/

def signalledLine : Line where
  sink := .endless
  arrivals := [.octets [0x07, 0x06], .interrupted (some 0)]

def signalled : World where
  segments := Store.fourSegments.segments
  semaphores := Registry.empty.add ⟨"/guard"⟩ 1
  lines := #[signalledLine]
  flags := #[false]

def overtaken : World :=
  { signalled with lines := #[{ signalledLine with
      arrivals := [.octets [0x07, 0x06, 0x00], .octets [0x01, 0x12, 0x34, 0xD5, 0x1B] (some 0)] }] }

theorem raised_of_fails (hport : s.connection = .port p)
    (hfound : ((s.connection.receive s.engine.frameLength).run
      (s.listening w)).2.flags.raised s.cancel = true)
    (hraised : (s.receive.run w).2.flags.raised s.cancel = true)
    (h : s.Fails w e found) : found.flags.raised s.cancel = true := by
  cases h with
  | reception _ _ hreceive =>
    rw [hreceive] at hfound
    exact hfound
  | acquisition hheard hcalm =>
    rw [hheard.raised hport hraised] at hcalm
    cases hcalm
  | giving hanswered | transmission hanswered =>
    cases hanswered with
    | intro hheard hcalm =>
      rw [hheard.raised hport hraised] at hcalm
      cases hcalm

theorem eq_of_visits (hends : (s.serveOne.run w).1.1.toOption = none) (h : s.Visits w s₁ w₁) :
    s₁ = s ∧ w₁ = w := by
  rcases Relation.ReflTransGen.cases_head h with heq | ⟨next, hstep, -⟩
  · cases heq
    exact ⟨rfl, rfl⟩
  · have hcontinue : s.serveOne.run w = ((.ok .continue, next.1), next.2) := hstep
    rw [hcontinue] at hends
    cases hends

theorem raised_of_visits (hport : s.connection = .port p)
    (hfound : ((s.connection.receive s.engine.frameLength).run
      (s.listening w)).2.flags.raised s.cancel = true)
    (hraised : (s.receive.run w).2.flags.raised s.cancel = true)
    (hends : (s.serveOne.run w).1.1.toOption = none) (hvisits : s.Visits w s₁ w₁)
    (h : s₁.Fails w₁ e found) : found.flags.raised s.cancel = true := by
  obtain ⟨rfl, rfl⟩ := eq_of_visits hends hvisits
  exact raised_of_fails hport hfound hraised h

theorem signalled_session_shuts_down :
    (signalled.flags.raised 0 = false ∧
      (guardedServer.serveOne.run signalled).1.1 = .error .cancelled ∧
      (guardedServer.run.run signalled).1.1 = .ok .cancelled) ∧
    let started := ((report (.loopStarted guardedServer.role)).run overtaken).2
    overtaken.flags.raised 0 = false ∧ (guardedServer.receive.run started).1.1 = .ok .request ∧
      (guardedServer.serveOne.run started).1.1 = .error .cancelled ∧
      (guardedServer.run.run overtaken).1.1 = .ok .cancelled ∧
      (guardedServer.run.run overtaken).2.segments = overtaken.segments := by
  constructor
  · let started := ((report (.loopStarted guardedServer.role)).run signalled).2
    have hfound : ((guardedServer.connection.receive guardedServer.engine.frameLength).run
          (guardedServer.listening signalled)).2.flags.raised 0 = true ∧
        ((guardedServer.connection.receive guardedServer.engine.frameLength).run
          (guardedServer.listening started)).2.flags.raised 0 = true := by decide +kernel
    have hraised : (guardedServer.receive.run signalled).2.flags.raised 0 = true ∧
        (guardedServer.receive.run started).2.flags.raised 0 = true := by decide +kernel
    have hends : (guardedServer.serveOne.run signalled).1.1.toOption = none ∧
        (guardedServer.serveOne.run started).1.1.toOption = none := by decide +kernel
    have hrun : (guardedServer.run.run signalled).1.1.toOption = some .cancelled := by
      decide +kernel
    have hflag : (guardedServer.serveOne.run signalled).2.flags.raised 0 = true ∧
        (guardedServer.run.run signalled).2.flags.raised 0 = true := by decide +kernel
    obtain ⟨-, hserved, hran, -⟩ :=
      @cancellation_never_fails guardedServer { line := 0, cancel := 0 } rfl rfl rfl signalled
    refine ⟨rfl, ?_, ?_⟩
    · rcases hserved (fun e found => raised_of_fails rfl hfound.1 hraised.1) hflag.1 with
        hresult | hresult | hresult
      · rw [hresult] at hends
        cases hends.1
      · rw [hresult] at hends
        cases hends.1
      · exact hresult
    · rcases hran (fun s₁ w₁ hvisits e found =>
          raised_of_visits rfl hfound.2 hraised.2 hends.2 hvisits) hflag.2 with
        hresult | hresult | ⟨hresult, -⟩
      · exact hresult
      · rw [hresult] at hrun
        cases hrun
      · rw [hresult] at hrun
        cases hrun
  · intro started
    have hfound : ((guardedServer.connection.receive guardedServer.engine.frameLength).run
        (guardedServer.listening started)).2.flags.raised 0 = true := by decide +kernel
    have hraised : (guardedServer.receive.run started).2.flags.raised 0 = true := by
      decide +kernel
    have hreceived : (guardedServer.receive.run started).1.1.toOption = some .request := by
      decide +kernel
    have hrequest := eq_ok_of_toOption hreceived
    have hflag : (guardedServer.run.run overtaken).2.flags.raised 0 = true := by decide +kernel
    obtain ⟨-, -, hran, hlate⟩ :=
      @cancellation_never_fails guardedServer { line := 0, cancel := 0 } rfl rfl rfl overtaken
    obtain ⟨hunanswered, hserved⟩ := hlate guardedServer started .refl hraised
    obtain ⟨hcancelled, -⟩ := hserved hrequest
    have hends : (guardedServer.serveOne.run started).1.1.toOption = none := by rw [hcancelled]; rfl
    refine ⟨rfl, hrequest, hcancelled, ?_, (hunanswered _).segments⟩
    rcases hran (fun s₁ w₁ hvisits e found =>
        raised_of_visits rfl hfound hraised hends hvisits) hflag with
      hresult | hresult | ⟨-, hnone, -⟩
    · exact hresult
    · have hrun : (guardedServer.run.run overtaken).1.1.toOption = some .cancelled := by
        decide +kernel
      rw [hresult] at hrun
      cases hrun
    · cases hnone

end Server
end RtuStation
