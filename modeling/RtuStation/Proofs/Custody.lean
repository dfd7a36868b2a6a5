import RtuStation.Proofs.Courses
import RtuStation.Proofs.Tokens

/-!
# Custody of the semaphore

A server takes its semaphore to let the engine answer and gives it back before anything else: it
holds nothing while it receives or sends, nor between two requests, and it posts as often as it has
taken. The journal is the witness; `Guard.Course` tells all that one call can enter in it.
-/

namespace RtuStation

/-- What one call of a server with the guard `g` can enter in the journal of the world `w`, the
first entry first. -/
inductive Guard.Course (g : Guard) (w : World) : List Entry → Prop
  | idle : Course g w []
  | unanswered : Course g w [.receive false]
  | unguarded : Course g w [.receive false, .wait g.semaphore.object false]
  | answered {w₁ w₂ : World} {acquisition : Acquisition} {g' : Guard} (frame : Octets)
      (sent : Option Octets) :
      w₁.journal = .receive false :: w.journal →
      g.tryAcquire.run w₁ = ((.ok acquisition, g'), w₂) →
      (g'.held = true ↔ acquisition = .acquired) →
      Course g w ([.receive false, .wait g.semaphore.object g'.held, .answer g'.held frame] ++
        (if g'.held then [.post g.semaphore.object] else []) ++ sent.toList.map (.send false))

/-- The semaphore is not held while the server receives or sends; while the engine answers it is
held if and only if it was acquired for this request; and all that was taken is given back. -/
structure Guard.Custody (g : Guard) (w : World) (course : List Entry) : Prop where
  receives : ∀ held, .receive held ∈ course → held = false
  sends : ∀ held frame, .send held frame ∈ course → held = false
  answers : ∀ before held frame later, course = before ++ .answer held frame :: later →
    before = [.receive false, .wait g.semaphore.object held] ∧
      ∃ w₁ w₂ acquisition g', w₁.journal = .receive false :: w.journal ∧
        g.tryAcquire.run w₁ = ((.ok acquisition, g'), w₂) ∧
        (held = true ↔ acquisition = .acquired)
  balanced : ∀ object, course.count (.post object) = course.count (.wait object true)

theorem Guard.Course.custody {g : Guard} {w : World} {course : List Entry} (h : g.Course w course) :
    g.Custody w course := by
  cases h with
  | idle => exact ⟨nofun, nofun, by simp, fun _ => rfl⟩
  | unanswered =>
    refine ⟨by simp, by simp, ?_, fun _ => by simp⟩
    intro before held frame later heq
    rcases before with _ | ⟨_, _ | ⟨_, _⟩⟩ <;> simp at heq
  | unguarded =>
    refine ⟨by simp, by simp, ?_, fun _ => by simp⟩
    intro before held frame later heq
    rcases before with _ | ⟨_, _ | ⟨_, _ | ⟨_, _⟩⟩⟩ <;> simp at heq
  | @answered w₁ w₂ acquisition g' frame sent hjournal htry hheld =>
    refine ⟨?_, ?_, ?_, ?_⟩
    · intro held hmem
      cases g'.held <;> cases sent <;> simpa using hmem
    · intro held frame hmem
      cases g'.held <;> cases sent <;> simp at hmem <;> exact hmem.1
    · intro before held frame' later heq
      -- the answer stands in the third place and nowhere else
      rcases before with _ | ⟨first, _ | ⟨second, _ | ⟨third, others⟩⟩⟩
      · simp at heq
      · simp at heq
      · simp only [List.cons_append, List.nil_append, List.cons.injEq, Entry.answer.injEq] at heq
        obtain ⟨rfl, rfl, ⟨rfl, rfl⟩, -⟩ := heq
        exact ⟨rfl, w₁, w₂, acquisition, g', hjournal, htry, hheld⟩
      · simp only [List.cons_append, List.nil_append, List.cons.injEq] at heq
        have hmem : Entry.answer held frame' ∈
            (if g'.held then [.post g.semaphore.object] else []) ++
              sent.toList.map (.send false) := by
          rw [heq.2.2.2]
          exact List.mem_append_right _ (List.mem_cons_self ..)
        cases g'.held <;> cases sent <;> simp at hmem
    · intro object
      cases g'.held <;> cases sent <;> simp [List.count_cons]

namespace Server

variable {s s₁ s₂ : Server} {g : Guard} {w w₁ w₃ after : World} {reply : Option Octets}

/-! ### Between two calls -/

/-- A server has the guard it had before, if any, and holds nothing. -/
structure Restored (s s' : Server) : Prop where
  free : s'.holds = false
  guarded : s'.guard.isSome = s.guard.isSome

theorem Restored.of_guarded {s' : Server} (h : s₁.Restored s')
    (hsame : s₁.guard.isSome = s.guard.isSome) : s.Restored s' :=
  ⟨h.free, h.guarded.trans hsame⟩

theorem restored_freed (s : Server) : s.Restored s.freed := ⟨holds_freed s, Option.isSome_map⟩

theorem Ended.restored {α : Type} {state : ServerState} {e : Error} {out : Except Error α × Server}
    (h : s.Ended state e w out after) : s.Restored out.2 := by
  rw [h.out]
  exact (restored_freed { s with state }).of_guarded rfl

theorem restored_of_abort {α : Type} {e : Error} {out : Except Error α × Server}
    (h : (s.abort e).run w = (out, after)) : s.Restored out.2 := by
  obtain ⟨_, _, hended⟩ := ended_of_abort h
  exact hended.restored

theorem restored_of_receives {out : Except Error Received × Server} (h : s.Receives w out after)
    (hfree : s.holds = false) : s.Restored out.2 := by
  cases h with
  | terminated | request | peerClosed | waiting => exact ⟨hfree, rfl⟩
  | failed _ _ habort => exact (restored_of_abort habort).of_guarded rfl

theorem restored_of_sends {out : Except Error Step × Server} (h : s.Sends w reply out after)
    (hfree : s.holds = false) : s.Restored out.2 := by
  cases h with
  | silent | sent => exact ⟨hfree, rfl⟩
  | stopped _ hshut => exact (ended_of_shutDown hshut).restored.of_guarded rfl
  | failed _ _ habort => exact (restored_of_abort habort).of_guarded rfl

theorem Heard.restored (h : s.Heard w s₁ w₁) (hfree : s.holds = false) : s.Restored s₁ :=
  restored_of_receives (receives_of_run h.run) hfree

theorem Answered.guarded (h : s.Answered w reply s₂ w₃) (hfree : s.holds = false) :
    s₂.guard.isSome = s.guard.isSome := by
  cases h with
  | intro hheard _ hacquire _ =>
    have hacquired := (acquire_frame hacquire).2.1
    exact hacquired.trans (hheard.restored hfree).guarded

theorem restored_of_serves {out : Except Error Step × Server} (h : s.Serves w out after)
    (hfree : s.holds = false) : s.Restored out.2 := by
  cases h with
  | terminated => exact ⟨hfree, rfl⟩
  | heeded _ _ hshut => exact (ended_of_shutDown hshut).restored
  | peerClosed _ _ hreceive | waiting _ _ hreceive | unheard _ _ hreceive =>
    exact restored_of_receives (receives_of_run hreceive) hfree
  | withdrawn hheard _ hshut =>
    exact (ended_of_shutDown hshut).restored.of_guarded (hheard.restored hfree).guarded
  | unacquired hheard _ hacquire habort =>
    have hacquired := (acquire_frame hacquire).2.1
    exact (restored_of_abort habort).of_guarded (hacquired.trans (hheard.restored hfree).guarded)
  | @unreleased _ s₂ _ _ _ _ _ _ hanswered hrelease habort =>
    obtain ⟨rfl, -, -⟩ := freed_of_release hrelease
    have hfreed := (restored_freed { s₂ with state := .replying }).guarded
    exact (restored_of_abort habort).of_guarded (hfreed.trans (hanswered.guarded hfree))
  | @delivered _ s₂ _ _ _ _ _ hanswered hrelease hdeliver =>
    obtain ⟨rfl, -, -⟩ := freed_of_release hrelease
    have hfreed := restored_freed { s₂ with state := .replying }
    exact (restored_of_sends (sends_of_run hdeliver) hfreed.free).of_guarded
      (hfreed.guarded.trans (hanswered.guarded hfree))

theorem holds_serve {n : Nat} {out : Except Error Shutdown × Server}
    (h : (serve n s).run w = (out, after)) (hfree : s.holds = false) : out.2.holds = false := by
  induction n generalizing s w with
  | zero =>
    cases h
    exact hfree
  | succ n ih =>
    obtain ⟨⟨result, s₁⟩, w₁, hserve, h⟩ := Deed.of_run_bind h
    have hfree₁ : s₁.holds = false := (restored_of_serves (serves_of_run hserve) hfree).free
    rcases result with e | _ | _ | _
    · cases e <;> cases h <;> exact hfree₁
    · exact ih h hfree₁
    · cases h
      exact hfree₁
    · cases h
      exact hfree₁

/-- A server as its owner can have brought it about. -/
inductive Reachable : Server → Prop
  | new {role : Role} {connection : Connection} {engine : Engine} {store : Store} {cancel : Nat} :
      Reachable { role, connection, engine, store, cancel }
  | monitored {s : Server} (monitor : Bool) : Reachable s → Reachable { s with monitor }
  | connected {s : Server} (connection : Connection) : Reachable s → Reachable { s with connection }
  | guarded {s s' : Server} {name : String} {force : Bool} {policy : GuardPolicy}
      {w after : World} :
      Reachable s → (s.enableGuard name force policy).run.run w = (.ok s', after) → Reachable s'
  | received {s s' : Server} {result : Except Error Received} {w after : World} :
      Reachable s → s.receive.run w = ((result, s'), after) → Reachable s'
  | served {s s' : Server} {result : Except Error Step} {w after : World} :
      Reachable s → s.serveOne.run w = ((result, s'), after) → Reachable s'
  | ran {s s' : Server} {result : Except Error Shutdown} {w after : World} :
      Reachable s → s.run.run w = ((result, s'), after) → Reachable s'

theorem holds_enableGuard {s' : Server} {name : String} {force : Bool} {policy : GuardPolicy}
    (h : (s.enableGuard name force policy).run.run w = (.ok s', after)) : s'.holds = false := by
  unfold enableGuard at h
  split at h
  · cases h
  · obtain ⟨g, made, hcreate, hdone⟩ := Op.of_run_bind h
    cases hdone
    exact (Guard.create_tokens hcreate).1

theorem Reachable.holds (h : s.Reachable) : s.holds = false := by
  induction h with
  | new => rfl
  | monitored _ _ ih | connected _ _ ih => exact ih
  | guarded _ hguard _ => exact holds_enableGuard hguard
  | received _ hreceive ih => exact (restored_of_receives (receives_of_run hreceive) ih).free
  | served _ hserve ih => exact (restored_of_serves (serves_of_run hserve) ih).free
  | ran _ hrun ih =>
    obtain ⟨_, _, hreport, hrun⟩ := Deed.of_run_bind hrun
    obtain ⟨_, _, hget, hrun⟩ := Deed.of_run_bind hrun
    exact holds_serve hrun ih

/-! ### What a call enters in the journal -/

theorem holds_of_guard (hguard : s.guard = some g) : s.holds = g.held := by
  unfold holds
  rw [hguard]
  rfl

theorem journal_of_receives {out : Except Error Received × Server} (h : s.Receives w out after)
    (hactive : s.state.isTerminal = false) (hfree : s.holds = false) :
    after.journal = .receive false :: w.journal ∧ out.2.guard = s.guard := by
  have hlistening : (s.listening w).journal = .receive false :: w.journal := by
    rw [← hfree]
    rfl
  cases h with
  | terminated hterminal =>
    rw [hactive] at hterminal
    cases hterminal
  | request _ hreceive | peerClosed _ hreceive | waiting _ hreceive =>
    exact ⟨(Connection.receive_kept hreceive).2.trans hlistening, rfl⟩
  | failed _ hreceive habort =>
    obtain ⟨_, _, hended⟩ := ended_of_abort habort
    obtain ⟨hout, hjournal⟩ := hended.of_free hfree
    refine ⟨hjournal.trans ((Connection.receive_kept hreceive).2.trans hlistening), ?_⟩
    rw [hout]
    rfl

theorem acquire_cases {outcome : Except Error Unit} (hguard : s.guard = some g)
    (hfree : g.held = false) (h : s.acquire.run w = ((outcome, s₁), after)) :
    ∃ g', s₁ = { s with guard := some g' } ∧ g'.semaphore = g.semaphore ∧
      ((∃ e, outcome = .error e) ∧ g'.held = false ∧
          (after.journal = w.journal ∨
            after.journal = .wait g.semaphore.object false :: w.journal) ∨
        outcome = .ok () ∧ ∃ acquisition, g.tryAcquire.run w = ((.ok acquisition, g'), after) ∧
          (g'.held = true ↔ acquisition = .acquired) ∧
          after.journal = .wait g.semaphore.object g'.held :: w.journal) := by
  unfold acquire at h
  rw [hguard] at h
  obtain ⟨⟨result, g'⟩, acquired, hacquire, hdone⟩ := Deed.of_run_bind h
  cases hdone
  have hacquires := Guard.acquires_of_run hacquire
  refine ⟨g', rfl, hacquires.semaphore, ?_⟩
  rcases hacquires.cases_of_free hfree with ⟨⟨e, rfl⟩, hheld⟩ | ⟨acquisition, rfl, hheld, hjournal⟩
  · refine .inl ⟨⟨e, rfl⟩, hheld, ?_⟩
    rcases hacquires.frame.2 with ⟨hjournal, -⟩ | ⟨-, hjournal⟩
    · exact .inl hjournal
    · rw [hheld] at hjournal
      exact .inr hjournal
  · exact .inr ⟨rfl, acquisition, hacquire, hheld.symm, hjournal⟩

theorem journal_of_sends {out : Except Error Step × Server} (h : s.Sends w reply out after)
    (hfree : s.holds = false) :
    ∃ sent : Option Octets, after.journal = sent.toList.map (.send false) ++ w.journal := by
  have hspeaking (frame : Octets) (output : Array String) :
      (s.speaking frame output w).journal = .send false frame :: w.journal := by
    rw [← hfree]
    rfl
  cases h with
  | silent => exact ⟨none, rfl⟩
  | @sent frame output _ _ hsend =>
    exact ⟨some frame, (Connection.send_kept hsend).2.trans (hspeaking frame output)⟩
  | @stopped frame output connection _ _ _ hsend hshut =>
    have hjournal := ((ended_of_shutDown hshut).of_free hfree).2
    exact ⟨some frame,
      hjournal.trans ((Connection.send_kept hsend).2.trans (hspeaking frame output))⟩
  | @failed frame output connection _ _ _ _ _ hsend habort =>
    obtain ⟨_, _, hended⟩ := ended_of_abort habort
    exact ⟨some frame, (hended.of_free hfree).2.trans
      ((Connection.send_kept hsend).2.trans (hspeaking frame output))⟩

theorem Heard.journal (h : s.Heard w s₁ w₁) (hguard : s.guard = some g) (hfree : g.held = false) :
    w₁.journal = .receive false :: w.journal ∧ s₁.guard = some g := by
  have hnone : s.holds = false := (holds_of_guard hguard).trans hfree
  obtain ⟨hjournal, hsame⟩ := journal_of_receives (receives_of_run h.run) h.active hnone
  exact ⟨hjournal, hsame.trans hguard⟩

theorem Answered.journal (h : s.Answered w reply s₂ w₃) (hguard : s.guard = some g)
    (hfree : g.held = false) :
    ∃ w₁ w₂ acquisition g' frame, w₁.journal = .receive false :: w.journal ∧
      g.tryAcquire.run w₁ = ((.ok acquisition, g'), w₂) ∧
      (g'.held = true ↔ acquisition = .acquired) ∧
      s₂.guard = some g' ∧ g'.semaphore = g.semaphore ∧
      w₃.journal = .answer g'.held frame :: .wait g.semaphore.object g'.held ::
        .receive false :: w.journal := by
  cases h with
  | @intro s₁ w₁ w₂ hheard _ hacquire hanswer =>
    obtain ⟨hjournal₁, hguard₁⟩ := hheard.journal hguard hfree
    obtain ⟨g', rfl, hsame, hcases⟩ :=
      @acquire_cases { s₁ with state := .guarding } _ g w₁ w₂ _ hguard₁ hfree hacquire
    rcases hcases with ⟨⟨_, herror⟩, -⟩ | ⟨-, acquisition, htry, hheld, hjournal₂⟩
    · cases herror
    · refine ⟨w₁, w₂, acquisition, g', s₁.request, hjournal₁, htry, hheld, rfl, hsame, ?_⟩
      rw [(answer_frame hanswer).1, hjournal₂, hjournal₁]
      rfl

theorem course_of_answered {sent : Option Octets} (h : s.Answered w reply s₂ w₃)
    (hguard : s.guard = some g) (hfree : g.held = false)
    (hafter : after.journal =
      sent.toList.map (.send false) ++ (returns s₂ ++ w₃.journal)) :
    ∃ course, after.journal = course.reverse ++ w.journal ∧ g.Course w course := by
  obtain ⟨w₁, w₂, acquisition, g', frame, hjournal₁, htry, hheld, hguard₂, hsame, hjournal₃⟩ :=
    h.journal hguard hfree
  refine ⟨_, ?_, .answered frame sent hjournal₁ htry hheld⟩
  have hreturns : returns s₂ = if g'.held then [.post g.semaphore.object] else [] := by
    unfold returns
    rw [hguard₂, ← hsame]
    rfl
  rw [hafter, hreturns, hjournal₃]
  cases sent <;> cases g'.held <;> rfl

theorem course_of_serves {out : Except Error Step × Server} (h : s.Serves w out after)
    (hguard : s.guard = some g) (hfree : g.held = false) :
    ∃ course, after.journal = course.reverse ++ w.journal ∧ g.Course w course := by
  have hnone : s.holds = false := (holds_of_guard hguard).trans hfree
  cases h with
  | terminated => exact ⟨[], rfl, .idle⟩
  | heeded _ _ hshut => exact ⟨[], ((ended_of_shutDown hshut).of_free hnone).2, .idle⟩
  | peerClosed hactive _ hreceive | waiting hactive _ hreceive | unheard hactive _ hreceive =>
    have hjournal := (journal_of_receives (receives_of_run hreceive) hactive hnone).1
    exact ⟨[.receive false], hjournal, .unanswered⟩
  | withdrawn hheard _ hshut =>
    obtain ⟨hjournal₁, hguard₁⟩ := hheard.journal hguard hfree
    have hshut := (ended_of_shutDown hshut).of_free ((holds_of_guard hguard₁).trans hfree)
    exact ⟨[.receive false], hshut.2.trans hjournal₁, .unanswered⟩
  | @unacquired s₁ _ _ w₁ w₂ _ _ hheard _ hacquire habort =>
    obtain ⟨hjournal₁, hguard₁⟩ := hheard.journal hguard hfree
    obtain ⟨g', rfl, -, hcases⟩ :=
      @acquire_cases { s₁ with state := .guarding } _ g w₁ w₂ _ hguard₁ hfree hacquire
    rcases hcases with ⟨-, hheld, hjournal₂⟩ | ⟨herror, -⟩
    · obtain ⟨_, _, hended⟩ := ended_of_abort habort
      have hjournal := (hended.of_free hheld).2
      rcases hjournal₂ with hjournal₂ | hjournal₂
      · exact ⟨[.receive false], hjournal.trans (hjournal₂.trans hjournal₁), .unanswered⟩
      · refine ⟨_, ?_, .unguarded⟩
        rw [hjournal, hjournal₂, hjournal₁]
        rfl
    · cases herror
  | unreleased hanswered hrelease habort =>
    -- a release that fails has posted, and `abort` finds nothing to give back
    obtain ⟨rfl, -, hreleased⟩ := freed_of_release hrelease
    obtain ⟨_, _, hended⟩ := ended_of_abort habort
    have hjournal := (hended.of_free (holds_freed _)).2
    exact @course_of_answered _ _ _ _ _ _ _ none hanswered hguard hfree (hjournal.trans hreleased)
  | delivered hanswered hrelease hdeliver =>
    obtain ⟨rfl, -, hreleased⟩ := freed_of_release hrelease
    obtain ⟨sent, hjournal⟩ := journal_of_sends (sends_of_run hdeliver) (holds_freed _)
    rw [hreleased] at hjournal
    exact course_of_answered hanswered hguard hfree hjournal

theorem Restored.guard {s' : Server} (h : s.Restored s') (hguard : s.guard = some g) :
    ∃ g', s'.guard = some g' ∧ g'.held = false := by
  have hsome := h.guarded
  rw [hguard] at hsome
  obtain ⟨g', hg'⟩ := Option.isSome_iff_exists.mp hsome
  exact ⟨g', hg', (holds_of_guard hg').symm.trans h.free⟩

/-- A server with a guard never holds the semaphore but while its engine answers, and there it does
if and only if it acquired it for this very request. Whatever becomes of a call, each token that it
took has been given back when it ends. -/
theorem guard_held_only_to_answer (hreachable : s.Reachable) (hguard : s.guard = some g)
    (w : World) :
    (∃ course g', (s.serveOne.run w).2.journal = course.reverse ++ w.journal ∧ g.Custody w course ∧
        (s.serveOne.run w).1.2.guard = some g' ∧ g'.held = false) ∧
      ∃ course g', (s.receive.run w).2.journal = course.reverse ++ w.journal ∧
        g.Custody w course ∧ (s.receive.run w).1.2.guard = some g' ∧ g'.held = false := by
  have hnone := hreachable.holds
  have hfree : g.held = false := (holds_of_guard hguard).symm.trans hnone
  constructor
  · have hserves : s.Serves w (s.serveOne.run w).1 (s.serveOne.run w).2 := serves_of_run rfl
    obtain ⟨course, hjournal, hcourse⟩ := course_of_serves hserves hguard hfree
    obtain ⟨g', hguard', hfree'⟩ := (restored_of_serves hserves hnone).guard hguard
    exact ⟨course, g', hjournal, hcourse.custody, hguard', hfree'⟩
  · have hreceives : s.Receives w (s.receive.run w).1 (s.receive.run w).2 := receives_of_run rfl
    obtain ⟨g', hguard', hfree'⟩ := (restored_of_receives hreceives hnone).guard hguard
    cases hactive : s.state.isTerminal with
    | true =>
      have hsame : (s.receive.run w).2 = w := by
        unfold receive
        simp only [hactive, if_true]
        rfl
      exact ⟨[], g', congrArg World.journal hsame, Guard.Course.idle.custody, hguard', hfree'⟩
    | false =>
      have hjournal := (journal_of_receives hreceives hactive hnone).1
      exact ⟨[.receive false], g', hjournal, Guard.Course.unanswered.custody, hguard', hfree'⟩

theorem guardedServer_reachable : guardedServer.Reachable := by
  have hguarded : (enableGuard { guardedServer with guard := none } "guard" false {}).run.run {} =
      (.ok guardedServer, ((Guard.create "guard" false {}).run.run {}).2) := rfl
  exact .guarded .new hguarded

theorem write_answered_in_custody :
    (∃ course g', (guardedServer.serveOne.run visited).2.journal = course.reverse ++ visited.journal ∧
        (Guard.ofSemaphore ⟨0, "guard", ⟨"/guard"⟩, true⟩ {}).Custody visited course ∧
        (guardedServer.serveOne.run visited).1.2.guard = some g' ∧ g'.held = false) ∧
      (guardedServer.serveOne.run visited).2.journal =
        [.send false [0x07, 0x06, 0x00, 0x01, 0x12, 0x34, 0xD5, 0x1B], .post 0,
          .answer true [0x07, 0x06, 0x00, 0x01, 0x12, 0x34, 0xD5, 0x1B], .wait 0 true,
          .receive false] :=
  ⟨(guard_held_only_to_answer guardedServer_reachable rfl visited).1, by decide +kernel⟩

end Server
end RtuStation
