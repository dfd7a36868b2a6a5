import RtuStation.Proofs.Cancellation

/-!
# Outcomes of a request

What can fail while a request is served over a line falls into two kinds: `Error.Early` errors are
met before the request is answered, `Error.Late` ones when it has been. The result of a call tells
in which state it leaves the server, and, unless it was cancelled, whether a request was answered
(`ends_of_serves`).
-/

namespace RtuStation

namespace Error

/-- What a request can fail with before it is answered. -/
inductive Early : Error → Prop
  | transport (fault : Fault) : Early (.transport fault)
  | escalated (name : String) : Early (.guardEscalated name)
  | waiting (name : String) (fault : Fault) :
      Early (.system ("sem_timedwait" ++ " " ++ quoted name) fault)

/-- What a request can fail with once it has been answered. -/
inductive Late : Error → Prop
  | posting (name : String) (fault : Fault) : Late (.system ("sem_post " ++ quoted name) fault)
  | reply (fault : Fault) : Late (.reply fault)

variable {e : Error}

theorem Early.ne_cancelled (h : e.Early) : e ≠ .cancelled := by
  cases h <;> exact nofun

theorem Late.ne_cancelled (h : e.Late) : e ≠ .cancelled := by
  cases h <;> exact nofun

theorem Early.not_late (h : e.Early) : ¬e.Late := by
  intro hlate
  cases h with
  | transport | escalated => cases hlate
  | waiting name =>
    generalize hcontext : "sem_timedwait" ++ " " ++ quoted name = context at hlate
    cases hlate with
    | posting other =>
      -- the names of the two calls differ in their fifth letter
      have hletter := congrArg (fun t : String => t.toList[4]?) hcontext
      simp only [String.toList_append] at hletter
      cases hletter

end Error

/-! ### Results and states -/

def Received.state : Received → ServerState
  | request | waiting => .receiving
  | peerClosed => .closed

def Step.state : Step → ServerState
  | .continue => .idle
  | peerClosed => .closed
  | waiting => .receiving

/-- The result of a call goes with the state that it leaves: a shutdown with the one of a closed
session, and an error, which is of a certain kind, with that of a failed one. -/
inductive Ends {α : Type} (rest : α → ServerState) (kind : Error → Prop) :
    Except Error α → ServerState → Prop
  | ok (a : α) : Ends rest kind (.ok a) (rest a)
  | shutDown : Ends rest kind (.error .cancelled) .closed
  | failed {e : Error} : kind e → Ends rest kind (.error e) .fatal

namespace Ends

variable {α : Type} {rest : α → ServerState} {kind : Error → Prop} {state : ServerState}

theorem of_ok {a : α} (h : Ends rest kind (.ok a) state) : state = rest a := by
  cases h
  rfl

theorem of_error {e : Error} (h : Ends rest kind (.error e) state) :
    e = .cancelled ∧ state = .closed ∨ kind e ∧ state = .fatal := by
  cases h with
  | shutDown => exact .inl ⟨rfl, rfl⟩
  | failed hkind => exact .inr ⟨hkind, rfl⟩

theorem mono {kind' : Error → Prop} {result : Except Error α} (h : Ends rest kind result state)
    (himp : ∀ e, kind e → kind' e) : Ends rest kind' result state := by
  cases h with
  | ok a => exact .ok a
  | shutDown => exact .shutDown
  | failed hkind => exact .failed (himp _ hkind)

end Ends

/-! ### Errors of the single steps -/

namespace Semaphore

variable {s : Semaphore} {w after : World} {e : Error}

theorem early_of_wait (h : s.wait.run.run w = (.error e, after)) : e.Early := by
  rcases hmeet : meet.run w with ⟨fault, met⟩
  cases fault with
  | some errno =>
    have hwait : s.wait.run.run w = _ := take_of_fault "sem_timedwait" hmeet
    rw [hwait] at h
    cases h
    exact .waiting s.name _
  | none =>
    have hwait : s.wait.run.run w = _ := take_of_pass "sem_timedwait" hmeet
    rw [hwait] at h
    split at h <;> cases h

theorem late_of_post (h : s.post.run.run w = (.error e, after)) : e.Late := by
  rcases hmeet : meet.run ((enter (.post s.object)).run w).2 with ⟨fault, met⟩
  cases fault with
  | some errno =>
    rw [post_of_fault hmeet] at h
    cases h
    exact .posting s.name _
  | none =>
    by_cases hfull : maxCount ≤ s.count met
    · rw [post_of_full hmeet hfull] at h
      cases h
      exact .posting s.name _
    · rw [post_of_pass hmeet (Nat.lt_of_not_le hfull)] at h
      cases h

end Semaphore

namespace Guard

variable {g g' : Guard} {w after : World} {e : Error}

theorem Acquires.early {outcome : Except Error Acquisition} (h : g.Acquires w outcome g' after)
    (herror : outcome = .error e) : e.Early := by
  cases h with
  | escalated =>
    cases herror
    exact .escalated g.name
  | held | taken => cases herror
  | failed _ _ hwait =>
    cases herror
    exact Semaphore.early_of_wait hwait
  | missed =>
    split at herror
    · cases herror
      exact .escalated g.name
    · cases herror

theorem late_of_release (h : g.release.run w = ((.error e, g'), after)) : e.Late := by
  cases hheld : g.held with
  | false =>
    rw [release_of_free hheld] at h
    cases h
  | true =>
    rcases hpost : g.semaphore.post.run.run w with ⟨outcome, posted⟩
    rw [release_of_held hheld hpost] at h
    cases h
    exact Semaphore.late_of_post hpost

end Guard

theorem Ending.early_of_verdict {ending : Ending} {e : Error} (h : ending.verdict = .error e) :
    e.Early := by
  cases ending with
  | failed fault =>
    cases h
    exact .transport fault
  | cancelled =>
    cases h
    exact .transport _
  | _ => cases h

theorem Dispatch.Ending.late_of_verdict {ending : Dispatch.Ending} {e : Error}
    (h : ending.verdict = .error e) (hother : e ≠ .cancelled) : e.Late := by
  cases ending with
  | whole => cases h
  | cancelled =>
    cases h
    exact absurd rfl hother
  | failed | hungUp | expired =>
    cases h
    exact .reply _

namespace Port

variable {p : Port} {framing : Octets → FrameLength} {context : Octets} {c : Connection}
  {w after : World} {e : Error}

theorem early_of_receive
    (h : ((Connection.port p).receive framing).run w = ((⟨context, .error e⟩, c), after)) :
    e.Early := by
  rcases (Connection.receive_port_cases h).2 with ⟨hpeer, -⟩ | ⟨hfound, -⟩
  · cases hpeer
  · exact Ending.early_of_verdict (congrArg Reception.result hfound).symm

theorem late_of_send {frame : Octets} (hother : e ≠ .cancelled)
    (h : ((Connection.port p).send frame).run w = ((.error e, c), after)) : e.Late := by
  obtain ⟨outcome, _, hsend, hmade⟩ := Deed.of_run_bind h
  cases hmade
  rw [send_run] at hsend
  exact Dispatch.Ending.late_of_verdict (congrArg (·.1) hsend) hother

end Port

namespace Server

variable {s s₁ s₂ : Server} {p : Port} {w w₁ w₃ after : World} {reply : Option Octets} {e : Error}

theorem early_of_acquire (h : s.acquire.run w = ((.error e, s₁), after)) : e.Early := by
  unfold acquire at h
  split at h
  · cases h
  · obtain ⟨⟨result, g⟩, acquired, hacquire, hdone⟩ := Deed.of_run_bind h
    cases result with
    | error =>
      cases hdone
      exact (Guard.acquires_of_run hacquire).early rfl
    | ok => cases hdone

theorem late_of_release (h : s.release.run w = ((.error e, s₁), after)) : e.Late := by
  unfold release at h
  split at h
  · cases h
  · obtain ⟨⟨result, g⟩, released, hrelease, hdone⟩ := Deed.of_run_bind h
    cases hdone
    exact Guard.late_of_release hrelease

/-! ### Ends of calls -/

variable {α : Type} {rest : α → ServerState} {kind : Error → Prop} {out : Except Error α × Server}

theorem ends_of_shutDown (h : s.shutDown.run w = (out, after)) :
    Ends rest kind out.1 out.2.state := by
  rw [(ended_of_shutDown h).out]
  exact .shutDown

theorem ends_of_abort (h : (s.abort e).run w = (out, after)) (hkind : kind e) :
    Ends rest kind out.1 out.2.state := by
  rcases abort_cases h with ⟨-, hended⟩ | ⟨-, hended⟩
  · rw [hended.out]
    exact .shutDown
  · rw [hended.out]
    exact .failed hkind

theorem ends_of_receives {out : Except Error Received × Server} (h : s.Receives w out after)
    (hport : s.connection = .port p) (hactive : s.state.isTerminal = false) :
    Ends Received.state Error.Early out.1 out.2.state := by
  cases h with
  | terminated hterminal =>
    rw [hactive] at hterminal
    cases hterminal
  | request => exact .ok Received.request
  | peerClosed => exact .ok Received.peerClosed
  | waiting => exact .ok Received.waiting
  | failed _ hreceive habort =>
    rw [hport] at hreceive
    exact ends_of_abort habort (Port.early_of_receive hreceive)

theorem ends_of_sends {out : Except Error Step × Server} (h : s.Sends w reply out after)
    (hport : s.connection = .port p) : Ends Step.state Error.Late out.1 out.2.state := by
  cases h with
  | silent | sent => exact .ok Step.continue
  | stopped _ hshut => exact ends_of_shutDown hshut
  | failed hother hsend habort =>
    rw [hport] at hsend
    exact ends_of_abort habort (Port.late_of_send hother hsend)

end Server
end RtuStation
