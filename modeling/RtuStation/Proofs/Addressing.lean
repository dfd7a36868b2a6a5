import RtuStation.Proofs.Refusals

/-!
# Frames to one station and to all

Who a frame is sent to decides whether it is heeded and answered, and nothing else. The change that
a request makes (`Request.effect`) depends on the banks alone, neither on the station nor on whether
a reply is due, so that a frame to all leaves the same behind as one to the station itself. A frame
to another station leaves everything as it was.
-/

namespace RtuStation

namespace Request

/-- What a function code with its data changes on the banks of a station that heeds it. -/
def effect (unit : UInt8) (pdu : Octets) (banks : Banks) : Change :=
  match decode pdu with
  | .error _ => .nothing
  | .ok r => ((r.perform? unit banks).map Prod.snd).getD .nothing

/-- The address of a station shows in the data of answers only. -/
theorem map_snd_perform? (r : Request) (unit other : UInt8) (banks : Banks) :
    (r.perform? unit banks).map Prod.snd = (r.perform? other banks).map Prod.snd := by
  cases r <;> rfl

theorem effect_unit (unit other : UInt8) (pdu : Octets) (banks : Banks) :
    effect unit pdu banks = effect other pdu banks := by
  unfold effect
  cases decode pdu with
  | error e => rfl
  | ok r => exact congrArg (Option.getD · .nothing) (r.map_snd_perform? unit other banks)

end Request

namespace Station

variable {s : Station} {frame : Octets} {banks : Banks}

theorem change_of_hears (h : s.Hears frame) :
    (s.answer frame banks).change = Request.effect s.unit (pdu frame) banks := by
  rw [answer_of_hears h, Request.effect, Request.respond]
  cases Request.decode (pdu frame) with
  | error e =>
    dsimp only
    split <;> rfl
  | ok r =>
    dsimp only
    cases r.perform? s.unit banks with
    | none =>
      dsimp only
      split <;> rfl
    | some result =>
      dsimp only
      split <;> rfl

theorem reply_of_own (h : s.Hears frame) (hown : frame.headD 0 = s.unit) :
    ∃ reply, (s.answer frame banks).reply = some reply := by
  cases hr : Request.respond s.unit (pdu frame) banks with
  | ok result => exact ⟨_, reply_of_ok h hown hr⟩
  | error e => exact ⟨_, reply_of_error h hown hr⟩

/-! ### Requests to one station and to all -/

variable {pdu : Octets}

theorem not_hears_requestFrame {address : UInt8} (hall : address ≠ broadcast)
    (hown : address ≠ s.unit) : ¬s.Hears (requestFrame address pdu) :=
  fun h => h.2.2.elim hown hall

/-- What a request changes does not depend on whether it is sent to a station or to all. -/
theorem change_requestFrame (nonempty : pdu ≠ []) {address : UInt8}
    (heeded : address = s.unit ∨ address = broadcast) :
    (s.answer (requestFrame address pdu) banks).change = Request.effect broadcast pdu banks := by
  rw [change_of_hears ((hears_requestFrame_of_ne_nil nonempty).mpr heeded), pdu_requestFrame,
    Request.effect_unit]

theorem reply_requestFrame_broadcast (nonempty : pdu ≠ []) :
    (s.answer (requestFrame broadcast pdu) banks).reply = none :=
  reply_of_broadcast ((hears_requestFrame_of_ne_nil nonempty).mpr (.inr rfl)) rfl

theorem reply_requestFrame_own (nonempty : pdu ≠ []) :
    ∃ reply, (s.answer (requestFrame s.unit pdu) banks).reply = some reply :=
  reply_of_own ((hears_requestFrame_of_ne_nil nonempty).mpr (.inl rfl)) rfl

theorem process_requestFrame_foreign {address : UInt8} (hall : address ≠ broadcast)
    (hown : address ≠ s.unit) : s.process (requestFrame address pdu) banks = (none, banks) :=
  process_of_not_hears (not_hears_requestFrame hall hown) banks

theorem banks_requestFrame (nonempty : pdu ≠ []) {address : UInt8}
    (heeded : address = s.unit ∨ address = broadcast) :
    (s.process (requestFrame address pdu) banks).2 =
      banks.apply (Request.effect broadcast pdu banks) :=
  congrArg banks.apply (change_requestFrame nonempty heeded)

theorem process_requestFrame_broadcast (nonempty : pdu ≠ []) :
    s.process (requestFrame broadcast pdu) banks =
      (none, banks.apply (Request.effect broadcast pdu banks)) :=
  Prod.ext (reply_requestFrame_broadcast nonempty) (banks_requestFrame nonempty (.inr rfl))

end Station

namespace Store

variable {station : Station} {store : Store} {w : World} {pdu : Octets}

theorem segments_execute_requestFrame (nonempty : pdu ≠ []) {address : UInt8}
    (heeded : address = station.unit ∨ address = broadcast) :
    ((store.execute station.engine (requestFrame address pdu)).run w).2.segments =
      ((store.apply (Request.effect broadcast pdu (store.banks w))).run w).2.segments := by
  rw [(store.execute_run station.engine _ w).2]
  exact congrArg (fun change => ((store.apply change).run w).2.segments)
    (Station.change_requestFrame nonempty heeded)

theorem execute_requestFrame_foreign {address : UInt8} (hall : address ≠ broadcast)
    (hown : address ≠ station.unit) :
    let after := (store.execute station.engine (requestFrame address pdu)).run w
    after.1 = none ∧ after.2.segments = w.segments := by
  intro after
  obtain ⟨hreply, hsegments⟩ := store.execute_run station.engine (requestFrame address pdu) w
  obtain ⟨hnone, hnothing⟩ := @Station.answer_of_not_hears station (requestFrame address pdu)
    (store.banks w) (Station.not_hears_requestFrame hall hown)
  refine ⟨hreply.trans hnone, hsegments.trans ?_⟩
  exact congrArg (fun change => ((store.apply change).run w).2.segments) hnothing

end Store

/-- A request to all stations gets no reply and leaves the banks as the same request to the station
itself leaves them, which always gets a reply. Every station does the same on it. The same request to
another station gets no reply and changes nothing. So it is for banks of their own and for those of a
store, which may share their segments. -/
theorem Station.broadcast_acts_as_addressed (s other : Station) (pdu : Octets)
    (nonempty : pdu ≠ []) :
    (∀ address, Crc.intact (requestFrame address pdu) = true) ∧
    (∀ banks,
      let all := s.process (requestFrame broadcast pdu) banks
      let own := s.process (requestFrame s.unit pdu) banks
      all = (none, own.2) ∧ (∃ reply, own.1 = some reply) ∧
        other.process (requestFrame broadcast pdu) banks = all ∧
        ∀ address, address ≠ broadcast → address ≠ s.unit →
          s.process (requestFrame address pdu) banks = (none, banks)) ∧
    ∀ (store : Store) (w : World),
      let all := (store.execute s.engine (requestFrame broadcast pdu)).run w
      let own := (store.execute s.engine (requestFrame s.unit pdu)).run w
      let others := (store.execute other.engine (requestFrame broadcast pdu)).run w
      (all.1 = none ∧ all.2.segments = own.2.segments) ∧ (∃ reply, own.1 = some reply) ∧
        (others.1 = none ∧ others.2.segments = all.2.segments) ∧
        ∀ address, address ≠ broadcast → address ≠ s.unit →
          let foreign := (store.execute s.engine (requestFrame address pdu)).run w
          foreign.1 = none ∧ foreign.2.segments = w.segments := by
  refine ⟨fun _ => Crc.intact_checked _, fun banks => ?_, fun store w => ?_⟩
  · have hown := @banks_requestFrame s banks pdu nonempty s.unit (.inl rfl)
    refine ⟨?_, reply_requestFrame_own nonempty, ?_, fun _ => process_requestFrame_foreign⟩
    · rw [process_requestFrame_broadcast nonempty, hown]
    · rw [process_requestFrame_broadcast nonempty, process_requestFrame_broadcast nonempty]
  · have hall := @Store.segments_execute_requestFrame s store w pdu nonempty broadcast (.inr rfl)
    have hown := @Store.segments_execute_requestFrame s store w pdu nonempty s.unit (.inl rfl)
    have hothers :=
      @Store.segments_execute_requestFrame other store w pdu nonempty broadcast (.inr rfl)
    obtain ⟨reply, hreply⟩ := @reply_requestFrame_own s (store.banks w) pdu nonempty
    have hsilent (station : Station) :
        ((store.execute station.engine (requestFrame broadcast pdu)).run w).1 = none :=
      (store.execute_run station.engine _ w).1.trans (reply_requestFrame_broadcast nonempty)
    exact ⟨⟨hsilent s, hall.trans hown.symm⟩,
      ⟨reply, (store.execute_run s.engine _ w).1.trans hreply⟩,
      ⟨hsilent other, hothers.trans hall.symm⟩, fun _ => Store.execute_requestFrame_foreign⟩

/-- All stations are asked to put 0x1234 into register 1: stations 7 and 9 both do, silently, and
leave what the request to station 7 leaves, to which it replies. To one for station 8 it is deaf. -/
theorem Station.register_set_by_all :
    let seven : Station := ⟨7, by decide⟩
    let nine : Station := ⟨9, by decide⟩
    let pdu : Octets := [0x06, 0x00, 0x01, 0x12, 0x34]
    let banks := Banks.zeros (PerBank.ofFn fun _ => 4)
    let all := seven.process (requestFrame broadcast pdu) banks
    let own := seven.process (requestFrame seven.unit pdu) banks
    pdu ≠ [] ∧ all.1 = none ∧ all.2.holdingRegister 1 = 0x1234 ∧ all.2 = own.2 ∧
      (∃ reply, own.1 = some reply) ∧ nine.process (requestFrame broadcast pdu) banks = all ∧
      seven.process (requestFrame 8 pdu) banks = (none, banks) := by
  intro seven nine pdu banks all own
  have nonempty : pdu ≠ [] := by decide
  have hset : all.2.holdingRegister 1 = 0x1234 := by decide +kernel
  obtain ⟨hall, hreply, hothers, hforeign⟩ :=
    (broadcast_acts_as_addressed seven nine pdu nonempty).2.1 banks
  have hleft : all = (none, own.2) := hall
  exact ⟨nonempty, by rw [hleft], hset, by rw [hleft], hreply, hothers,
    hforeign 8 (by decide) (by decide)⟩

end RtuStation
