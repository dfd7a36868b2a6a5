import RtuStation.Proofs.Writes
import RtuStation.Server

/-!
# Answers to frames

What a station does with a frame, said once: a frame that is not heard changes nothing and gets no
reply, a refused request changes nothing, and an accepted one makes its change. Over a store the
change is made on the octets of the segments.
-/

namespace RtuStation

namespace Request

theorem respond_of_perform? {unit : UInt8} {pdu : Octets} {banks : Banks} {r : Request}
    (hf : Form pdu r) {result : Octets × Change} (h : r.perform? unit banks = some result) :
    respond unit pdu banks = .ok result := by
  simp only [respond, decode_eq_ok_iff.mpr hf, h]

end Request

namespace Station

/-- Whether a frame is long enough, undamaged, and sent to the station or to all. -/
def Hears (s : Station) (frame : Octets) : Prop :=
  minFrame ≤ frame.length ∧ Crc.intact frame = true ∧
    (frame.headD 0 = s.unit ∨ frame.headD 0 = broadcast)

def Accepts (s : Station) (frame : Octets) (banks : Banks) : Prop :=
  s.Hears frame ∧ ∃ result, Request.respond s.unit (pdu frame) banks = .ok result

instance (s : Station) (frame : Octets) : Decidable (s.Hears frame) :=
  inferInstanceAs (Decidable (_ ∧ _ ∧ _))

instance (s : Station) (frame : Octets) (banks : Banks) : Decidable (s.Accepts frame banks) :=
  match h : Request.respond s.unit (pdu frame) banks with
  | .ok result => decidable_of_iff (s.Hears frame) ⟨fun hh => ⟨hh, result, h⟩, fun ha => ha.1⟩
  | .error _ => isFalse fun ha => by
    obtain ⟨-, result, hr⟩ := ha
    rw [h] at hr
    cases hr

variable {s : Station} {frame : Octets} {banks : Banks}

theorem answer_of_not_hears (h : ¬s.Hears frame) :
    (s.answer frame banks).reply = none ∧ (s.answer frame banks).change = .nothing := by
  unfold answer
  split
  · exact ⟨rfl, rfl⟩
  · rename_i hlen
    split
    · exact ⟨rfl, rfl⟩
    · rename_i hintact
      have haddress : frame.headD 0 ≠ s.unit ∧ frame.headD 0 ≠ broadcast := by
        refine not_or.mp fun ha => h ⟨by omega, by simpa using hintact, ha⟩
      rw [if_pos haddress]
      exact ⟨rfl, rfl⟩

theorem process_of_not_hears (h : ¬s.Hears frame) (banks : Banks) :
    s.process frame banks = (none, banks) := by
  obtain ⟨hreply, hchange⟩ := @answer_of_not_hears s frame banks h
  simp only [process, hreply, hchange]
  rfl

theorem answer_of_hears (h : s.Hears frame) :
    s.answer frame banks =
      match Request.respond s.unit (pdu frame) banks with
      | .ok (data, change) =>
        if frame.headD 0 = broadcast then ⟨none, change, none⟩
        else ⟨some (Crc.checked (frame.headD 0 :: functionOctet frame :: data)), change, none⟩
      | .error e =>
        if frame.headD 0 = broadcast then .ignored none
        else ⟨some (Crc.checked [frame.headD 0, functionOctet frame ||| 0x80, e.code]), .nothing,
          some (.refused (functionOctet frame) e)⟩ := by
  obtain ⟨hlen, hintact, haddress⟩ := h
  have hlen' : ¬frame.length < minFrame := by omega
  have hintact' : ¬(!Crc.intact frame) = true := by simp [hintact]
  have haddress' : ¬(frame.headD 0 ≠ s.unit ∧ frame.headD 0 ≠ broadcast) := by
    rintro ⟨h1, h2⟩
    exact haddress.elim h1 h2
  exact (if_neg hlen').trans ((if_neg hintact').trans (if_neg haddress'))

theorem reply_of_broadcast (h : s.Hears frame) (hall : frame.headD 0 = broadcast) :
    (s.answer frame banks).reply = none := by
  rw [answer_of_hears h]
  cases Request.respond s.unit (pdu frame) banks with
  | ok result => simp only [hall, if_true]
  | error e =>
    simp only [hall, if_true]
    rfl

theorem change_of_error {e : Exception} (h : Request.respond s.unit (pdu frame) banks = .error e) :
    (s.answer frame banks).change = .nothing := by
  by_cases hh : s.Hears frame
  · rw [answer_of_hears hh, h]
    dsimp only
    split <;> rfl
  · exact (answer_of_not_hears hh).2

theorem change_of_not_accepts (h : ¬s.Accepts frame banks) :
    (s.answer frame banks).change = .nothing := by
  by_cases hh : s.Hears frame
  · cases hr : Request.respond s.unit (pdu frame) banks with
    | error e => exact change_of_error hr
    | ok result => exact absurd ⟨hh, result, hr⟩ h
  · exact (answer_of_not_hears hh).2

theorem request_of_accepts (h : s.Accepts frame banks) :
    ∃ r data change, Request.Form (pdu frame) r ∧
      r.perform? s.unit banks = some (data, change) ∧
      (s.answer frame banks).change = change ∧
      (s.answer frame banks).reply =
        if frame.headD 0 = broadcast then none
        else some (Crc.checked (frame.headD 0 :: functionOctet frame :: data)) := by
  obtain ⟨hh, ⟨data, change⟩, hr⟩ := h
  have hanswer := @answer_of_hears s frame banks hh
  simp only [hr] at hanswer
  unfold Request.respond at hr
  split at hr
  · cases hr
  · rename_i r hd
    split at hr
    · cases hr
    · rename_i result hp
      cases hr
      refine ⟨r, data, change, Request.decode_eq_ok_iff.mp hd, hp, ?_, ?_⟩
      · rw [hanswer]
        split <;> rfl
      · rw [hanswer]
        split <;> rfl

theorem process_of_perform? (h : s.Hears frame) {r : Request} (hf : Request.Form (pdu frame) r)
    {data : Octets} {change : Change} (hperform : r.perform? s.unit banks = some (data, change)) :
    s.process frame banks =
      (if frame.headD 0 = broadcast then none
        else some (Crc.checked (frame.headD 0 :: functionOctet frame :: data)),
      banks.apply change) := by
  simp only [process, answer_of_hears h, Request.respond_of_perform? hf hperform]
  split <;> rfl

/-! ### Frames made for a request -/

variable {address : UInt8} {p : Octets} {r : Request}

@[simp] theorem headD_requestFrame (address : UInt8) (p : Octets) :
    (requestFrame address p).headD 0 = address := rfl

@[simp] theorem pdu_requestFrame (address : UInt8) (p : Octets) :
    pdu (requestFrame address p) = p := by
  rw [pdu, requestFrame, Crc.body_checked]
  rfl

theorem hears_requestFrame_of_ne_nil (h : p ≠ []) :
    s.Hears (requestFrame address p) ↔ address = s.unit ∨ address = broadcast := by
  have hpdu := List.length_pos_iff.mpr h
  have hlength : minFrame ≤ (requestFrame address p).length := by
    simp only [requestFrame, Crc.length_checked, List.length_cons, minFrame]
    omega
  exact ⟨fun h => h.2.2, fun h => ⟨hlength, Crc.intact_checked _, h⟩⟩

theorem hears_requestFrame_iff (hf : Request.Form p r) :
    s.Hears (requestFrame address p) ↔ address = s.unit ∨ address = broadcast := by
  refine hears_requestFrame_of_ne_nil ?_
  rintro rfl
  cases hf

end Station

/-! ### Answers on the segments of a store -/

namespace Mapping

theorem memory_setCells_of_ne {m other : Mapping} (cells : Array UInt8) (w : World)
    (h : other.object ≠ m.object) :
    other.memory ((m.setCells cells).run w).2 = other.memory w := by
  have hget := Registry.get?_modify_of_ne w.segments
    (fun s : Segment => { s with memory := { s.memory with near := cells } }) (Ne.symm h)
  simp only [memory, setCells]
  exact congrArg (fun o => (Option.map Segment.memory o).getD (.zeros 0)) hget

theorem memory_setCells (m : Mapping) (cells : Array UInt8) (w : World) :
    m.memory ((m.setCells cells).run w).2 =
      ((w.segments.get? m.object).map fun s => { s.memory with near := cells }).getD (.zeros 0) := by
  have hget := Registry.get?_modify_self w.segments m.object
    (fun s : Segment => { s with memory := { s.memory with near := cells } })
  simp only [memory, setCells]
  refine (congrArg (fun o => (Option.map Segment.memory o).getD (.zeros 0)) hget).trans ?_
  rw [Option.map_map]
  rfl

/-- Replacing the start of a segment by as many octets keeps an octet that they keep. -/
theorem octet_setCells_of_eq (m : Mapping) {cells : Array UInt8} {w : World} {i : Nat}
    (h : cells[i]? = (m.cells w)[i]?) :
    (m.memory ((m.setCells cells).run w).2).octet i = (m.memory w).octet i := by
  rw [memory_setCells]
  cases hs : w.segments.get? m.object with
  | none => simp [memory, hs]
  | some segment =>
    have hnear : cells[i]? = segment.memory.near[i]? := by
      simpa only [Mapping.cells, memory, hs, Option.map_some, Option.getD_some] using h
    simp only [memory, hs, Option.map_some, Option.getD_some, Memory.octet, hnear]

theorem octet_setCells_of_some (m : Mapping) {cells : Array UInt8} {w : World} {i : Nat}
    {b : UInt8} (hroom : i < (m.cells w).size) (h : cells[i]? = some b) :
    (m.memory ((m.setCells cells).run w).2).octet i = b := by
  rw [memory_setCells]
  cases hs : w.segments.get? m.object with
  | none => simp [Mapping.cells, memory, hs, Memory.zeros] at hroom
  | some segment => simp only [Option.map_some, Option.getD_some, Memory.octet, h]

theorem cells_setCells (m : Mapping) {cells : Array UInt8} {w : World}
    (h : cells.size = (m.cells w).size) : m.cells ((m.setCells cells).run w).2 = cells := by
  rw [Mapping.cells, memory_setCells]
  cases hs : w.segments.get? m.object with
  | none =>
    -- an object that is missing has no octets, and so none were put into it
    have hnone : cells.size = 0 := by
      simpa [Mapping.cells, memory, hs, Memory.zeros] using h
    rw [Array.eq_empty_of_size_eq_zero hnone]
    rfl
  | some segment => rfl

end Mapping

namespace Store

theorem banks_congr (store : Store) {v w : World} (h : v.segments = w.segments) :
    store.banks v = store.banks w := by
  simp only [banks, bank, Mapping.cells, Mapping.memory, h]

/-- An answer is given on the banks as they are. Besides its change, it can only be remarked on. -/
theorem execute_eq (store : Store) (engine : Engine) (frame : Octets) (w : World) :
    ∃ notices, (store.execute engine frame).run w =
      ((engine.answer frame (store.banks w)).reply,
        { ((store.apply (engine.answer frame (store.banks w)).change).run w).2 with notices }) := by
  cases hremark : (engine.answer frame (store.banks w)).remark with
  | none =>
    refine ⟨((store.apply (engine.answer frame (store.banks w)).change).run w).2.notices, ?_⟩
    simp only [execute, StateT.run_bind, StateT.run_get, pure_bind, hremark]
    rfl
  | some remark =>
    refine ⟨w.notices.push (.remark remark), ?_⟩
    simp only [execute, StateT.run_bind, StateT.run_get, pure_bind, hremark]
    cases (engine.answer frame (store.banks w)).change <;> rfl

theorem execute_run (store : Store) (engine : Engine) (frame : Octets) (w : World) :
    ((store.execute engine frame).run w).1 = (engine.answer frame (store.banks w)).reply ∧
      ((store.execute engine frame).run w).2.segments =
        ((store.apply (engine.answer frame (store.banks w)).change).run w).2.segments := by
  obtain ⟨notices, hrun⟩ := store.execute_eq engine frame w
  rw [hrun]
  exact ⟨rfl, rfl⟩

end Store
end RtuStation
