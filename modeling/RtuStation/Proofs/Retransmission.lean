import RtuStation.Proofs.Extents

/-!
# Repeated requests

A master that misses a reply sends its request again. Every request can be repeated: carried out on
the banks that it has left, it makes the same change again, which changes nothing more, and has the
same answer. A mask leaves alone what it has made, and a request that writes and reads writes first,
so that its reply tells the words it has written.
-/

namespace RtuStation
namespace Request

theorem masked_masked (value andMask orMask : UInt16) :
    masked (masked value andMask orMask) andMask orMask = masked value andMask orMask := by
  apply UInt16.eq_of_toBitVec_eq
  ext i hi
  simp only [masked, UInt16.toBitVec_or, UInt16.toBitVec_and, UInt16.toBitVec_not,
    BitVec.getElem_or, BitVec.getElem_and, BitVec.getElem_not]
  grind

/-- A request that is carried out can be carried out again, with the same data and the same
change. -/
theorem perform?_again {unit : UInt8} {banks : Banks} {r : Request} {data : Octets} {change : Change}
    (h : r.perform? unit banks = some (data, change)) :
    r.perform? unit (banks.apply change) = some (data, change) := by
  cases r with
  | readCoils s n | readDiscreteInputs s n | readHoldingRegisters s n | readInputRegisters s n =>
    have hread := h
    obtain ⟨_, -, hr⟩ := Option.bind_eq_some_iff.mp h
    cases hr
    exact hread
  | writeCoil a on =>
    obtain ⟨bank, hb, hr⟩ := Option.bind_eq_some_iff.mp h
    cases hr
    exact Option.bind_eq_some_iff.mpr ⟨bank, Bank.set?_again hb, rfl⟩
  | writeRegister a v =>
    obtain ⟨bank, hb, hr⟩ := Option.bind_eq_some_iff.mp h
    cases hr
    exact Option.bind_eq_some_iff.mpr ⟨bank, Bank.set?_again hb, rfl⟩
  | writeCoils s vs =>
    obtain ⟨bank, hb, hr⟩ := Option.bind_eq_some_iff.mp h
    cases hr
    exact Option.bind_eq_some_iff.mpr ⟨bank, Bank.write?_again hb, rfl⟩
  | writeRegisters s vs =>
    obtain ⟨bank, hb, hr⟩ := Option.bind_eq_some_iff.mp h
    cases hr
    exact Option.bind_eq_some_iff.mpr ⟨bank, Bank.write?_again hb, rfl⟩
  | reportServerId =>
    cases h
    rfl
  | maskWriteRegister a m o =>
    obtain ⟨value, hv, hrest⟩ := Option.bind_eq_some_iff.mp h
    obtain ⟨bank, hb, hr⟩ := Option.bind_eq_some_iff.mp hrest
    cases hr
    -- the second time the mask finds the word that it has made
    have hfound : bank.get? a.toNat = some (masked value m o) := by
      rw [Bank.get?_set? hb, if_pos rfl]
    refine Option.bind_eq_some_iff.mpr ⟨masked value m o, hfound, ?_⟩
    refine Option.bind_eq_some_iff.mpr ⟨bank, ?_, rfl⟩
    rw [masked_masked]
    exact Bank.set?_again hb
  | writeReadRegisters rs rn ws vs =>
    obtain ⟨bank, hb, hrest⟩ := Option.bind_eq_some_iff.mp h
    obtain ⟨words, hread, hr⟩ := Option.bind_eq_some_iff.mp hrest
    cases hr
    refine Option.bind_eq_some_iff.mpr ⟨bank, Bank.write?_again hb, ?_⟩
    exact Option.bind_eq_some_iff.mpr ⟨words, hread, rfl⟩

theorem respond_again {unit : UInt8} {pdu : Octets} {banks : Banks} {data : Octets}
    {change : Change} (h : respond unit pdu banks = .ok (data, change)) :
    respond unit pdu (banks.apply change) = .ok (data, change) := by
  unfold respond at h ⊢
  split at h
  · cases h
  · split at h
    · cases h
    · next hperform =>
      cases h
      rw [perform?_again hperform]

end Request

theorem Banks.apply_again (banks : Banks) (change : Change) :
    (banks.apply change).apply change = banks.apply change := by
  cases change <;> rfl

namespace Station

/-- On the banks that a frame leaves, its answer is the same once more. -/
theorem answer_again (s : Station) (frame : Octets) (banks : Banks) :
    s.answer frame (banks.apply (s.answer frame banks).change) = s.answer frame banks := by
  by_cases h : s.Accepts frame banks
  · obtain ⟨hh, ⟨data, change⟩, hr⟩ := h
    have hchange : (s.answer frame banks).change = change := by
      rw [answer_of_hears hh, hr]
      dsimp only
      split <;> rfl
    rw [hchange, answer_of_hears hh, answer_of_hears hh, hr, Request.respond_again hr]
  · rw [change_of_not_accepts h]
    rfl

end Station

namespace Store

variable {store : Store} {w : World}

/-- Putting into a segment what it holds already changes nothing. -/
theorem segments_putBank_of_held {width : Width} {k : BankKind} {bank : Bank width}
    (h : bank.cells = (store.mappings.get k).cells w) :
    ((store.putBank k bank).run w).2.segments = w.segments := by
  refine Registry.modify_of_fixed w.segments fun segment hsegment => ?_
  have hnear : bank.cells = segment.memory.near := by
    simpa only [Mapping.cells, Mapping.memory, hsegment, Option.map_some, Option.getD_some] using h
  rw [hnear]

theorem segments_apply_of_held {change : Change}
    (h : (store.banks w).apply change = store.banks w) :
    ((store.apply change).run w).2.segments = w.segments := by
  cases change with
  | nothing => rfl
  | coils bank =>
    exact segments_putBank_of_held (k := .coils) (congrArg (fun b : Banks => b.coils.cells) h)
  | holdingRegisters bank =>
    exact segments_putBank_of_held (k := .holdingRegisters)
      (congrArg (fun b : Banks => b.holdingRegisters.cells) h)

/-- A frame that is processed a second time right after the first gets the same reply, or again
none, and leaves every octet of every segment as the first time has left it. -/
theorem repeated_frame_changes_nothing (station : Station) (store : Store) (w : World)
    (frame : Octets) (distinct : store.Distinct) :
    let once := (store.execute station.engine frame).run w
    let twice := (store.execute station.engine frame).run once.2
    twice.1 = once.1 ∧ twice.2.segments = once.2.segments ∧
      store.banks twice.2 = store.banks once.2 := by
  intro once twice
  obtain ⟨honce, hbanks⟩ := execute_eq_process distinct station frame w
  obtain ⟨htwice, hsegments⟩ := store.execute_run station.engine frame once.2
  have hagain : station.answer frame (store.banks once.2) =
      station.answer frame (store.banks w) := by
    rw [hbanks]
    exact Station.answer_again station frame (store.banks w)
  have hheld : twice.2.segments = once.2.segments := by
    refine hsegments.trans (segments_apply_of_held ?_)
    show (store.banks once.2).apply (station.answer frame (store.banks once.2)).change = _
    rw [hagain, hbanks]
    exact Banks.apply_again ..
  refine ⟨?_, hheld, store.banks_congr hheld⟩
  rw [htwice, honce]
  exact congrArg Answer.reply hagain

/-- Station 7 is asked twice to put 0xABCD into register 1 and to read registers 0 and 1. -/
theorem exchange_repeated :
    let station : Station := ⟨7, by decide⟩
    let frame := requestFrame 7
      [0x17, 0x00, 0x00, 0x00, 0x02, 0x00, 0x01, 0x00, 0x01, 0x02, 0xAB, 0xCD]
    overFour.Distinct ∧
      let once := (overFour.execute station.engine frame).run fourSegments
      let twice := (overFour.execute station.engine frame).run once.2
      twice.1 = some (Crc.checked [0x07, 0x17, 0x04, 0x00, 0x00, 0xAB, 0xCD]) ∧
        twice.2.segments = once.2.segments := by
  intro station frame
  have hreply : ((overFour.execute station.engine frame).run fourSegments).1 =
      some (Crc.checked [0x07, 0x17, 0x04, 0x00, 0x00, 0xAB, 0xCD]) := by
    refine (execute_eq_process distinct_overFour station frame fourSegments).1.trans ?_
    decide +kernel
  obtain ⟨hsame, hsegments, -⟩ :=
    repeated_frame_changes_nothing station overFour fourSegments frame distinct_overFour
  exact ⟨distinct_overFour, hsame.trans hreply, hsegments⟩

end Store
end RtuStation
