import RtuStation.Proofs.Bursts
import RtuStation.Proofs.Refusals

/-!
# Lengths that framing and reading agree on

The layouts of requests are told twice: framing tells from the start of a frame where the frame ends,
and reading takes the function code with its data apart. The two agree on every request that has one of
the forms (`stated_of_form`), so that no request that is carried out, or is refused for its addresses
alone, is cut in a wrong place. On any octets, what framing has once settled stays settled when more
octets follow (`ofRequest_append`).
-/

namespace RtuStation

/-! ### Forms of requests and lengths of frames -/

variable {pdu check : Octets} {r : Request}

/-- A request between an address and a check makes a frame that has the length it tells. -/
theorem stated_of_form (hf : Request.Form pdu r) (unit : UInt8) (hcheck : check.length = 2) :
    Stated (unit :: (pdu ++ check)) := by
  have hfixed {code : UInt8} (a b c d : UInt8) (hcode : code ∈ [0x01, 0x02, 0x03, 0x04, 0x05, 0x06]) :
      Stated (unit :: code :: ([a, b, c, d] ++ check)) :=
    .fixed hcode (by rw [List.length_append, hcheck]; rfl)
  have hcounted {code size : UInt8} {payload : Octets} (a b c d : UInt8)
      (hcode : code ∈ [0x0F, 0x10]) (hsize : Request.Counted size payload) :
      Stated (unit :: code :: ([a, b, c, d] ++ size :: (payload ++ check))) :=
    .counted hcode rfl (by rw [List.length_append, hcheck, hsize])
  cases hf with
  | readCoils | readDiscreteInputs | readHoldingRegisters | readInputRegisters =>
    exact hfixed _ _ _ _ (by decide)
  | coilOn | coilOff | writeRegister => exact hfixed _ _ _ _ (by decide)
  | writeCoils _ _ counted => exact hcounted _ _ _ _ (by decide) counted
  | writeRegisters _ _ counted => exact hcounted _ _ _ _ (by decide) counted
  | reportServerId => exact .reportServerId hcheck
  | @maskWriteRegister a b c d e f =>
    exact @Stated.maskWriteRegister unit ([a, b, c, d, e, f] ++ check)
      (by rw [List.length_append, hcheck]; rfl)
  | @writeReadRegisters a b c d e f g h size payload _ _ _ _ counted =>
    exact @Stated.writeReadRegisters unit size [a, b, c, d, e, f, g, h] (payload ++ check) rfl
      (by rw [List.length_append, hcheck, counted])

theorem length_le_of_form (hf : Request.Form pdu r) : pdu.length ≤ 252 := by
  cases hf with
  | writeCoils _ most _ packed =>
    simp only [List.length_cons, packed, Octets.ofBitCount]
    omega
  | writeRegisters _ most _ paired =>
    simp only [List.length_cons, paired]
    omega
  | writeReadRegisters _ _ _ most _ paired =>
    simp only [List.length_cons, paired]
    omega
  | _ => simp

/-- The engine finds one of the forms in what it does not refuse for its function or its values. -/
theorem form_of_respond {unit : UInt8} {banks : Banks}
    (hfunction : Request.respond unit pdu banks ≠ .error .illegalFunction)
    (hvalue : Request.respond unit pdu banks ≠ .error .illegalDataValue) :
    ∃ r, Request.Form pdu r := by
  have hverdict := Request.verdict_respond unit pdu banks
  cases hresult : Request.respond unit pdu banks with
  | ok result =>
    rw [hresult] at hverdict
    cases hverdict with
    | accepted formed => exact ⟨_, formed⟩
  | error e =>
    rw [hresult] at hverdict hfunction hvalue
    cases hverdict with
    | unknown => exact absurd rfl hfunction
    | malformed => exact absurd rfl hvalue
    | unreachable formed => exact ⟨_, formed⟩

namespace FrameLength

/-! ### What is settled stays settled -/

variable {start later : Octets} {n position fixed : Nat}

theorem counted_append (h : ∀ n, counted start position fixed ≠ .atLeast n) :
    counted (start ++ later) position fixed = counted start position fixed := by
  by_cases hlen : position < start.length
  · simp only [counted, List.getElem?_append_left hlen]
  · have hnone : start[position]? = none := List.getElem?_eq_none (Nat.le_of_not_lt hlen)
    exact absurd (by simp only [counted, hnone]) (h (position + 1))

/-- Framing that needs no more octets to tell the length of a frame, or that there is none, tells the
same when more octets have come. -/
theorem ofRequest_append (h : ∀ n, ofRequest start ≠ .atLeast n) :
    ofRequest (start ++ later) = ofRequest start := by
  match start, h with
  | [], h | [_], h => exact absurd rfl (h 2)
  | unit :: code :: rest, h =>
    have hcounted {position fixed : Nat} :=
      @counted_append (unit :: code :: rest) later position fixed
    simp only [ofRequest, List.cons_append] at h hcounted ⊢
    cases hcode : FunctionCode.ofOctet? code with
    | none => rfl
    | some function =>
      rw [hcode] at h
      cases function with
      | writeCoils | writeRegisters | writeReadRegisters => exact hcounted h
      | _ => rfl

theorem lt_of_ofRequest_eq_atLeast (h : ofRequest start = .atLeast n) : start.length < n := by
  rcases ofRequest_of_start (List.prefix_refl start) with
    hexact | ⟨hsilence, -⟩ | ⟨m, hmore, hlow, -⟩
  · cases h.symm.trans hexact
  · cases h.symm.trans hsilence
  · cases h.symm.trans hmore
    exact hlow

/-! ### Lengths that the payload is counted for -/

/-- The length that the count of its payload gives a request, for the functions that have one. -/
def announced? (start : Octets) : Option Nat :=
  match start with
  | _ :: function :: _ =>
    match FunctionCode.ofOctet? function with
    | some .writeCoils | some .writeRegisters => start[6]?.map (9 + ·.toNat)
    | some .writeReadRegisters => start[10]?.map (13 + ·.toNat)
    | _ => none
  | _ => none

theorem counted_of_map (h : start[position]?.map (fixed + ·.toNat) = some n) :
    counted start position fixed = .exactly (min n maxFrame) := by
  obtain ⟨count, hcount, rfl⟩ := Option.map_eq_some_iff.mp h
  simp only [counted, hcount]

/-- An announced length is bounded by that of the longest frame. -/
theorem ofRequest_of_announced (h : announced? start = some n) :
    ofRequest start = .exactly (min n maxFrame) := by
  match start, h with
  | unit :: code :: rest, h =>
    simp only [announced?, ofRequest] at h ⊢
    cases hcode : FunctionCode.ofOctet? code with
    | none =>
      rw [hcode] at h
      cases h
    | some function =>
      rw [hcode] at h
      cases function with
      | writeCoils | writeRegisters | writeReadRegisters => exact counted_of_map h
      | _ => cases h

/-! ### Agreement -/

/-- On a frame whose request is not refused for its function or its values, framing tells the length
of the frame, or asks for octets that the frame still has; and no count makes the frame longer than it
is, so that the bound on lengths never applies. On any octets framing asks for more than it has, and
what it has settled stays settled. -/
theorem framing_agrees_with_reading :
    (∀ (unit address : UInt8) (pdu check : Octets) (banks : Banks), check.length = 2 →
      Request.respond unit pdu banks ≠ .error .illegalFunction →
      Request.respond unit pdu banks ≠ .error .illegalDataValue →
      let frame := address :: (pdu ++ check)
      ∀ start, start <+: frame →
        (ofRequest start = .exactly frame.length ∨
          ∃ n, ofRequest start = .atLeast n ∧ start.length < n ∧ n ≤ frame.length) ∧
        ∀ n, announced? start = some n → n = frame.length ∧ n < maxFrame) ∧
    ∀ start later n,
      (ofRequest start = .atLeast n → start.length < n) ∧
      (ofRequest start = .exactly n → ofRequest (start ++ later) = .exactly n) ∧
      (ofRequest start = .untilSilence → ofRequest (start ++ later) = .untilSilence) := by
  refine ⟨fun unit address pdu check banks hcheck hfunction hvalue => ?_, fun start later n => ?_⟩
  · intro frame start hstart
    obtain ⟨r, hf⟩ := form_of_respond hfunction hvalue
    have hshort : frame.length < maxFrame := by
      have hpdu := length_le_of_form hf
      simp only [frame, List.length_cons, List.length_append, maxFrame]
      omega
    have hwhole : Whole frame := ⟨stated_of_form hf address hcheck, Nat.le_of_lt hshort⟩
    have hforetells := foretells_ofRequest hwhole hstart
    refine ⟨hforetells, fun n hn => ?_⟩
    have hexact := ofRequest_of_announced hn
    rcases hforetells with htold | ⟨m, hmore, -⟩
    · -- a bounded length would be that of the longest frame, and this one is shorter
      have hmin := FrameLength.exactly.inj (hexact.symm.trans htold)
      omega
    · cases hexact.symm.trans hmore
  · have hkeep (h : ∀ m, ofRequest start ≠ .atLeast m) :
        ofRequest (start ++ later) = ofRequest start := ofRequest_append h
    refine ⟨lt_of_ofRequest_eq_atLeast, fun h => ?_, fun h => ?_⟩
    · rw [hkeep (by rw [h]; exact nofun), h]
    · rw [hkeep (by rw [h]; exact nofun), h]

/-- Of a request that writes two registers and reads one, ten octets do not tell the length, and
eleven do. -/
theorem exchange_is_foretold :
    let pdu : Octets := [0x17, 0x00, 0x00, 0x00, 0x01, 0x00, 0x02, 0x00, 0x02, 0x04,
      0xAA, 0xBB, 0xCC, 0xDD]
    let banks := Banks.zeros (PerBank.ofFn fun _ => 4)
    let frame := requestFrame 0x07 pdu
    Request.respond 0x07 pdu banks ≠ .error .illegalFunction ∧
      Request.respond 0x07 pdu banks ≠ .error .illegalDataValue ∧
      (∃ n, ofRequest (frame.take 10) = .atLeast n ∧ 10 < n ∧ n ≤ frame.length) ∧
      announced? (frame.take 11) = some 17 ∧ 17 = frame.length := by
  intro pdu banks frame
  have hformed : Request.Form pdu _ :=
    .writeReadRegisters (by decide) (by decide) (by decide) (by decide) rfl rfl
  obtain ⟨done, hdone⟩ := (Request.verdict_respond 0x07 pdu banks).conditions.1.mpr
    ⟨⟨_, hformed⟩, by decide +kernel⟩
  have hfunction : Request.respond 0x07 pdu banks ≠ .error .illegalFunction := by
    rw [hdone]
    exact nofun
  have hvalue : Request.respond 0x07 pdu banks ≠ .error .illegalDataValue := by
    rw [hdone]
    exact nofun
  have hagree := framing_agrees_with_reading.1 0x07 0x07 pdu
    (Crc.trailer (Crc.crc16 (0x07 :: pdu))) banks rfl hfunction hvalue
  have hten := (hagree (frame.take 10) (List.take_prefix ..)).1
  have heleven := (hagree (frame.take 11) (List.take_prefix ..)).2
  have hopen : ofRequest (frame.take 10) ≠ .exactly frame.length := by decide +kernel
  have hannounced : announced? (frame.take 11) = some 17 := by decide +kernel
  exact ⟨hfunction, hvalue, hten.resolve_left hopen, hannounced, (heleven 17 hannounced).1⟩

end FrameLength
end RtuStation
