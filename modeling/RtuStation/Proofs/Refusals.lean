import RtuStation.Proofs.Extents

/-!
# Which requests are refused, and how

A request can be wrong in three ways: its function is not served, its octets have none of the forms
of requests, or it addresses elements that a bank does not have. The first that applies, in this
order, decides the exception; a request that is right in all three is carried out. `Verdict` says so
of the function code with its data, `replies_follow_grammar` of the frames on the bus.
-/

namespace RtuStation

namespace Extent

/-- The elements that a function code with its data reads and writes if it is carried out. -/
def addressed : Octets → List Extent
  | 0x01 :: a :: b :: c :: d :: _ => [⟨.coils, (word a b).toNat, (word c d).toNat⟩]
  | 0x02 :: a :: b :: c :: d :: _ => [⟨.discreteInputs, (word a b).toNat, (word c d).toNat⟩]
  | 0x03 :: a :: b :: c :: d :: _ => [⟨.holdingRegisters, (word a b).toNat, (word c d).toNat⟩]
  | 0x04 :: a :: b :: c :: d :: _ => [⟨.inputRegisters, (word a b).toNat, (word c d).toNat⟩]
  | 0x05 :: a :: b :: _ => [⟨.coils, (word a b).toNat, 1⟩]
  | 0x06 :: a :: b :: _ => [⟨.holdingRegisters, (word a b).toNat, 1⟩]
  | 0x0F :: a :: b :: c :: d :: _ => [⟨.coils, (word a b).toNat, (word c d).toNat⟩]
  | 0x10 :: a :: b :: c :: d :: _ => [⟨.holdingRegisters, (word a b).toNat, (word c d).toNat⟩]
  | 0x16 :: a :: b :: _ => [⟨.holdingRegisters, (word a b).toNat, 1⟩]
  | 0x17 :: a :: b :: c :: d :: e :: f :: g :: h :: _ =>
    [⟨.holdingRegisters, (word a b).toNat, (word c d).toNat⟩,
      ⟨.holdingRegisters, (word e f).toNat, (word g h).toNat⟩]
  | _ => []

/-- Whether the bank has all the elements. -/
def Inside (e : Extent) (banks : Banks) : Prop := e.start + e.count ≤ (banks.get e.bank).length

instance (e : Extent) (banks : Banks) : Decidable (e.Inside banks) :=
  inferInstanceAs (Decidable (_ ≤ _))

end Extent

namespace Request

/-- A request is carried out if and only if the banks have all the elements that it addresses. -/
theorem isSome_perform?_iff {pdu : Octets} {r : Request} (hf : Form pdu r) (unit : UInt8)
    (banks : Banks) :
    (r.perform? unit banks).isSome ↔ ∀ e ∈ Extent.addressed pdu, e.Inside banks := by
  -- what follows the access to a bank does not fail
  have hthen {α β : Type} (x : Option α) (f : α → β) :
      (x.bind fun a => some (f a)).isSome = x.isSome := by
    cases x <;> rfl
  cases hf with
  | readCoils | readDiscreteInputs | readHoldingRegisters | readInputRegisters =>
    simp only [Extent.addressed, List.forall_mem_singleton]
    exact (Bool.coe_iff_coe.mpr (hthen _ _)).trans (Bank.isSome_read? ..)
  | coilOn | coilOff | writeRegister =>
    simp only [Extent.addressed, List.forall_mem_singleton]
    refine (Bool.coe_iff_coe.mpr (hthen _ _)).trans ?_
    rw [Bank.set?_eq_write?]
    exact Bank.isSome_write? ..
  | @writeCoils a b c d size payload =>
    simp only [Extent.addressed, List.forall_mem_singleton]
    refine (Bool.coe_iff_coe.mpr (hthen _ _)).trans ((Bank.isSome_write? ..).trans ?_)
    rw [Octets.length_unpackBits]
    exact Iff.rfl
  | writeRegisters _ _ _ paired =>
    simp only [Extent.addressed, List.forall_mem_singleton]
    refine (Bool.coe_iff_coe.mpr (hthen _ _)).trans ((Bank.isSome_write? ..).trans ?_)
    rw [Octets.length_words paired]
    exact Iff.rfl
  | reportServerId => simp [perform?, Extent.addressed]
  | @maskWriteRegister a b c d e f =>
    simp only [Extent.addressed, List.forall_mem_singleton]
    by_cases ha : (word a b).toNat < banks.holdingRegisters.length
    · have hinside : Extent.Inside ⟨.holdingRegisters, (word a b).toNat, 1⟩ banks := ha
      simp [perform?, Bank.get?, Bank.set?, ha, hinside]
    · have houtside : ¬Extent.Inside ⟨.holdingRegisters, (word a b).toNat, 1⟩ banks := ha
      simp [perform?, Bank.get?, ha, houtside]
  | @writeReadRegisters a b c d e f g h size payload _ _ _ _ _ paired =>
    simp only [Extent.addressed, List.forall_mem_cons]
    constructor
    · intro hdone
      obtain ⟨_, hdone⟩ := Option.isSome_iff_exists.mp hdone
      obtain ⟨bank, hb, hrest⟩ := Option.bind_eq_some_iff.mp hdone
      obtain ⟨words, hread, -⟩ := Option.bind_eq_some_iff.mp hrest
      obtain ⟨hfit, hlength, -⟩ := Bank.write?_eq_some_iff.mp hb
      obtain ⟨hreach, -⟩ := Bank.read?_eq_some_iff.mp hread
      rw [Octets.length_words paired] at hfit
      rw [hlength] at hreach
      exact ⟨hreach, hfit, List.forall_mem_nil _⟩
    · rintro ⟨hreach, hfit, -⟩
      have hroom : (word e f).toNat + (Octets.words payload).length ≤
          banks.holdingRegisters.length := by
        rw [Octets.length_words paired]
        exact hfit
      obtain ⟨bank, hb⟩ := Option.isSome_iff_exists.mp
        ((Bank.isSome_write? banks.holdingRegisters _ _).mpr hroom)
      obtain ⟨-, hlength, -⟩ := Bank.write?_eq_some_iff.mp hb
      have hreach' : (word a b).toNat + (word c d).toNat ≤ bank.length := by
        rw [hlength]
        exact hreach
      obtain ⟨words, hread⟩ := Option.isSome_iff_exists.mp ((Bank.isSome_read? ..).mpr hreach')
      have hperform : (writeReadRegisters (word a b) (word c d) (word e f)
          (Octets.words payload)).perform? unit banks =
            some (counted (Octets.ofWords words), .holdingRegisters bank) :=
        Option.bind_eq_some_iff.mpr ⟨bank, hb, Option.bind_eq_some_iff.mpr ⟨words, hread, rfl⟩⟩
      rw [hperform]
      rfl

/-! ### Verdicts on a function code with its data -/

/-- What becomes of a function code with its data: each way to be refused has its condition, and
what meets none of them is carried out. -/
inductive Verdict (banks : Banks) (pdu : Octets) : Except Exception (Octets × Change) → Prop
  | unknown (h : ∀ function : FunctionCode, pdu.headD 0 ≠ function.octet) :
    Verdict banks pdu (.error .illegalFunction)
  | malformed {function : FunctionCode} (served : pdu.headD 0 = function.octet)
    (h : ∀ r, ¬Form pdu r) : Verdict banks pdu (.error .illegalDataValue)
  | unreachable {r : Request} (formed : Form pdu r)
    (h : ¬∀ e ∈ Extent.addressed pdu, e.Inside banks) :
    Verdict banks pdu (.error .illegalDataAddress)
  | accepted {r : Request} {result : Octets × Change} (formed : Form pdu r)
    (reached : ∀ e ∈ Extent.addressed pdu, e.Inside banks) : Verdict banks pdu (.ok result)

theorem verdict_of_decode_error {pdu : Octets} {e : Exception} (h : decode pdu = .error e)
    (banks : Banks) : Verdict banks pdu (.error e) := by
  have hunformed (r : Request) : ¬Form pdu r := by
    intro hf
    rw [decode_eq_ok_iff.mpr hf] at h
    cases h
  unfold decode at h
  split at h
  · cases h
    refine .unknown fun function => ?_
    cases function <;> decide
  · next code data =>
    split at h
    · next hnone =>
      cases h
      refine .unknown fun function heq => ?_
      have hcode : code = function.octet := heq
      rw [hcode, FunctionCode.ofOctet?_octet] at hnone
      cases hnone
    · next function hfunction =>
      split at h
      · cases h
        exact .malformed (FunctionCode.octet_of_ofOctet? hfunction).symm hunformed
      · cases h

theorem verdict_respond (unit : UInt8) (pdu : Octets) (banks : Banks) :
    Verdict banks pdu (respond unit pdu banks) := by
  unfold respond
  split
  · next hd => exact verdict_of_decode_error hd banks
  · next r hd =>
    have hf := decode_eq_ok_iff.mp hd
    have hreach := isSome_perform?_iff hf unit banks
    split
    · next hnone =>
      refine .unreachable hf fun h => ?_
      rw [hnone] at hreach
      cases hreach.mpr h
    · next hsome =>
      rw [hsome] at hreach
      exact .accepted hf (hreach.mp rfl)

theorem Verdict.conditions {banks : Banks} {pdu : Octets}
    {result : Except Exception (Octets × Change)} (h : Verdict banks pdu result) :
    ((∃ done, result = .ok done) ↔
      (∃ r, Form pdu r) ∧ ∀ e ∈ Extent.addressed pdu, e.Inside banks) ∧
    (result = .error .illegalFunction ↔ ∀ f : FunctionCode, pdu.headD 0 ≠ f.octet) ∧
    (result = .error .illegalDataValue ↔
      (∃ f : FunctionCode, pdu.headD 0 = f.octet) ∧ ¬∃ r, Form pdu r) ∧
    (result = .error .illegalDataAddress ↔
      (∃ r, Form pdu r) ∧ ¬∀ e ∈ Extent.addressed pdu, e.Inside banks) := by
  have hknown {r : Request} (hf : Form pdu r) : ¬∀ f : FunctionCode, pdu.headD 0 ≠ f.octet := by
    exact fun h => h r.function (headD_of_form hf)
  cases h with
  | unknown h =>
    have hunformed : ¬∃ r, Form pdu r := fun ⟨_, hf⟩ => hknown hf h
    exact ⟨⟨nofun, fun hc => absurd hc.1 hunformed⟩, ⟨fun _ => h, fun _ => rfl⟩,
      ⟨nofun, fun ⟨⟨f, hserved⟩, _⟩ => absurd hserved (h f)⟩,
      ⟨nofun, fun hc => absurd hc.1 hunformed⟩⟩
  | malformed served h =>
    have hunformed : ¬∃ r, Form pdu r := fun ⟨r, hf⟩ => h r hf
    exact ⟨⟨nofun, fun hc => absurd hc.1 hunformed⟩, ⟨nofun, fun hc => absurd served (hc _)⟩,
      ⟨fun _ => ⟨⟨_, served⟩, hunformed⟩, fun _ => rfl⟩, ⟨nofun, fun hc => absurd hc.1 hunformed⟩⟩
  | unreachable formed h =>
    exact ⟨⟨nofun, fun hc => absurd hc.2 h⟩, ⟨nofun, fun hc => absurd hc (hknown formed)⟩,
      ⟨nofun, fun hc => absurd ⟨_, formed⟩ hc.2⟩, ⟨fun _ => ⟨⟨_, formed⟩, h⟩, fun _ => rfl⟩⟩
  | accepted formed reached =>
    exact ⟨⟨fun _ => ⟨⟨_, formed⟩, reached⟩, fun _ => ⟨_, rfl⟩⟩,
      ⟨nofun, fun hc => absurd hc (hknown formed)⟩, ⟨nofun, fun hc => absurd ⟨_, formed⟩ hc.2⟩,
      ⟨nofun, fun hc => absurd reached hc.2⟩⟩

end Request

theorem Crc.checked_injective {a b : Octets} (h : checked a = checked b) : a = b := by
  rw [← body_checked a, h, body_checked]

theorem Exception.code_injective {e e' : Exception} (h : e.code = e'.code) : e = e' := by
  cases e <;> cases e' <;> first | rfl | cases h

theorem FunctionCode.octet_lt (f : FunctionCode) : f.octet < 0x80 := by
  cases f <;> decide

namespace Station

variable {s : Station} {frame : Octets} {banks : Banks}

theorem marked_ne {function : UInt8} (h : function < 0x80) : function ≠ function ||| 0x80 := by
  intro heq
  have hlt := UInt8.lt_iff_toNat_lt.mp h
  rw [heq, UInt8.toNat_or] at hlt
  exact absurd Nat.right_le_or (Nat.not_le.mpr hlt)

theorem functionOctet_lt_of_ok {unit : UInt8} {result : Octets × Change}
    (h : Request.respond unit (pdu frame) banks = .ok result) : functionOctet frame < 0x80 := by
  have hverdict := Request.verdict_respond unit (pdu frame) banks
  rw [h] at hverdict
  cases hverdict with
  | accepted formed _ =>
    have hfunction : functionOctet frame = _ := Request.headD_of_form formed
    rw [hfunction]
    exact FunctionCode.octet_lt _

theorem unit_ne_broadcast (s : Station) : s.unit ≠ broadcast := by
  intro heq
  have hvalid := s.valid.1
  rw [heq] at hvalid
  exact absurd hvalid (by decide)

theorem reply_of_ok {data : Octets} {change : Change} (h : s.Hears frame)
    (own : frame.headD 0 = s.unit)
    (hr : Request.respond s.unit (pdu frame) banks = .ok (data, change)) :
    (s.process frame banks).1 = some (Crc.checked (s.unit :: functionOctet frame :: data)) := by
  simp only [process, answer_of_hears h, hr, own, if_neg s.unit_ne_broadcast]

theorem reply_of_error {e : Exception} (h : s.Hears frame) (own : frame.headD 0 = s.unit)
    (hr : Request.respond s.unit (pdu frame) banks = .error e) :
    (s.process frame banks).1 =
      some (Crc.checked [s.unit, functionOctet frame ||| 0x80, e.code]) := by
  simp only [process, answer_of_hears h, hr, own, if_neg s.unit_ne_broadcast]

theorem refused_iff (h : s.Hears frame) (own : frame.headD 0 = s.unit) (e : Exception) :
    (s.process frame banks).1 =
        some (Crc.checked [s.unit, functionOctet frame ||| 0x80, e.code]) ↔
      Request.respond s.unit (pdu frame) banks = .error e := by
  refine ⟨fun hreply => ?_, reply_of_error h own⟩
  cases hr : Request.respond s.unit (pdu frame) banks with
  | error e' =>
    rw [reply_of_error h own hr] at hreply
    have hbody := Crc.checked_injective (Option.some.inj hreply)
    rw [Exception.code_injective (List.cons.inj (List.cons.inj (List.cons.inj hbody).2).2).1]
  | ok result =>
    obtain ⟨data, change⟩ := result
    rw [reply_of_ok h own hr] at hreply
    have hbody := Crc.checked_injective (Option.some.inj hreply)
    have hfunction := (List.cons.inj (List.cons.inj hbody).2).1
    exact absurd hfunction (marked_ne (functionOctet_lt_of_ok hr))

theorem answered_iff (h : s.Hears frame) (own : frame.headD 0 = s.unit) :
    (functionOctet frame < 0x80 ∧
        ∃ data, (s.process frame banks).1 =
          some (Crc.checked (s.unit :: functionOctet frame :: data))) ↔
      ∃ done, Request.respond s.unit (pdu frame) banks = .ok done := by
  cases hr : Request.respond s.unit (pdu frame) banks with
  | error e =>
    refine ⟨?_, nofun⟩
    rintro ⟨hfunction, data, hreply⟩
    rw [reply_of_error h own hr] at hreply
    have hbody := Crc.checked_injective (Option.some.inj hreply)
    exact absurd (List.cons.inj (List.cons.inj hbody).2).1.symm (marked_ne hfunction)
  | ok result =>
    obtain ⟨data, change⟩ := result
    exact ⟨fun _ => ⟨_, rfl⟩, fun _ => ⟨functionOctet_lt_of_ok hr, data, reply_of_ok h own hr⟩⟩

/-- An undamaged frame to the station itself gets a normal reply if and only if it has one of the
forms of requests and the banks have all the elements that it addresses. Else the reply names the
exception: the function, if stations do not serve it; a value, if the function is served and the
request has none of the forms; and an address, if the request is formed and reaches past a bank. -/
theorem replies_follow_grammar (s : Station) (frame : Octets) (banks : Banks)
    (long : minFrame ≤ frame.length) (intact : Crc.intact frame = true)
    (own : frame.headD 0 = s.unit) :
    let reply := (s.process frame banks).1
    let function := functionOctet frame
    let formed := ∃ r, Request.Form (pdu frame) r
    let reached := ∀ e ∈ Extent.addressed (pdu frame), e.Inside banks
    let refused (e : Exception) :=
      reply = some (Crc.checked [s.unit, function ||| 0x80, e.code])
    (function < 0x80 ∧ (∃ data, reply = some (Crc.checked (s.unit :: function :: data))) ↔
      formed ∧ reached) ∧
    (refused .illegalFunction ↔ ∀ f : FunctionCode, function ≠ f.octet) ∧
    (refused .illegalDataValue ↔ (∃ f : FunctionCode, function = f.octet) ∧ ¬formed) ∧
    (refused .illegalDataAddress ↔ formed ∧ ¬reached) := by
  intro reply function formed reached refused
  have hears : s.Hears frame := ⟨long, intact, .inl own⟩
  obtain ⟨haccepted, hunknown, hmalformed, hunreachable⟩ :=
    (Request.verdict_respond s.unit (pdu frame) banks).conditions
  exact ⟨(answered_iff hears own).trans haccepted, (refused_iff hears own _).trans hunknown,
    (refused_iff hears own _).trans hmalformed, (refused_iff hears own _).trans hunreachable⟩

/-- Of four holding registers, those from 1 to 4 are asked for: the last one is not there. -/
theorem register_four_is_refused :
    let s : Station := ⟨7, by decide⟩
    let frame := requestFrame 7 [0x03, 0x00, 0x01, 0x00, 0x04]
    let banks := Banks.zeros (PerBank.ofFn fun _ => 4)
    minFrame ≤ frame.length ∧ Crc.intact frame = true ∧ frame.headD 0 = s.unit ∧
      (s.process frame banks).1 = some (Crc.checked [0x07, 0x83, 0x02]) := by
  intro s frame banks
  have long : minFrame ≤ frame.length := by decide +kernel
  have intact : Crc.intact frame = true := Crc.intact_checked _
  have own : frame.headD 0 = s.unit := rfl
  have hpdu : pdu frame = [0x03, 0x00, 0x01, 0x00, 0x04] := by decide +kernel
  have hmarked : functionOctet frame ||| 0x80 = 0x83 := by decide +kernel
  have hreply := (replies_follow_grammar s frame banks long intact own).2.2.2.mpr ?_
  · dsimp only at hreply
    rw [hmarked] at hreply
    exact ⟨long, intact, own, hreply⟩
  · rw [hpdu]
    refine ⟨⟨_, .readHoldingRegisters (by decide) (by decide)⟩, fun h => ?_⟩
    have hinside := h _ (List.mem_singleton_self _)
    exact absurd hinside (by decide +kernel)

end Station
end RtuStation
