import RtuStation.Proofs.Compounds

/-!
# The forms of replies

A reply is a frame of its own: 5 to 256 octets, the station's address, a function code and a valid
check. A normal reply has one of the forms of `Request.ReplyForm`, which tells its counts and its
length from the octets of the request; the reply to a request that is refused has the highest bit of
the function code set and one octet for the exception.
-/

namespace RtuStation

namespace Request

/-- The forms of a function code with its data in a normal reply, each beside the function code with
its data that it answers. -/
inductive ReplyForm : Octets → Octets → Prop where
  | bits {function a b c d size : UInt8} {packed : Octets}
    (reads : function = 0x01 ∨ function = 0x02) (told : size.toNat = ((word c d).toNat + 7) / 8)
    (counted : packed.length = size.toNat) :
    ReplyForm [function, a, b, c, d] (function :: size :: packed)
  | words {function a b c d size : UInt8} {rest payload : Octets}
    (reads : function = 0x03 ∨ function = 0x04 ∨ function = 0x17)
    (told : size.toNat = 2 * (word c d).toNat) (counted : payload.length = size.toNat) :
    ReplyForm (function :: a :: b :: c :: d :: rest) (function :: size :: payload)
  | identity {size : UInt8} {payload : Octets} (told : size.toNat = 22)
    (counted : payload.length = size.toNat) : ReplyForm [0x11] (0x11 :: size :: payload)
  | echo {function : UInt8} {data : Octets}
    (writes : function = 0x05 ∨ function = 0x06 ∨ function = 0x16) :
    ReplyForm (function :: data) (function :: data)
  | start {function a b c d : UInt8} {rest : Octets}
    (writes : function = 0x0F ∨ function = 0x10) :
    ReplyForm (function :: a :: b :: c :: d :: rest) [function, a, b, c, d]

theorem ofWord_word (high low : UInt8) : Octets.ofWord (word high low) = [high, low] := by
  rw [Octets.ofWord, highOctet_word, lowOctet_word]

section Reads

variable {function a b c d : UInt8} {start : Nat}

theorem replyForm_of_bits {bank : Bank .bit} {bits : List Bool}
    (reads : function = 0x01 ∨ function = 0x02)
    (h : bank.read? start (word c d).toNat = some bits) (most : (word c d).toNat ≤ 2000) :
    ReplyForm [function, a, b, c, d] (function :: counted (Octets.packBits bits)) := by
  have hlength : (Octets.packBits bits).length = ((word c d).toNat + 7) / 8 := by
    rw [Octets.length_packBits, Bank.length_read? h, Octets.ofBitCount]
  have hsize : Counted _ (Octets.packBits bits) := counted_ofNat (by omega)
  exact .bits reads (hsize.symm.trans hlength) hsize

theorem replyForm_of_words {bank : Bank .word} {words : List UInt16} {rest : Octets}
    (reads : function = 0x03 ∨ function = 0x04 ∨ function = 0x17)
    (h : bank.read? start (word c d).toNat = some words) (most : (word c d).toNat ≤ 125) :
    ReplyForm (function :: a :: b :: c :: d :: rest)
      (function :: counted (Octets.ofWords words)) := by
  have hlength : (Octets.ofWords words).length = 2 * (word c d).toNat := by
    rw [Octets.length_ofWords, Bank.length_read? h]
  have hsize : Counted _ (Octets.ofWords words) := counted_ofNat (by omega)
  exact .words reads (hsize.symm.trans hlength) hsize

end Reads

/-- The data of an answer have the form of a reply to the request. -/
theorem replyForm_of_perform? {pdu : Octets} {r : Request} (hf : Form pdu r) {unit : UInt8}
    {banks : Banks} {data : Octets} {change : Change}
    (h : r.perform? unit banks = some (data, change)) : ReplyForm pdu (pdu.headD 0 :: data) := by
  -- a reply to a read has the count that was asked for, an echo the octets that were sent
  cases hf with
  | readCoils pos most =>
    obtain ⟨bits, hbits, hr⟩ := Option.bind_eq_some_iff.mp h
    cases hr
    exact replyForm_of_bits (.inl rfl) hbits most
  | readDiscreteInputs pos most =>
    obtain ⟨bits, hbits, hr⟩ := Option.bind_eq_some_iff.mp h
    cases hr
    exact replyForm_of_bits (.inr rfl) hbits most
  | readHoldingRegisters pos most =>
    obtain ⟨words, hwords, hr⟩ := Option.bind_eq_some_iff.mp h
    cases hr
    exact replyForm_of_words (.inl rfl) hwords most
  | readInputRegisters pos most =>
    obtain ⟨words, hwords, hr⟩ := Option.bind_eq_some_iff.mp h
    cases hr
    exact replyForm_of_words (.inr (.inl rfl)) hwords most
  | coilOn | coilOff =>
    obtain ⟨_, -, hr⟩ := Option.bind_eq_some_iff.mp h
    cases hr
    rw [head, ofWord_word]
    exact .echo (.inl rfl)
  | writeRegister =>
    obtain ⟨_, -, hr⟩ := Option.bind_eq_some_iff.mp h
    cases hr
    rw [head, ofWord_word, ofWord_word]
    exact .echo (.inr (.inl rfl))
  | @writeCoils a b c d size payload =>
    obtain ⟨_, -, hr⟩ := Option.bind_eq_some_iff.mp h
    cases hr
    have hcount : countWord (Octets.unpackBits (word c d).toNat payload) = word c d := by
      rw [countWord, Octets.length_unpackBits, UInt16.ofNat_toNat]
    rw [head, hcount, ofWord_word, ofWord_word]
    exact .start (.inl rfl)
  | @writeRegisters a b c d size payload _ _ _ paired =>
    obtain ⟨_, -, hr⟩ := Option.bind_eq_some_iff.mp h
    cases hr
    have hcount : countWord (Octets.words payload) = word c d := by
      rw [countWord, Octets.length_words paired, UInt16.ofNat_toNat]
    rw [head, hcount, ofWord_word, ofWord_word]
    exact .start (.inr rfl)
  | reportServerId =>
    cases h
    exact .identity rfl rfl
  | maskWriteRegister =>
    obtain ⟨_, -, hrest⟩ := Option.bind_eq_some_iff.mp h
    obtain ⟨_, -, hr⟩ := Option.bind_eq_some_iff.mp hrest
    cases hr
    rw [head, ofWord_word, ofWord_word, ofWord_word]
    exact .echo (.inr (.inr rfl))
  | writeReadRegisters pos most =>
    obtain ⟨bank, -, hrest⟩ := Option.bind_eq_some_iff.mp h
    obtain ⟨words, hwords, hr⟩ := Option.bind_eq_some_iff.mp hrest
    cases hr
    exact replyForm_of_words (.inr (.inr rfl)) hwords most

theorem length_of_replyForm {pdu reply : Octets} {r : Request} (hf : Form pdu r)
    (h : ReplyForm pdu reply) : 2 ≤ reply.length ∧ reply.length ≤ 252 := by
  cases h with
  | bits reads told counted =>
    simp only [List.length_cons]
    rcases reads with rfl | rfl
    · cases hf
      omega
    · cases hf
      omega
  | words reads told counted =>
    simp only [List.length_cons]
    rcases reads with rfl | rfl | rfl
    · cases hf
      omega
    · cases hf
      omega
    · cases hf
      omega
  | identity told counted =>
    simp only [List.length_cons]
    omega
  | echo writes =>
    rcases writes with rfl | rfl | rfl
    · cases hf <;> simp
    · cases hf
      simp
    · cases hf
      simp
  | start => simp

end Request

namespace Station

variable {s : Station} {frame : Octets} {banks : Banks}

theorem testBit_marked (function : UInt8) : (function ||| 0x80).toNat.testBit 7 = true := by
  rw [UInt8.toNat_or, Nat.testBit_or]
  exact Bool.or_true _

theorem testBit_of_lt {function : UInt8} (h : function < 0x80) :
    function.toNat.testBit 7 = false :=
  Nat.testBit_lt_two_pow (UInt8.lt_iff_toNat_lt.mp h)

theorem functionOctet_checked (address function : UInt8) (data : Octets) :
    functionOctet (Crc.checked (address :: function :: data)) = function := by
  have hpdu : pdu (Crc.checked (address :: function :: data)) = function :: data :=
    pdu_requestFrame ..
  rw [functionOctet, hpdu]
  rfl

/-- Only frames to the station itself get a reply. -/
theorem own_of_sent {reply : Octets} (sent : (s.process frame banks).1 = some reply) :
    s.Hears frame ∧ frame.headD 0 = s.unit := by
  have hh : s.Hears frame := Decidable.byContradiction fun hdeaf => by
    rw [process_of_not_hears hdeaf] at sent
    cases sent
  refine ⟨hh, hh.2.2.resolve_right fun hall => ?_⟩
  cases (reply_of_broadcast hh hall).symm.trans sent

/-- Every reply is a frame of 5 to 256 octets from the station, with a valid check, to an undamaged
frame that was sent to the station itself. If the request was refused, the reply is the function
code with its highest bit set and a code from 1 to 3. Else the reply has the function code of the
request, and the form that belongs to it. -/
theorem replies_are_well_formed (s : Station) (frame : Octets) (banks : Banks) (reply : Octets)
    (sent : (s.process frame banks).1 = some reply) :
    let refused := ∃ e, Request.respond s.unit (pdu frame) banks = .error e
    (minFrame ≤ frame.length ∧ frame.headD 0 = s.unit ∧ Crc.intact frame = true) ∧
    (5 ≤ reply.length ∧ reply.length ≤ 256 ∧ reply.headD 0 = s.unit ∧ Crc.intact reply = true) ∧
    ((refused ∧ reply.length = 5 ∧
        ∃ code ∈ [1, 2, 3], pdu reply = [functionOctet frame ||| 0x80, code]) ∨
      (s.Accepts frame banks ∧ functionOctet reply = functionOctet frame ∧
        functionOctet frame < 0x80 ∧ Request.ReplyForm (pdu frame) (pdu reply))) ∧
    ((functionOctet reply).toNat.testBit 7 = true ↔ refused) := by
  intro refused
  obtain ⟨hh, hown⟩ := own_of_sent sent
  refine ⟨⟨hh.1, hown, hh.2.1⟩, ?_⟩
  cases hr : Request.respond s.unit (pdu frame) banks with
  | error e =>
    have hreply := reply_of_error hh hown hr
    rw [sent] at hreply
    cases hreply
    have hpdu : pdu (Crc.checked [s.unit, functionOctet frame ||| 0x80, e.code]) =
        [functionOctet frame ||| 0x80, e.code] := pdu_requestFrame ..
    have hcode : e.code ∈ [1, 2, 3] := by
      cases e <;> decide
    have hlength : (Crc.checked [s.unit, functionOctet frame ||| 0x80, e.code]).length = 5 := rfl
    refine ⟨⟨by omega, by omega, rfl, Crc.intact_checked _⟩,
      .inl ⟨⟨e, hr⟩, hlength, e.code, hcode, hpdu⟩, ?_⟩
    rw [functionOctet_checked]
    exact ⟨fun _ => ⟨e, hr⟩, fun _ => testBit_marked _⟩
  | ok result =>
    obtain ⟨r, data, change, hf, hperform, -, hreply⟩ := request_of_accepts ⟨hh, result, hr⟩
    have hsent : (s.answer frame banks).reply = some reply := sent
    rw [hsent, hown, if_neg s.unit_ne_broadcast] at hreply
    cases hreply
    have hform : Request.ReplyForm (pdu frame) (functionOctet frame :: data) :=
      Request.replyForm_of_perform? hf hperform
    have hpdu : pdu (Crc.checked (s.unit :: functionOctet frame :: data)) =
        functionOctet frame :: data := pdu_requestFrame ..
    have hlow := functionOctet_lt_of_ok hr
    have hlength := Request.length_of_replyForm hf hform
    simp only [List.length_cons] at hlength
    rw [← hpdu] at hform
    refine ⟨⟨?_, ?_, rfl, Crc.intact_checked _⟩,
      .inr ⟨⟨hh, result, hr⟩, functionOctet_checked .., hlow, hform⟩, ?_⟩
    · simp only [Crc.length_checked, List.length_cons]
      omega
    · simp only [Crc.length_checked, List.length_cons]
      omega
    · rw [functionOctet_checked, testBit_of_lt hlow]
      exact ⟨nofun, fun ⟨e, he⟩ => nomatch hr.symm.trans he⟩

/-- Station 7 returns registers 1 and 2 in a frame of nine octets. -/
theorem two_registers_returned :
    let s : Station := ⟨7, by decide⟩
    let frame := requestFrame 7 [0x03, 0x00, 0x01, 0x00, 0x02]
    let reply := Crc.checked [0x07, 0x03, 0x04, 0x00, 0x00, 0x00, 0x00]
    (s.process frame (Banks.zeros (PerBank.ofFn fun _ => 4))).1 = some reply ∧
      5 ≤ reply.length ∧ reply.length ≤ 256 ∧ Crc.intact reply = true ∧
      (functionOctet reply).toNat.testBit 7 = false := by
  intro s frame reply
  have sent : (s.process frame (Banks.zeros (PerBank.ofFn fun _ => 4))).1 = some reply := by
    decide +kernel
  have haccepts : s.Accepts frame (Banks.zeros (PerBank.ofFn fun _ => 4)) := by decide +kernel
  obtain ⟨-, result, hr⟩ := haccepts
  obtain ⟨-, ⟨hlow, hhigh, -, hintact⟩, -, hmarked⟩ := replies_are_well_formed s frame _ reply sent
  refine ⟨sent, hlow, hhigh, hintact, Bool.eq_false_iff.mpr fun h => ?_⟩
  obtain ⟨e, he⟩ := hmarked.mp h
  cases hr.symm.trans he

end Station
end RtuStation
