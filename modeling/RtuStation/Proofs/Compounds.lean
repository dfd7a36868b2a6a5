import RtuStation.Proofs.History
import RtuStation.Proofs.Placements

/-!
# Compound requests

Some requests do at once what others do one after the other. A request that writes and reads is a
write followed by a read, a request that writes a range is a write of each of its elements
(`Station.OneByOne`). It is carried out if and only if each of its parts would be, and else does
nothing at all.
-/

namespace RtuStation

namespace Request

section Exchange

variable {a b c d e f g h size : UInt8} {payload : Octets}

theorem exchange_formed_iff :
    (∃ r, Form (0x17 :: a :: b :: c :: d :: e :: f :: g :: h :: size :: payload) r) ↔
      (word g h).toNat ≤ 121 ∧ (∃ r, Form (0x10 :: e :: f :: g :: h :: size :: payload) r) ∧
        ∃ r, Form [0x03, a, b, c, d] r := by
  constructor
  · rintro ⟨_, hf⟩
    cases hf with
    | writeReadRegisters pos most writePos writeMost counted paired =>
      exact ⟨writeMost, ⟨_, .writeRegisters writePos (by omega) counted paired⟩,
        ⟨_, .readHoldingRegisters pos most⟩⟩
  · rintro ⟨writeMost, ⟨_, hwrite⟩, ⟨_, hread⟩⟩
    cases hwrite with
    | writeRegisters writePos _ counted paired =>
      cases hread with
      | readHoldingRegisters pos most =>
        exact ⟨_, .writeReadRegisters pos most writePos writeMost counted paired⟩

end Exchange

/-- Writing and reading at once makes the change of the write and has the data of the read that
follows it. -/
theorem perform?_exchange {unit : UInt8} {banks : Banks} {readStart readCount writeStart : UInt16}
    {values : List UInt16} {data : Octets} {change : Change}
    (h : (writeReadRegisters readStart readCount writeStart values).perform? unit banks =
      some (data, change)) :
    (∃ head, (writeRegisters writeStart values).perform? unit banks = some (head, change)) ∧
      (readHoldingRegisters readStart readCount).perform? unit (banks.apply change) =
        some (data, .nothing) := by
  obtain ⟨bank, hb, hrest⟩ := Option.bind_eq_some_iff.mp h
  obtain ⟨words, hwords, hr⟩ := Option.bind_eq_some_iff.mp hrest
  cases hr
  exact ⟨⟨_, Option.bind_eq_some_iff.mpr ⟨bank, hb, rfl⟩⟩,
    Option.bind_eq_some_iff.mpr ⟨words, hwords, rfl⟩⟩

/-! ### Writes of one element and of a range -/

theorem form_writeCoil (a : UInt16) (on : Bool) :
    Form (0x05 :: (Octets.ofWord a ++ Octets.ofWord (coilWord on))) (.writeCoil a on) := by
  have hon := @Form.coilOn (highOctet a) (lowOctet a)
  have hoff := @Form.coilOff (highOctet a) (lowOctet a)
  rw [word_octets] at hon hoff
  cases on
  · exact hoff
  · exact hon

theorem form_writeRegister (a v : UInt16) :
    Form (0x06 :: (Octets.ofWord a ++ Octets.ofWord v)) (.writeRegister a v) := by
  have h := @Form.writeRegister (highOctet a) (lowOctet a) (highOctet v) (lowOctet v)
  rwa [word_octets, word_octets] at h

theorem form_writeCoils (start : UInt16) {count : UInt16} {payload : Octets}
    (pos : 1 ≤ count.toNat) (most : count.toNat ≤ 1968)
    (packed : payload.length = Octets.ofBitCount count.toNat) :
    Form (0x0F :: (Octets.ofWord start ++ Octets.ofWord count ++ counted payload))
      (.writeCoils start (Octets.unpackBits count.toNat payload)) := by
  rw [← word_octets count] at pos most packed
  have hsize : payload.length < 256 := by
    rw [packed, Octets.ofBitCount]
    omega
  have h := @Form.writeCoils (highOctet start) (lowOctet start) (highOctet count) (lowOctet count) _
    payload pos most (counted_ofNat hsize) packed
  rwa [word_octets, word_octets] at h

theorem form_writeRegisters (start : UInt16) {count : UInt16} {payload : Octets}
    (pos : 1 ≤ count.toNat) (most : count.toNat ≤ 123)
    (paired : payload.length = 2 * count.toNat) :
    Form (0x10 :: (Octets.ofWord start ++ Octets.ofWord count ++ counted payload))
      (.writeRegisters start (Octets.words payload)) := by
  rw [← word_octets count] at pos most paired
  have h := @Form.writeRegisters (highOctet start) (lowOctet start) (highOctet count)
    (lowOctet count) _ payload pos most (counted_ofNat (by omega)) paired
  rwa [word_octets] at h

end Request

theorem Octets.words_eq_map {payload : Octets} {n : Nat} (h : payload.length = 2 * n) :
    words payload = (List.range n).map (wordAt payload) := by
  apply List.ext_getElem?
  intro i
  by_cases hi : i < n
  · rw [getElem?_words (by omega), List.getElem?_map, List.getElem?_range hi]
    rfl
  · rw [List.getElem?_eq_none (by rw [length_words h]; omega),
      List.getElem?_eq_none (by rw [List.length_map, List.length_range]; omega)]

theorem Bank.storeAll_append (w : Width) (cells : Array UInt8) (i : Nat) (us vs : List w.Value) :
    storeAll w cells i (us ++ vs) = storeAll w (storeAll w cells i us) (i + us.length) vs := by
  induction us generalizing cells i with
  | nil => rfl
  | cons u us ih =>
    rw [List.cons_append, storeAll, storeAll, ih, List.length_cons, Nat.add_right_comm,
      Nat.add_assoc]

theorem Banks.stored_append (b : Banks) (k : BankKind) (i : Nat) (us vs : List k.width.Value) :
    b.stored (some ⟨k, i, us ++ vs⟩) =
      (b.stored (some ⟨k, i, us⟩)).stored (some ⟨k, i + us.length, vs⟩) := by
  simp only [stored, get_put_self, put_put_self, Bank.stored, Bank.storeAll_append]

namespace Station

variable {s : Station} {banks : Banks} {address : UInt8} {p q : Octets} {r : Request}

/-- A request is carried out if and only if it is sent to the station or to all, has one of the
forms, and the banks have all the elements that it addresses. -/
theorem accepts_requestFrame_iff :
    s.Accepts (requestFrame address p) banks ↔
      (address = s.unit ∨ address = broadcast) ∧ (∃ r, Request.Form p r) ∧
        ∀ e ∈ Extent.addressed p, e.Inside banks := by
  have hok := (Request.verdict_respond s.unit p banks).conditions.1
  rw [Accepts, pdu_requestFrame, hok]
  constructor
  · rintro ⟨hh, hf, hinside⟩
    exact ⟨hh.2.2, hf, hinside⟩
  · rintro ⟨haddress, ⟨r, hf⟩, hinside⟩
    exact ⟨(hears_requestFrame_iff hf).mpr haddress, ⟨r, hf⟩, hinside⟩

theorem accepts_requestFrame_of_form (hf : Request.Form p r) :
    s.Accepts (requestFrame address p) banks ↔
      (address = s.unit ∨ address = broadcast) ∧ ∀ e ∈ Extent.addressed p, e.Inside banks := by
  rw [accepts_requestFrame_iff]
  exact and_congr_right fun _ => and_iff_right ⟨r, hf⟩

/-- The reply to a request, if one is due to its sender. -/
def reply? (address function : UInt8) (data : Octets) : Option Octets :=
  if address = broadcast then none else some (Crc.checked (address :: function :: data))

theorem process_requestFrame (hf : Request.Form p r)
    (haddress : address = s.unit ∨ address = broadcast) {data : Octets} {change : Change}
    (hperform : r.perform? s.unit banks = some (data, change)) :
    s.process (requestFrame address p) banks =
      (reply? address r.function.octet data, banks.apply change) := by
  have hfunction : functionOctet (requestFrame address p) = r.function.octet := by
    rw [functionOctet, pdu_requestFrame, Request.headD_of_form hf]
  rw [process_of_perform? ((hears_requestFrame_iff hf).mpr haddress)
    (by rwa [pdu_requestFrame]) hperform, hfunction]
  rfl

theorem process_requestFrame_congr (hp : Request.Form p r) (hq : Request.Form q r) :
    s.process (requestFrame address p) banks = s.process (requestFrame address q) banks := by
  by_cases haddress : address = s.unit ∨ address = broadcast
  · have hhears := (hears_requestFrame_iff hp).mpr haddress
    have hhears' := (hears_requestFrame_iff hq).mpr haddress
    simp only [process, answer_of_hears hhears, answer_of_hears hhears', functionOctet,
      pdu_requestFrame, headD_requestFrame, Request.headD_of_form hp, Request.headD_of_form hq,
      Request.respond, Request.decode_eq_ok_iff.mpr hp, Request.decode_eq_ok_iff.mpr hq]
  · rw [process_of_not_hears (mt (hears_requestFrame_iff hp).mp haddress),
      process_of_not_hears (mt (hears_requestFrame_iff hq).mp haddress)]

/-! ### Writing and reading at once -/

/-- A request that writes holding registers and reads some is carried out if and only if it writes
121 at most, and both the request that writes the same and the one that reads the same would be. If
it is, it leaves what the write leaves and returns what the read returns after that. Else it writes
nothing. -/
theorem exchange_is_write_then_read (s : Station) (banks : Banks) (address : UInt8)
    (a b c d e f g h size : UInt8) (payload : Octets) :
    let part := e :: f :: g :: h :: size :: payload
    let exchange := requestFrame address (0x17 :: a :: b :: c :: d :: part)
    let write := requestFrame address (0x10 :: part)
    let read := requestFrame address [0x03, a, b, c, d]
    (s.Accepts exchange banks ↔
      (word g h).toNat ≤ 121 ∧ s.Accepts write banks ∧ s.Accepts read banks) ∧
    (s.Accepts exchange banks →
      (s.process exchange banks).2 = (s.process write banks).2 ∧
      ∃ data, (s.process exchange banks).1 = reply? address 0x17 data ∧
        (s.process read (s.process write banks).2).1 = reply? address 0x03 data) ∧
    (¬s.Accepts exchange banks → (s.process exchange banks).2 = banks) := by
  intro part exchange write read
  refine ⟨?_, fun haccepts => ?_, process_of_not_accepts⟩
  · have haddressed : Extent.addressed (0x17 :: a :: b :: c :: d :: part) =
        Extent.addressed [0x03, a, b, c, d] ++ Extent.addressed (0x10 :: part) := rfl
    simp only [exchange, write, read, accepts_requestFrame_iff, haddressed, List.forall_mem_append]
    constructor
    · rintro ⟨haddress, hf, hreads, hwrites⟩
      obtain ⟨hmost, hwrite, hread⟩ := Request.exchange_formed_iff.mp hf
      exact ⟨hmost, ⟨haddress, hwrite, hwrites⟩, ⟨haddress, hread, hreads⟩⟩
    · rintro ⟨hmost, ⟨haddress, hwrite, hwrites⟩, ⟨-, hread, hreads⟩⟩
      exact ⟨haddress, Request.exchange_formed_iff.mpr ⟨hmost, hwrite, hread⟩, hreads, hwrites⟩
  · have haddress : address = s.unit ∨ address = broadcast := haccepts.1.2.2
    obtain ⟨r, data, change, hpdu, hperform, -, -⟩ := request_of_accepts haccepts
    have hf : Request.Form (0x17 :: a :: b :: c :: d :: e :: f :: g :: h :: size :: payload) r := by
      rwa [pdu_requestFrame] at hpdu
    cases hf with
    | writeReadRegisters pos most writePos writeMost counted paired =>
      obtain ⟨⟨head, hwrite⟩, hread⟩ := Request.perform?_exchange hperform
      have hexchange := process_requestFrame
        (.writeReadRegisters pos most writePos writeMost counted paired) haddress hperform
      have hafter := process_requestFrame (.writeRegisters writePos (by omega) counted paired)
        haddress hwrite
      have hreply := process_requestFrame (.readHoldingRegisters pos most) haddress hread
      simp only [exchange, write, read, part, hexchange, hafter, hreply]
      exact ⟨trivial, data, rfl, rfl⟩

/-- Station 7 puts two words into registers 2 and 3 and reads registers 1 to 3. -/
theorem exchange_of_overlapping_ranges :
    let s : Station := ⟨7, by decide⟩
    let banks := Banks.zeros (PerBank.ofFn fun _ => 4)
    let part := [0x00, 0x02, 0x00, 0x02, 0x04, 0xAB, 0xCD, 0x00, 0x01]
    let exchange := requestFrame 7 (0x17 :: 0x00 :: 0x01 :: 0x00 :: 0x03 :: part)
    let write := requestFrame 7 (0x10 :: part)
    let read := requestFrame 7 [0x03, 0x00, 0x01, 0x00, 0x03]
    let data := [0x06, 0x00, 0x00, 0xAB, 0xCD, 0x00, 0x01]
    s.Accepts exchange banks ∧ (s.process exchange banks).2 = (s.process write banks).2 ∧
      (s.process exchange banks).1 = some (Crc.checked (0x07 :: 0x17 :: data)) ∧
      (s.process read (s.process write banks).2).1 =
        some (Crc.checked (0x07 :: 0x03 :: data)) := by
  intro s banks part exchange write read data
  have haccepts : s.Accepts exchange banks := by decide +kernel
  have hreply : (s.process exchange banks).1 = some (Crc.checked (0x07 :: 0x17 :: data)) := by
    decide +kernel
  obtain ⟨hbanks, data', hexchange, hread⟩ := (exchange_is_write_then_read s banks 7
    0x00 0x01 0x00 0x03 0x00 0x02 0x00 0x02 0x04 [0xAB, 0xCD, 0x00, 0x01]).2.1 haccepts
  have hsame : Crc.checked (0x07 :: 0x17 :: data) = Crc.checked (0x07 :: 0x17 :: data') :=
    Option.some.inj (hreply.symm.trans hexchange)
  cases Crc.checked_injective hsame
  exact ⟨haccepts, hbanks, hreply, hread⟩

/-! ### Writing a range -/

/-- A frame that writes one element. -/
def elementFrame (address function : UInt8) (a : Nat) (value : UInt16) : Octets :=
  requestFrame address
    (function :: (Octets.ofWord (UInt16.ofNat a) ++ Octets.ofWord value))

/-- A frame that writes a range of elements. -/
def rangeFrame (address function : UInt8) (start count : UInt16) (payload : Octets) : Octets :=
  requestFrame address
    (function :: (Octets.ofWord start ++ Octets.ofWord count ++ Request.counted payload))

/-- Whether a frame that writes `count` elements from `start` on is as good as single frames, one
for each element: it is carried out if and only if there are such addresses and each of the single
frames would be, it leaves what they leave, and else it leaves everything as it is. -/
structure OneByOne (s : Station) (banks : Banks) (whole : Octets) (start count : Nat)
    (single : Nat → Octets) : Prop where
  accepted : s.Accepts whole banks ↔
    ∀ i < count, start + i < 0x10000 ∧ s.Accepts (single i) banks
  same : s.Accepts whole banks →
    (s.process whole banks).2 = s.after banks ((List.range count).map single)
  refused : ¬s.Accepts whole banks → (s.process whole banks).2 = banks

/-- Whether a frame writes one element of a bank. -/
structure Puts (s : Station) (sent : Prop) (frame : Octets) (k : BankKind) (i : Nat)
    (v : k.width.Value) : Prop where
  accepted : ∀ b : Banks, s.Accepts frame b ↔ sent ∧ i < (b.get k).length
  placed : ∀ b : Banks, s.Accepts frame b → (s.process frame b).2 = b.stored (some ⟨k, i, [v]⟩)

theorem after_puts {sent : Prop} {k : BankKind} {start count : Nat} {value : Nat → k.width.Value}
    {single : Nat → Octets} (hsent : sent) (hfit : start + count ≤ (banks.get k).length)
    (hputs : ∀ i < count, s.Puts sent (single i) k (start + i) (value i)) :
    s.after banks ((List.range count).map single) =
      banks.stored (some ⟨k, start, (List.range count).map value⟩) := by
  -- on the count: the frames before the last one keep the lengths of the banks
  induction count with
  | zero => cases k <;> rfl
  | succ n ih =>
    have hbefore := ih (by omega) fun i hi => hputs i (by omega)
    have hput := hputs n (Nat.lt_succ_self n)
    have hlength := banks.alike_stored (some ⟨k, start, (List.range n).map value⟩) k
    have haccepts : s.Accepts (single n)
        (banks.stored (some ⟨k, start, (List.range n).map value⟩)) :=
      (hput.accepted _).mpr ⟨hsent, by rw [← hlength]; omega⟩
    rw [List.range_succ, List.map_append, List.map_append, after_append, hbefore,
      Banks.stored_append, List.length_map, List.length_range]
    exact hput.placed _ haccepts

theorem oneByOne_of_puts {sent : Prop} {k : BankKind} {whole : Octets} {start count : Nat}
    {value : Nat → k.width.Value} {single : Nat → Octets} (pos : 1 ≤ count)
    (hsize : (banks.get k).length ≤ maxBankSize)
    (haccepted : s.Accepts whole banks ↔ sent ∧ start + count ≤ (banks.get k).length)
    (hplaced : s.Accepts whole banks →
      (s.process whole banks).2 = banks.stored (some ⟨k, start, (List.range count).map value⟩))
    (hputs : ∀ i, start + i < 0x10000 → s.Puts sent (single i) k (start + i) (value i)) :
    s.OneByOne banks whole start count single where
  accepted := by
    simp only [maxBankSize] at hsize
    rw [haccepted]
    constructor
    · rintro ⟨hsent, hfit⟩ i hi
      have haddress : start + i < 0x10000 := by omega
      exact ⟨haddress, ((hputs i haddress).accepted banks).mpr ⟨hsent, by omega⟩⟩
    · intro h
      -- the last element decides
      obtain ⟨haddress, hlast⟩ := h (count - 1) (by omega)
      obtain ⟨hsent, hinside⟩ := ((hputs _ haddress).accepted banks).mp hlast
      exact ⟨hsent, by omega⟩
  same := fun h => by
    simp only [maxBankSize] at hsize
    obtain ⟨hsent, hfit⟩ := haccepted.mp h
    rw [hplaced h, after_puts hsent hfit fun i hi => hputs i (by omega)]
  refused := process_of_not_accepts

theorem process_of_accepts_form {p : Octets} {r : Request} (hf : Request.Form p r)
    (h : s.Accepts (requestFrame address p) banks) :
    (s.process (requestFrame address p) banks).2 =
      banks.stored (r.placement? banks.holdingRegister) := by
  obtain ⟨haddress, hinside⟩ := (accepts_requestFrame_of_form hf).mp h
  obtain ⟨⟨data, change⟩, hperform⟩ := Option.isSome_iff_exists.mp
    ((Request.isSome_perform?_iff hf s.unit banks).mpr hinside)
  rw [process_requestFrame hf haddress hperform, Request.apply_of_perform? hperform]

theorem toNat_ofNat_address {a : Nat} (h : a < 0x10000) : (UInt16.ofNat a).toNat = a := by
  rw [UInt16.toNat_ofNat', Nat.mod_eq_of_lt h]

/-- A request that addresses one element and places a value there. -/
theorem puts_of_form {p : Octets} {r : Request} (hf : Request.Form p r) {k : BankKind} {a : Nat}
    {v : k.width.Value} (haddressed : Extent.addressed p = [⟨k, a, 1⟩])
    (hplaced : ∀ held, r.placement? held = some ⟨k, a, [v]⟩) :
    s.Puts (address = s.unit ∨ address = broadcast) (requestFrame address p) k a v where
  accepted := fun b => by
    rw [accepts_requestFrame_of_form hf, haddressed, List.forall_mem_singleton]
    rfl
  placed := fun b haccepts => by
    rw [process_of_accepts_form hf haccepts, hplaced]

theorem puts_coil (s : Station) (address : UInt8) {a : Nat} (h : a < 0x10000) (on : Bool) :
    s.Puts (address = s.unit ∨ address = broadcast)
      (elementFrame address 0x05 a (Request.coilWord on)) .coils a on := by
  refine puts_of_form (Request.form_writeCoil _ on) ?_ fun held => ?_
  · simp only [Octets.ofWord, List.cons_append, List.nil_append, Extent.addressed, word_octets,
      toNat_ofNat_address h]
  · simp only [Request.placement?, Request.coilBlock?, toNat_ofNat_address h]
    rfl

theorem puts_register (s : Station) (address : UInt8) {a : Nat} (h : a < 0x10000) (v : UInt16) :
    s.Puts (address = s.unit ∨ address = broadcast)
      (elementFrame address 0x06 a v) .holdingRegisters a v := by
  refine puts_of_form (Request.form_writeRegister _ v) ?_ fun held => ?_
  · simp only [Octets.ofWord, List.cons_append, List.nil_append, Extent.addressed, word_octets,
      toNat_ofNat_address h]
  · simp only [Request.placement?, Request.coilBlock?, Request.registerBlock?,
      toNat_ofNat_address h]
    rfl

/-- A request that addresses a range and places its values there, beside single frames that put the
same values. -/
theorem oneByOne_of_form {p : Octets} {r : Request} (hf : Request.Form p r) {k : BankKind}
    {start count : Nat} {value : Nat → k.width.Value} {single : Nat → Octets} (pos : 1 ≤ count)
    (hsize : (banks.get k).length ≤ maxBankSize)
    (haddressed : Extent.addressed p = [⟨k, start, count⟩])
    (hplaced : ∀ held, r.placement? held = some ⟨k, start, (List.range count).map value⟩)
    (hputs : ∀ i, start + i < 0x10000 →
      s.Puts (address = s.unit ∨ address = broadcast) (single i) k (start + i) (value i)) :
    s.OneByOne banks (requestFrame address p) start count single := by
  refine oneByOne_of_puts pos hsize ?_ (fun h => ?_) hputs
  · rw [accepts_requestFrame_of_form hf, haddressed, List.forall_mem_singleton]
    rfl
  · rw [process_of_accepts_form hf h, hplaced]

/-- A request that writes a range of coils or of holding registers, with a count that is allowed and
as many values, is as good as a request for each of its elements. Places behind the last bit of the
values make no difference. -/
theorem range_write_is_single_writes (s : Station) (banks : Banks) (address : UInt8)
    (start count : UInt16) (payload : Octets) :
    (banks.coils.length ≤ maxBankSize → 1 ≤ count.toNat → count.toNat ≤ 1968 →
      payload.length = (count.toNat + 7) / 8 →
      s.OneByOne banks (rangeFrame address 0x0F start count payload) start.toNat count.toNat
        (fun i => elementFrame address 0x05 (start.toNat + i)
          (Request.coilWord (Octets.bitAt payload i))) ∧
      ∀ other : Octets, other.length = payload.length →
        (∀ i < count.toNat, Octets.bitAt other i = Octets.bitAt payload i) →
        s.process (rangeFrame address 0x0F start count other) banks =
          s.process (rangeFrame address 0x0F start count payload) banks) ∧
    (banks.holdingRegisters.length ≤ maxBankSize → 1 ≤ count.toNat → count.toNat ≤ 123 →
      payload.length = 2 * count.toNat →
      s.OneByOne banks (rangeFrame address 0x10 start count payload) start.toNat count.toNat
        (fun i => elementFrame address 0x06 (start.toNat + i) (Octets.wordAt payload i))) := by
  refine ⟨fun hsize pos most packed => ⟨?_, fun other hlength hbits => ?_⟩,
    fun hsize pos most paired => ?_⟩
  · have hf := Request.form_writeCoils start pos most packed
    refine oneByOne_of_form (k := .coils) hf pos hsize ?_ (fun _ => rfl) fun i hi =>
      puts_coil s address hi _
    simp only [Octets.ofWord, List.cons_append, List.nil_append, Extent.addressed, word_octets]
  · have hsame : Octets.unpackBits count.toNat other = Octets.unpackBits count.toNat payload :=
      List.map_congr_left fun i hi => hbits i (List.mem_range.mp hi)
    have hf := Request.form_writeCoils start pos most packed
    have hf' := Request.form_writeCoils start pos most (hlength.trans packed)
    rw [hsame] at hf'
    exact process_requestFrame_congr hf' hf
  · have hf := Request.form_writeRegisters start pos most paired
    rw [Octets.words_eq_map paired] at hf
    refine oneByOne_of_form (k := .holdingRegisters) hf pos hsize ?_ (fun _ => rfl) fun i hi =>
      puts_register s address hi _
    simp only [Octets.ofWord, List.cons_append, List.nil_append, Extent.addressed, word_octets]

/-- All stations are asked to put 1, 0, 1 into coils 1 to 3, and two words into registers 8, 9. -/
theorem three_coils_and_two_registers :
    let s : Station := ⟨7, by decide⟩
    let banks := Banks.zeros (PerBank.ofFn fun _ => 10)
    banks.coils.length ≤ maxBankSize ∧ banks.holdingRegisters.length ≤ maxBankSize ∧
      (s.process (rangeFrame 0 0x0F 1 3 [0xF5]) banks).2 =
        s.after banks [elementFrame 0 0x05 1 0xFF00, elementFrame 0 0x05 2 0x0000,
          elementFrame 0 0x05 3 0xFF00] ∧
      (s.process (rangeFrame 0 0x10 8 2 [0xAB, 0xCD, 0x00, 0x01]) banks).2 =
        s.after banks [elementFrame 0 0x06 8 0xABCD, elementFrame 0 0x06 9 0x0001] := by
  intro s banks
  have hcoils : banks.coils.length ≤ maxBankSize := by decide
  have hregisters : banks.holdingRegisters.length ≤ maxBankSize := by decide
  have hone := ((range_write_is_single_writes s banks 0 1 3 [0xF5]).1 hcoils (by decide) (by decide)
    (by decide)).1
  have htwo := (range_write_is_single_writes s banks 0 8 2 [0xAB, 0xCD, 0x00, 0x01]).2 hregisters
    (by decide) (by decide) (by decide)
  exact ⟨hcoils, hregisters, hone.same (by decide +kernel), htwo.same (by decide +kernel)⟩

end Station
end RtuStation
