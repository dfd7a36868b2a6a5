import RtuStation.Station

/-!
# The grammar of requests

A function code with its data makes a request in one of eleven forms, written here octet by octet.
Reading accepts exactly these forms (`decode_eq_ok_iff`), so that later proofs take a request apart
by its form and never open the reader.
-/

namespace RtuStation
namespace Request

def Counted (size : UInt8) (payload : Octets) : Prop := payload.length = size.toNat

theorem counted_ofNat {payload : Octets} (h : payload.length < 256) :
    Counted (UInt8.ofNat payload.length) payload := by
  rw [Counted, UInt8.toNat_ofNat', Nat.mod_eq_of_lt h]

/-- The forms of a function code with its data, and the requests they make. -/
inductive Form : Octets → Request → Prop where
  | readCoils {a b c d : UInt8} (pos : 1 ≤ (word c d).toNat) (most : (word c d).toNat ≤ 2000) :
    Form [0x01, a, b, c, d] (.readCoils (word a b) (word c d))
  | readDiscreteInputs {a b c d : UInt8} (pos : 1 ≤ (word c d).toNat)
    (most : (word c d).toNat ≤ 2000) :
    Form [0x02, a, b, c, d] (.readDiscreteInputs (word a b) (word c d))
  | readHoldingRegisters {a b c d : UInt8} (pos : 1 ≤ (word c d).toNat)
    (most : (word c d).toNat ≤ 125) :
    Form [0x03, a, b, c, d] (.readHoldingRegisters (word a b) (word c d))
  | readInputRegisters {a b c d : UInt8} (pos : 1 ≤ (word c d).toNat)
    (most : (word c d).toNat ≤ 125) :
    Form [0x04, a, b, c, d] (.readInputRegisters (word a b) (word c d))
  | coilOn {a b : UInt8} : Form [0x05, a, b, 0xFF, 0x00] (.writeCoil (word a b) true)
  | coilOff {a b : UInt8} : Form [0x05, a, b, 0x00, 0x00] (.writeCoil (word a b) false)
  | writeRegister {a b c d : UInt8} :
    Form [0x06, a, b, c, d] (.writeRegister (word a b) (word c d))
  | writeCoils {a b c d size : UInt8} {payload : Octets} (pos : 1 ≤ (word c d).toNat)
    (most : (word c d).toNat ≤ 1968) (counted : Counted size payload)
    (packed : payload.length = Octets.ofBitCount (word c d).toNat) :
    Form (0x0F :: a :: b :: c :: d :: size :: payload)
      (.writeCoils (word a b) (Octets.unpackBits (word c d).toNat payload))
  | writeRegisters {a b c d size : UInt8} {payload : Octets} (pos : 1 ≤ (word c d).toNat)
    (most : (word c d).toNat ≤ 123) (counted : Counted size payload)
    (paired : payload.length = 2 * (word c d).toNat) :
    Form (0x10 :: a :: b :: c :: d :: size :: payload)
      (.writeRegisters (word a b) (Octets.words payload))
  | reportServerId : Form [0x11] .reportServerId
  | maskWriteRegister {a b c d e f : UInt8} :
    Form [0x16, a, b, c, d, e, f] (.maskWriteRegister (word a b) (word c d) (word e f))
  | writeReadRegisters {a b c d e f g h size : UInt8} {payload : Octets}
    (pos : 1 ≤ (word c d).toNat) (most : (word c d).toNat ≤ 125)
    (writePos : 1 ≤ (word g h).toNat) (writeMost : (word g h).toNat ≤ 121)
    (counted : Counted size payload) (paired : payload.length = 2 * (word g h).toNat) :
    Form (0x17 :: a :: b :: c :: d :: e :: f :: g :: h :: size :: payload)
      (.writeReadRegisters (word a b) (word c d) (word e f) (Octets.words payload))

theorem headD_of_form {pdu : Octets} {r : Request} (h : Form pdu r) :
    pdu.headD 0 = r.function.octet := by
  cases h <;> rfl

/-! ### Parts of a form -/

theorem range?_eq_some_iff {most : Nat} {data : Octets} {start count : UInt16} :
    range? most data = some (start, count) ↔
      ∃ a b c d, data = [a, b, c, d] ∧ start = word a b ∧ count = word c d ∧
        1 ≤ count.toNat ∧ count.toNat ≤ most := by
  constructor
  · intro h
    unfold range? at h
    split at h
    · rename_i a b c d
      dsimp only at h
      split at h
      · rename_i hc
        cases h
        exact ⟨a, b, c, d, rfl, rfl, rfl, hc⟩
      · cases h
    · cases h
  · rintro ⟨a, b, c, d, rfl, rfl, rfl, hc⟩
    simp [range?, hc]

theorem block?_eq_some_iff {data payload : Octets} {start count : UInt16} :
    block? data = some (start, count, payload) ↔
      ∃ a b c d size, data = a :: b :: c :: d :: size :: payload ∧ start = word a b ∧
        count = word c d ∧ Counted size payload := by
  constructor
  · intro h
    unfold block? at h
    split at h
    · rename_i a b c d size rest
      split at h
      · rename_i hsize
        cases h
        exact ⟨a, b, c, d, size, rfl, rfl, rfl, hsize⟩
      · cases h
    · cases h
  · rintro ⟨a, b, c, d, size, rfl, rfl, rfl, hsize⟩
    exact if_pos hsize

theorem wordBlock?_eq_some_iff {most : Nat} {data : Octets} {start : UInt16}
    {values : List UInt16} :
    wordBlock? most data = some (start, values) ↔
      ∃ a b c d size payload, data = a :: b :: c :: d :: size :: payload ∧ start = word a b ∧
        values = Octets.words payload ∧ 1 ≤ (word c d).toNat ∧ (word c d).toNat ≤ most ∧
        Counted size payload ∧ payload.length = 2 * (word c d).toNat := by
  constructor
  · intro h
    obtain ⟨⟨s, n, payload⟩, hb, hrest⟩ := Option.bind_eq_some_iff.mp h
    obtain ⟨a, b, c, d, size, rfl, rfl, rfl, hsize⟩ := block?_eq_some_iff.mp hb
    dsimp only at hrest
    split at hrest
    · rename_i hc
      cases hrest
      exact ⟨a, b, c, d, size, payload, rfl, rfl, rfl, hc.1, hc.2.1, hsize, hc.2.2⟩
    · cases hrest
  · rintro ⟨a, b, c, d, size, payload, rfl, rfl, rfl, hpos, hmost, hsize, hlen⟩
    have hb : block? (a :: b :: c :: d :: size :: payload) = some (word a b, word c d, payload) :=
      block?_eq_some_iff.mpr ⟨a, b, c, d, size, rfl, rfl, rfl, hsize⟩
    simp [wordBlock?, hb, hpos, hmost, hlen]

theorem bitBlock?_eq_some_iff {most : Nat} {data : Octets} {start : UInt16}
    {values : List Bool} :
    bitBlock? most data = some (start, values) ↔
      ∃ a b c d size payload, data = a :: b :: c :: d :: size :: payload ∧ start = word a b ∧
        values = Octets.unpackBits (word c d).toNat payload ∧ 1 ≤ (word c d).toNat ∧
        (word c d).toNat ≤ most ∧ Counted size payload ∧
        payload.length = Octets.ofBitCount (word c d).toNat := by
  constructor
  · intro h
    obtain ⟨⟨s, n, payload⟩, hb, hrest⟩ := Option.bind_eq_some_iff.mp h
    obtain ⟨a, b, c, d, size, rfl, rfl, rfl, hsize⟩ := block?_eq_some_iff.mp hb
    dsimp only at hrest
    split at hrest
    · rename_i hc
      cases hrest
      exact ⟨a, b, c, d, size, payload, rfl, rfl, rfl, hc.1, hc.2.1, hsize, hc.2.2⟩
    · cases hrest
  · rintro ⟨a, b, c, d, size, payload, rfl, rfl, rfl, hpos, hmost, hsize, hlen⟩
    have hb : block? (a :: b :: c :: d :: size :: payload) = some (word a b, word c d, payload) :=
      block?_eq_some_iff.mpr ⟨a, b, c, d, size, rfl, rfl, rfl, hsize⟩
    simp [bitBlock?, hb, hpos, hmost, hlen]

/-! ### Reading accepts the forms -/

theorem word_eq_iff {high low : UInt8} {w : UInt16} :
    word high low = w ↔ high = highOctet w ∧ low = lowOctet w := by
  constructor
  · rintro rfl
    exact ⟨(highOctet_word high low).symm, (lowOctet_word high low).symm⟩
  · rintro ⟨rfl, rfl⟩
    exact word_octets w

theorem form_of_ofData? {function : FunctionCode} {data : Octets} {r : Request}
    (h : ofData? function data = some r) : Form (function.octet :: data) r := by
  cases function with
  | readCoils =>
    obtain ⟨⟨start, count⟩, hr, rfl⟩ := Option.map_eq_some_iff.mp h
    obtain ⟨a, b, c, d, rfl, rfl, rfl, hpos, hmost⟩ := range?_eq_some_iff.mp hr
    exact .readCoils hpos hmost
  | readDiscreteInputs =>
    obtain ⟨⟨start, count⟩, hr, rfl⟩ := Option.map_eq_some_iff.mp h
    obtain ⟨a, b, c, d, rfl, rfl, rfl, hpos, hmost⟩ := range?_eq_some_iff.mp hr
    exact .readDiscreteInputs hpos hmost
  | readHoldingRegisters =>
    obtain ⟨⟨start, count⟩, hr, rfl⟩ := Option.map_eq_some_iff.mp h
    obtain ⟨a, b, c, d, rfl, rfl, rfl, hpos, hmost⟩ := range?_eq_some_iff.mp hr
    exact .readHoldingRegisters hpos hmost
  | readInputRegisters =>
    obtain ⟨⟨start, count⟩, hr, rfl⟩ := Option.map_eq_some_iff.mp h
    obtain ⟨a, b, c, d, rfl, rfl, rfl, hpos, hmost⟩ := range?_eq_some_iff.mp hr
    exact .readInputRegisters hpos hmost
  | writeCoil =>
    match data, h with
    | [a, b, c, d], h =>
      have h : (if word c d = 0xFF00 then some (writeCoil (word a b) true)
          else if word c d = 0 then some (writeCoil (word a b) false) else none) = some r := h
      split at h
      · rename_i hon
        cases h
        obtain ⟨rfl, rfl⟩ := word_eq_iff.mp hon
        exact .coilOn
      · split at h
        · rename_i hoff
          cases h
          obtain ⟨rfl, rfl⟩ := word_eq_iff.mp hoff
          exact .coilOff
        · cases h
  | writeRegister =>
    match data, h with
    | [a, b, c, d], h =>
      cases h
      exact .writeRegister
  | writeCoils =>
    obtain ⟨⟨start, values⟩, hb, rfl⟩ := Option.map_eq_some_iff.mp h
    obtain ⟨a, b, c, d, size, payload, rfl, rfl, rfl, hpos, hmost, hsize, hlen⟩ :=
      bitBlock?_eq_some_iff.mp hb
    exact .writeCoils hpos hmost hsize hlen
  | writeRegisters =>
    obtain ⟨⟨start, values⟩, hb, rfl⟩ := Option.map_eq_some_iff.mp h
    obtain ⟨a, b, c, d, size, payload, rfl, rfl, rfl, hpos, hmost, hsize, hlen⟩ :=
      wordBlock?_eq_some_iff.mp hb
    exact .writeRegisters hpos hmost hsize hlen
  | reportServerId =>
    match data, h with
    | [], h =>
      cases h
      exact .reportServerId
  | maskWriteRegister =>
    match data, h with
    | [a, b, c, d, e, f], h =>
      cases h
      exact .maskWriteRegister
  | writeReadRegisters =>
    match data, h with
    | a :: b :: c :: d :: rest, h =>
      obtain ⟨⟨readStart, readCount⟩, hr, hrest⟩ := Option.bind_eq_some_iff.mp h
      obtain ⟨⟨writeStart, values⟩, hw, hrest⟩ := Option.bind_eq_some_iff.mp hrest
      obtain ⟨a, b, c, d, hdata, rfl, rfl, hpos, hmost⟩ := range?_eq_some_iff.mp hr
      obtain ⟨e, f, g, i, size, payload, rfl, rfl, rfl, hwpos, hwmost, hsize, hlen⟩ :=
        wordBlock?_eq_some_iff.mp hw
      cases hdata
      cases hrest
      exact .writeReadRegisters hpos hmost hwpos hwmost hsize hlen

theorem form_of_decode {pdu : Octets} {r : Request} (h : decode pdu = .ok r) : Form pdu r := by
  unfold decode at h
  split at h
  · cases h
  · rename_i code data
    split at h
    · cases h
    · rename_i function hf
      split at h
      · cases h
      · rename_i request hd
        cases h
        rw [← FunctionCode.octet_of_ofOctet? hf]
        exact form_of_ofData? hd

theorem decode_of_ofData? (function : FunctionCode) {data : Octets} {r : Request}
    (h : ofData? function data = some r) : decode (function.octet :: data) = .ok r := by
  simp only [decode, FunctionCode.ofOctet?_octet, h]

theorem range?_of_bounds {most : Nat} {a b c d : UInt8} (pos : 1 ≤ (word c d).toNat)
    (hmost : (word c d).toNat ≤ most) : range? most [a, b, c, d] = some (word a b, word c d) :=
  range?_eq_some_iff.mpr ⟨a, b, c, d, rfl, rfl, rfl, pos, hmost⟩

theorem wordBlock?_of_bounds {most : Nat} {a b c d size : UInt8} {payload : Octets}
    (pos : 1 ≤ (word c d).toNat) (hmost : (word c d).toNat ≤ most)
    (counted : Counted size payload) (paired : payload.length = 2 * (word c d).toNat) :
    wordBlock? most (a :: b :: c :: d :: size :: payload) =
      some (word a b, Octets.words payload) :=
  wordBlock?_eq_some_iff.mpr ⟨a, b, c, d, size, payload, rfl, rfl, rfl, pos, hmost, counted, paired⟩

theorem bitBlock?_of_bounds {most : Nat} {a b c d size : UInt8} {payload : Octets}
    (pos : 1 ≤ (word c d).toNat) (hmost : (word c d).toNat ≤ most)
    (counted : Counted size payload)
    (packed : payload.length = Octets.ofBitCount (word c d).toNat) :
    bitBlock? most (a :: b :: c :: d :: size :: payload) =
      some (word a b, Octets.unpackBits (word c d).toNat payload) :=
  bitBlock?_eq_some_iff.mpr ⟨a, b, c, d, size, payload, rfl, rfl, rfl, pos, hmost, counted, packed⟩

theorem decode_of_form {pdu : Octets} {r : Request} (h : Form pdu r) : decode pdu = .ok r := by
  cases h with
  | readCoils pos most =>
    refine decode_of_ofData? .readCoils ?_
    exact Option.map_eq_some_iff.mpr ⟨_, range?_of_bounds pos most, rfl⟩
  | readDiscreteInputs pos most =>
    refine decode_of_ofData? .readDiscreteInputs ?_
    exact Option.map_eq_some_iff.mpr ⟨_, range?_of_bounds pos most, rfl⟩
  | readHoldingRegisters pos most =>
    refine decode_of_ofData? .readHoldingRegisters ?_
    exact Option.map_eq_some_iff.mpr ⟨_, range?_of_bounds pos most, rfl⟩
  | readInputRegisters pos most =>
    refine decode_of_ofData? .readInputRegisters ?_
    exact Option.map_eq_some_iff.mpr ⟨_, range?_of_bounds pos most, rfl⟩
  | coilOn => rfl
  | coilOff => rfl
  | writeRegister => rfl
  | writeCoils pos most counted packed =>
    refine decode_of_ofData? .writeCoils ?_
    exact Option.map_eq_some_iff.mpr ⟨_, bitBlock?_of_bounds pos most counted packed, rfl⟩
  | writeRegisters pos most counted paired =>
    refine decode_of_ofData? .writeRegisters ?_
    exact Option.map_eq_some_iff.mpr ⟨_, wordBlock?_of_bounds pos most counted paired, rfl⟩
  | reportServerId => rfl
  | maskWriteRegister => rfl
  | writeReadRegisters pos most writePos writeMost counted paired =>
    refine decode_of_ofData? .writeReadRegisters ?_
    refine Option.bind_eq_some_iff.mpr ⟨_, range?_of_bounds pos most, ?_⟩
    exact Option.bind_eq_some_iff.mpr
      ⟨_, wordBlock?_of_bounds writePos writeMost counted paired, rfl⟩

/-- Reading accepts the forms of requests and nothing else. -/
theorem decode_eq_ok_iff {pdu : Octets} {r : Request} : decode pdu = .ok r ↔ Form pdu r :=
  ⟨form_of_decode, decode_of_form⟩

end Request
end RtuStation
