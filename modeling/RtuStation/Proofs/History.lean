import RtuStation.Proofs.Answers
import RtuStation.Proofs.Payloads

/-!
# Reads find the last writes

A station seen from the bus is a memory of words and bits. `wordAfter` and `coilAfter` tell from the
octets of one request what it leaves in one element; the elements after a history of frames are
their fold over the requests that were carried out (`holdingRegister_after`, `coil_after`), and the
data of a reply are the elements asked for.
-/

namespace RtuStation
namespace Station

/-! ### One element after one request -/

/-- The word that a request leaves in holding register `a` where it finds `v`. -/
def wordAfter (a : Nat) (v : UInt16) : Octets → UInt16
  | 0x06 :: s :: t :: x :: y :: _ => if a = (word s t).toNat then word x y else v
  | 0x16 :: s :: t :: m :: n :: o :: p :: _ =>
    if a = (word s t).toNat then (v &&& word m n) ||| (word o p &&& ~~~word m n) else v
  | 0x10 :: s :: t :: c :: d :: _ :: payload =>
    if (word s t).toNat ≤ a ∧ a < (word s t).toNat + (word c d).toNat then
      Octets.wordAt payload (a - (word s t).toNat)
    else v
  | 0x17 :: _ :: _ :: _ :: _ :: s :: t :: c :: d :: _ :: payload =>
    if (word s t).toNat ≤ a ∧ a < (word s t).toNat + (word c d).toNat then
      Octets.wordAt payload (a - (word s t).toNat)
    else v
  | _ => v

/-- The state in which a request leaves coil `a` where it finds `on`. -/
def coilAfter (a : Nat) (on : Bool) : Octets → Bool
  | 0x05 :: s :: t :: x :: _ => if a = (word s t).toNat then x == 0xFF else on
  | 0x0F :: s :: t :: c :: d :: _ :: payload =>
    if (word s t).toNat ≤ a ∧ a < (word s t).toNat + (word c d).toNat then
      Octets.bitAt payload (a - (word s t).toNat)
    else on
  | _ => on

def blockAfter {α : Type} (block? : Option (Nat × List α)) (a : Nat) (held : α) : Option α :=
  match block? with
  | some (start, vs) => if start ≤ a ∧ a < start + vs.length then vs[a - start]? else some held
  | none => some held

theorem blockAfter_single {α : Type} (start a : Nat) (v held : α) :
    blockAfter (some (start, [v])) a held = some (if a = start then v else held) := by
  by_cases ha : a = start
  · subst ha
    simp [blockAfter]
  · have hout : ¬(start ≤ a ∧ a < start + [v].length) := by
      simp only [List.length_singleton]
      omega
    rw [blockAfter, if_neg hout, if_neg ha]

theorem blockAfter_words {start count : Nat} {payload : Octets} (h : payload.length = 2 * count)
    (a : Nat) (held : UInt16) :
    blockAfter (some (start, Octets.words payload)) a held =
      some (if start ≤ a ∧ a < start + count then Octets.wordAt payload (a - start) else held) := by
  simp only [blockAfter, Octets.length_words h]
  split
  · rename_i ha
    exact Octets.getElem?_words (by omega)
  · rfl

theorem blockAfter_bits (start count : Nat) (payload : Octets) (a : Nat) (held : Bool) :
    blockAfter (some (start, Octets.unpackBits count payload)) a held =
      some (if start ≤ a ∧ a < start + count then Octets.bitAt payload (a - start) else held) := by
  simp only [blockAfter, Octets.length_unpackBits]
  split
  · rename_i ha
    exact Octets.getElem?_unpackBits payload (by omega)
  · rfl

/-- What the octets of a request tell about a register is what its block puts there. -/
theorem wordAfter_of_form {pdu : Octets} {r : Request} (hf : Request.Form pdu r)
    (held : Nat → UInt16) (a : Nat) :
    some (wordAfter a (held a) pdu) = blockAfter (r.registerBlock? held) a (held a) := by
  cases hf with
  | writeRegister => exact (blockAfter_single ..).symm
  | maskWriteRegister =>
    simp only [Request.registerBlock?, blockAfter_single, wordAfter]
    split
    · rename_i ha
      rw [ha]
      rfl
    · rfl
  | writeRegisters _ _ _ paired => exact (blockAfter_words paired a (held a)).symm
  | writeReadRegisters _ _ _ _ _ paired => exact (blockAfter_words paired a (held a)).symm
  | _ => rfl

theorem coilAfter_of_form {pdu : Octets} {r : Request} (hf : Request.Form pdu r) (a : Nat)
    (on : Bool) : some (coilAfter a on pdu) = blockAfter r.coilBlock? a on := by
  cases hf with
  | coilOn | coilOff => exact (blockAfter_single ..).symm
  | writeCoils => exact (blockAfter_bits ..).symm
  | _ => rfl

/-! ### Elements after one frame -/

variable {s : Station} {frame : Octets} {banks : Banks}

theorem process_of_accepts (h : s.Accepts frame banks) (a : Nat) :
    (s.process frame banks).2.holdingRegister a =
        wordAfter a (banks.holdingRegister a) (pdu frame) ∧
      (s.process frame banks).2.coil a = coilAfter a (banks.coil a) (pdu frame) ∧
      (s.process frame banks).2.discreteInputs = banks.discreteInputs ∧
      (s.process frame banks).2.inputRegisters = banks.inputRegisters := by
  obtain ⟨r, data, change, hform, hperform, hchange, -⟩ := request_of_accepts h
  have hword := wordAfter_of_form hform banks.holdingRegister a
  have hcoil := coilAfter_of_form hform a (banks.coil a)
  simp only [process, hchange]
  rcases Request.change_of_perform? hperform with
    ⟨rfl, hc, hr⟩ | ⟨start, vs, bank, rfl, hc, hr, hb⟩ | ⟨start, vs, bank, rfl, hc, hr, hb⟩
  · rw [hr] at hword
    rw [hc] at hcoil
    exact ⟨(Option.some.inj hword).symm, (Option.some.inj hcoil).symm, rfl, rfl⟩
  · rw [hr] at hword
    rw [hc] at hcoil
    exact ⟨(Option.some.inj hword).symm,
      Option.some.inj ((Bank.load_write? hb a).trans hcoil.symm), rfl, rfl⟩
  · rw [hr] at hword
    rw [hc] at hcoil
    exact ⟨Option.some.inj ((Bank.load_write? hb a).trans hword.symm),
      (Option.some.inj hcoil).symm, rfl, rfl⟩

theorem process_of_not_accepts (h : ¬s.Accepts frame banks) :
    (s.process frame banks).2 = banks := by
  simp only [process, change_of_not_accepts h]
  rfl

/-! ### Elements after a history of frames -/

def after (s : Station) (banks : Banks) : List Octets → Banks
  | [] => banks
  | frame :: later => s.after (s.process frame banks).2 later

/-- The function codes with their data that were carried out among frames, in their order. -/
def carriedOut (s : Station) (banks : Banks) : List Octets → List Octets
  | [] => []
  | frame :: later =>
    if s.Accepts frame banks then pdu frame :: s.carriedOut (s.process frame banks).2 later
    else s.carriedOut (s.process frame banks).2 later

theorem after_append (s : Station) (banks : Banks) (frames more : List Octets) :
    s.after banks (frames ++ more) = s.after (s.after banks frames) more := by
  induction frames generalizing banks with
  | nil => rfl
  | cons frame later ih => exact ih _

/-- What is seen of the banks after a history, if a request that is carried out takes what is seen
before it to what is seen after it. -/
theorem seen_after {α : Type} (view : Banks → α) (step : α → Octets → α) (s : Station)
    (hstep : ∀ frame banks, s.Accepts frame banks →
      view (s.process frame banks).2 = step (view banks) (pdu frame))
    (banks : Banks) (frames : List Octets) :
    view (s.after banks frames) = (s.carriedOut banks frames).foldl step (view banks) := by
  induction frames generalizing banks with
  | nil => rfl
  | cons frame later ih =>
    rw [after, ih, carriedOut]
    by_cases h : s.Accepts frame banks
    · rw [if_pos h, List.foldl_cons, hstep frame banks h]
    · rw [if_neg h, process_of_not_accepts h]

/-- A holding register after a history: the requests carried out, applied to its word in order. -/
theorem holdingRegister_after (s : Station) (banks : Banks) (frames : List Octets) (a : Nat) :
    (s.after banks frames).holdingRegister a =
      (s.carriedOut banks frames).foldl (wordAfter a) (banks.holdingRegister a) :=
  seen_after (·.holdingRegister a) (wordAfter a) s (fun _ _ h => (process_of_accepts h a).1) banks
    frames

theorem coil_after (s : Station) (banks : Banks) (frames : List Octets) (a : Nat) :
    (s.after banks frames).coil a =
      (s.carriedOut banks frames).foldl (coilAfter a) (banks.coil a) :=
  seen_after (·.coil a) (coilAfter a) s (fun _ _ h => (process_of_accepts h a).2.1) banks frames

theorem inputs_after (s : Station) (banks : Banks) (frames : List Octets) :
    (s.after banks frames).discreteInputs = banks.discreteInputs ∧
      (s.after banks frames).inputRegisters = banks.inputRegisters := by
  induction frames generalizing banks with
  | nil => exact ⟨rfl, rfl⟩
  | cons frame later ih =>
    by_cases h : s.Accepts frame banks
    · obtain ⟨hdiscrete, hinput⟩ := ih (s.process frame banks).2
      exact ⟨hdiscrete.trans (process_of_accepts h 0).2.2.1,
        hinput.trans (process_of_accepts h 0).2.2.2⟩
    · rw [after, process_of_not_accepts h]
      exact ih banks

/-! ### Replies -/

def payload (reply : Octets) : Octets := (Crc.body reply).drop 3

theorem accepts_of_normal {reply : Octets} (sent : (s.process frame banks).1 = some reply)
    (normal : ∀ function ∈ reply[1]?, function < 0x80) :
    s.Accepts frame banks ∧ ∃ r data change, Request.Form (pdu frame) r ∧
      r.perform? s.unit banks = some (data, change) ∧
      (s.process frame banks).2 = banks.apply change ∧ payload reply = data.drop 1 := by
  have hsent : (s.answer frame banks).reply = some reply := sent
  by_cases ha : s.Accepts frame banks
  · obtain ⟨r, data, change, hform, hperform, hchange, hreply⟩ := request_of_accepts ha
    refine ⟨ha, r, data, change, hform, hperform, by simp only [process, hchange], ?_⟩
    rw [hreply] at hsent
    split at hsent
    · cases hsent
    · cases hsent
      rw [payload, Crc.body_checked]
      rfl
  · exfalso
    by_cases hh : s.Hears frame
    · cases hr : Request.respond s.unit (pdu frame) banks with
      | ok result => exact ha ⟨hh, result, hr⟩
      | error e =>
        rw [answer_of_hears hh, hr] at hsent
        dsimp only at hsent
        split at hsent
        · cases hsent
        · cases hsent
          -- the function code of an exception has its highest bit set
          have hmark : functionOctet frame ||| 0x80 < 0x80 := normal _ rfl
          have hge : 0x80 ≤ (functionOctet frame).toNat ||| 0x80 := Nat.right_le_or
          have hlt := UInt8.lt_iff_toNat_lt.mp hmark
          rw [UInt8.toNat_or] at hlt
          exact absurd hge (Nat.not_le.mpr hlt)
    · rw [(answer_of_not_hears hh).1] at hsent
      cases hsent

theorem wordAt_read {b : Bank .word} {start count : Nat} {vs : List UInt16}
    (h : b.read? start count = some vs) :
    (Octets.ofWords vs).length = 2 * count ∧
      ∀ i < count, Octets.wordAt (Octets.ofWords vs) i = Bank.load .word b.cells (start + i) := by
  have hlen := Bank.length_read? h
  obtain ⟨-, hvs⟩ := Bank.read?_eq_some_iff.mp h
  refine ⟨by rw [Octets.length_ofWords, hlen], fun i hi => Option.some.inj ?_⟩
  rw [Octets.wordAt_ofWords (by omega), hvs]
  simp [hi]

theorem bitAt_read {b : Bank .bit} {start count : Nat} {vs : List Bool}
    (h : b.read? start count = some vs) :
    (Octets.packBits vs).length = Octets.ofBitCount count ∧
      (∀ i < count, Octets.bitAt (Octets.packBits vs) i = Bank.load .bit b.cells (start + i)) ∧
      ∀ i, count ≤ i → Octets.bitAt (Octets.packBits vs) i = false := by
  have hlen := Bank.length_read? h
  obtain ⟨-, hvs⟩ := Bank.read?_eq_some_iff.mp h
  refine ⟨by rw [Octets.length_packBits, hlen], fun i hi => ?_, fun i hi => ?_⟩
  · rw [Octets.bitAt_packBits, hvs]
    simp [List.getD_eq_getElem?_getD, hi]
  · rw [Octets.bitAt_packBits, List.getD_eq_getElem?_getD, List.getElem?_eq_none (by omega)]
    rfl

/-- A request for holding registers is answered with them as they are after it. -/
theorem read_holdingRegisters {pdu : Octets} {r : Request} (hf : Request.Form pdu r)
    {a b c d : UInt8}
    (hp : pdu = [0x03, a, b, c, d] ∨ ∃ rest, pdu = 0x17 :: a :: b :: c :: d :: rest)
    {unit : UInt8} {data : Octets} {change : Change}
    (h : r.perform? unit banks = some (data, change)) :
    ∃ vs, (banks.apply change).holdingRegisters.read? (word a b).toNat (word c d).toNat = some vs ∧
      data.drop 1 = Octets.ofWords vs := by
  cases hf with
  | readHoldingRegisters =>
    obtain ⟨vs, hvs, hr⟩ := Option.bind_eq_some_iff.mp h
    cases hr
    rcases hp with hp | ⟨rest, hp⟩
    · cases hp
      exact ⟨vs, hvs, rfl⟩
    · simp at hp
  | writeReadRegisters =>
    obtain ⟨bank, -, hrest⟩ := Option.bind_eq_some_iff.mp h
    obtain ⟨vs, hvs, hr⟩ := Option.bind_eq_some_iff.mp hrest
    cases hr
    rcases hp with hp | ⟨rest, hp⟩
    · simp at hp
    · cases hp
      exact ⟨vs, hvs, rfl⟩
  | _ => simp at hp

theorem read_inputRegisters {a b c d : UInt8} {r : Request}
    (hf : Request.Form [0x04, a, b, c, d] r) {unit : UInt8} {data : Octets} {change : Change}
    (h : r.perform? unit banks = some (data, change)) :
    ∃ vs, banks.inputRegisters.read? (word a b).toNat (word c d).toNat = some vs ∧
      data.drop 1 = Octets.ofWords vs := by
  generalize hp : [0x04, a, b, c, d] = pdu at hf
  cases hf with
  | readInputRegisters =>
    obtain ⟨vs, hvs, hr⟩ := Option.bind_eq_some_iff.mp h
    cases hr
    cases hp
    exact ⟨vs, hvs, rfl⟩
  | _ => simp at hp

theorem read_coils {a b c d : UInt8} {r : Request} (hf : Request.Form [0x01, a, b, c, d] r)
    {unit : UInt8} {data : Octets} {change : Change}
    (h : r.perform? unit banks = some (data, change)) :
    ∃ vs, (banks.apply change).coils.read? (word a b).toNat (word c d).toNat = some vs ∧
      data.drop 1 = Octets.packBits vs := by
  generalize hp : [0x01, a, b, c, d] = pdu at hf
  cases hf with
  | readCoils =>
    obtain ⟨vs, hvs, hr⟩ := Option.bind_eq_some_iff.mp h
    cases hr
    cases hp
    exact ⟨vs, hvs, rfl⟩
  | _ => simp at hp

theorem read_discreteInputs {a b c d : UInt8} {r : Request}
    (hf : Request.Form [0x02, a, b, c, d] r) {unit : UInt8} {data : Octets} {change : Change}
    (h : r.perform? unit banks = some (data, change)) :
    ∃ vs, banks.discreteInputs.read? (word a b).toNat (word c d).toNat = some vs ∧
      data.drop 1 = Octets.packBits vs := by
  generalize hp : [0x02, a, b, c, d] = pdu at hf
  cases hf with
  | readDiscreteInputs =>
    obtain ⟨vs, hvs, hr⟩ := Option.bind_eq_some_iff.mp h
    cases hr
    cases hp
    exact ⟨vs, hvs, rfl⟩
  | _ => simp at hp

/-- What a normal reply to a read tells after a history of frames. Each holding register and coil
is what the requests carried out so far, the read itself included, made of its first value; inputs
keep their first values. Words are sent high octet first, bit `i` stands in place `i % 8` of octet
`i / 8`, and the places behind the last bit are zero. -/
theorem reads_find_last_writes (s : Station) (banks : Banks) (frames : List Octets)
    (request reply : Octets)
    (sent : (s.process request (s.after banks frames)).1 = some reply)
    (normal : ∀ function ∈ reply[1]?, function < 0x80) :
    let done := s.carriedOut banks (frames ++ [request])
    let data := payload reply
    (∀ a b c d, (pdu request = [0x03, a, b, c, d] ∨
        ∃ rest, pdu request = 0x17 :: a :: b :: c :: d :: rest) →
      data.length = 2 * (word c d).toNat ∧
      ∀ i < (word c d).toNat, word (data.getD (2 * i) 0) (data.getD (2 * i + 1) 0) =
        done.foldl (wordAfter ((word a b).toNat + i))
          (banks.holdingRegister ((word a b).toNat + i))) ∧
    (∀ a b c d, pdu request = [0x01, a, b, c, d] →
      data.length = ((word c d).toNat + 7) / 8 ∧
      (∀ i < (word c d).toNat, (data.getD (i / 8) 0).toNat.testBit (i % 8) =
        done.foldl (coilAfter ((word a b).toNat + i)) (banks.coil ((word a b).toNat + i))) ∧
      ∀ i, (word c d).toNat ≤ i → (data.getD (i / 8) 0).toNat.testBit (i % 8) = false) ∧
    (∀ a b c d, pdu request = [0x02, a, b, c, d] →
      data.length = ((word c d).toNat + 7) / 8 ∧
      (∀ i < (word c d).toNat, (data.getD (i / 8) 0).toNat.testBit (i % 8) =
        banks.discreteInput ((word a b).toNat + i)) ∧
      ∀ i, (word c d).toNat ≤ i → (data.getD (i / 8) 0).toNat.testBit (i % 8) = false) ∧
    (∀ a b c d, pdu request = [0x04, a, b, c, d] →
      data.length = 2 * (word c d).toNat ∧
      ∀ i < (word c d).toNat, word (data.getD (2 * i) 0) (data.getD (2 * i + 1) 0) =
        banks.inputRegister ((word a b).toNat + i)) := by
  intro done data
  obtain ⟨-, r, body, change, hform, hperform, hbanks, hpayload⟩ := accepts_of_normal sent normal
  -- A request that writes and reads reads what it has written: the read counts among the frames.
  have hlast : s.after banks (frames ++ [request]) = (s.after banks frames).apply change :=
    (after_append s banks frames [request]).trans hbanks
  obtain ⟨hdiscrete, hinput⟩ := inputs_after s banks frames
  refine ⟨?_, ?_, ?_, ?_⟩
  · intro a b c d hp
    obtain ⟨vs, hread, hdata⟩ := read_holdingRegisters hform hp hperform
    obtain ⟨hlen, hwords⟩ := wordAt_read hread
    rw [← hlast] at hwords
    have hdata' : data = Octets.ofWords vs := hpayload.trans hdata
    refine ⟨by rw [hdata', hlen], fun i hi => ?_⟩
    rw [hdata']
    exact (hwords i hi).trans (holdingRegister_after s banks _ _)
  · intro a b c d hp
    rw [hp] at hform
    obtain ⟨vs, hread, hdata⟩ := read_coils hform hperform
    obtain ⟨hlen, hbits, hrest⟩ := bitAt_read hread
    rw [← hlast] at hbits
    have hdata' : data = Octets.packBits vs := hpayload.trans hdata
    rw [hdata']
    exact ⟨hlen, fun i hi => (hbits i hi).trans (coil_after s banks _ _), hrest⟩
  · intro a b c d hp
    rw [hp] at hform
    obtain ⟨vs, hread, hdata⟩ := read_discreteInputs hform hperform
    rw [hdiscrete] at hread
    have hdata' : data = Octets.packBits vs := hpayload.trans hdata
    rw [hdata']
    exact bitAt_read hread
  · intro a b c d hp
    rw [hp] at hform
    obtain ⟨vs, hread, hdata⟩ := read_inputRegisters hform hperform
    rw [hinput] at hread
    have hdata' : data = Octets.ofWords vs := hpayload.trans hdata
    rw [hdata']
    exact wordAt_read hread

/-- Register 1 is written for all stations, then for station 9, then under a mask for station 7,
which next reads registers 0 to 2 while writing register 2. -/
theorem station_seven_reads_last_writes :
    let s : Station := ⟨7, by decide⟩
    let banks := Banks.zeros (PerBank.ofFn fun _ => 4)
    let frames := [requestFrame 0 [0x06, 0x00, 0x01, 0x12, 0x34],
      requestFrame 9 [0x06, 0x00, 0x01, 0xFF, 0xFF],
      requestFrame 7 [0x16, 0x00, 0x01, 0xFF, 0x00, 0x00, 0x56]]
    let request := requestFrame 7
      [0x17, 0x00, 0x00, 0x00, 0x03, 0x00, 0x02, 0x00, 0x01, 0x02, 0xAB, 0xCD]
    let reply := Crc.checked [0x07, 0x17, 0x06, 0x00, 0x00, 0x12, 0x56, 0xAB, 0xCD]
    (s.process request (s.after banks frames)).1 = some reply ∧
      (∀ function ∈ reply[1]?, function < 0x80) ∧
      ∀ i < 3, word ((payload reply).getD (2 * i) 0) ((payload reply).getD (2 * i + 1) 0) =
        (s.carriedOut banks (frames ++ [request])).foldl (wordAfter i)
          (banks.holdingRegister i) := by
  intro s banks frames request reply
  have sent : (s.process request (s.after banks frames)).1 = some reply := by decide +kernel
  have normal : ∀ function ∈ reply[1]?, function < 0x80 := by decide +kernel
  have hstart : (word 0 0).toNat = 0 := rfl
  refine ⟨sent, normal, fun i hi => ?_⟩
  have hread := ((reads_find_last_writes s banks frames request reply sent normal).1 0 0 0 3
    (Or.inr ⟨_, rfl⟩)).2 i hi
  rwa [hstart, Nat.zero_add] at hread

end Station
end RtuStation
