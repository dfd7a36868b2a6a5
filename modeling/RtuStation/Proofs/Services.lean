import RtuStation.Proofs.Positions

/-!
# Functions by position

A station's functions once more, now with their data read by positions and slices and the elements
through windows on the banks. No function slips, and each ends as the request does that its data
make (`Service.execute_run`).
-/

namespace RtuStation

/-- Checked steps that can be refused with an exception. -/
abbrev Service (α : Type) : Type := ExceptT Exception Checked α

namespace Service

variable {α β : Type} {c : Service α} {f : α → Service β} {u v : World} {a : α} {e : Exception}

def refuse (e : Exception) : Service α := ExceptT.mk (pure (.error e))

def require (p : Prop) [Decidable p] (e : Exception) : Service Unit :=
  if p then pure () else refuse e

/-- What was found, or the exception if nothing was. -/
def demand (e : Exception) (found : Option α) : Except Exception α := found.elim (.error e) .ok

def found (x : Option α) : Service α := ExceptT.mk (pure (demand .illegalDataAddress x))

theorem run_bind (h : c.run.run u = .ok (.ok a, v)) :
    (c >>= f).run.run u = (f a).run.run v := by
  rw [ExceptT.run_bind, Checked.run_bind h]

theorem run_bind_refused (h : c.run.run u = .ok (.error e, v)) :
    (c >>= f).run.run u = .ok (.error e, v) := by
  rw [ExceptT.run_bind, Checked.run_bind h]
  rfl

theorem run_bind_lift {c : Checked α} (h : c.run u = .ok (a, v)) :
    ((liftM c : Service α) >>= f).run.run u = (f a).run.run v := by
  refine run_bind ?_
  rw [ExceptT.run_liftM, Checked.run_map h]

theorem run_bind_require {p : Prop} [Decidable p] {f : Unit → Service β} (h : p) :
    (require p e >>= f).run.run u = (f ()).run.run u := by
  rw [require, if_pos h]
  rfl

theorem run_bind_require_of_not {p : Prop} [Decidable p] {f : Unit → Service β} (h : ¬p) :
    (require p e >>= f).run.run u = .ok (.error e, u) := by
  rw [require, if_neg h]
  rfl

/-- What is found or refused, and then done with what was found. -/
theorem run_bind_demand {x : Option α} {g : α → Except Exception β × World}
    (h : c.run.run u = .ok (demand e x, u)) (hf : ∀ a, x = some a → (f a).run.run u = .ok (g a)) :
    (c >>= f).run.run u = .ok (x.elim (.error e, u) g) := by
  cases x with
  | none => exact run_bind_refused h
  | some a =>
    rw [run_bind h]
    exact hf a rfl

/-! ### Parts of requests -/

open Checked

def twoWords (data : Octets) : Service (UInt16 × UInt16) := do
  require (data.length = 4) .illegalDataValue
  let a ← octetAt data 0
  let b ← octetAt data 1
  let c ← octetAt data 2
  let d ← octetAt data 3
  return (word a b, word c d)

/-- A start address and a count of 1 to `most`. -/
def range (most : Nat) (data : Octets) : Service (UInt16 × UInt16) := do
  let r ← twoWords data
  require (1 ≤ r.2.toNat ∧ r.2.toNat ≤ most) .illegalDataValue
  return r

def block (data : Octets) : Service (UInt16 × UInt16 × Octets) := do
  require (5 ≤ data.length) .illegalDataValue
  let r ← twoWords (← slice data 0 4)
  let size ← octetAt data 4
  let payload ← slice data 5 data.length
  require (payload.length = size.toNat) .illegalDataValue
  return (r.1, r.2, payload)

/-- A block of 1 to `most` values, as many octets as they take. -/
def values (most : Nat) (octets : Nat → Nat) (read : Octets → Nat → Checked (List α))
    (data : Octets) : Service (UInt16 × List α) := do
  let b ← block data
  require (1 ≤ b.2.1.toNat ∧ b.2.1.toNat ≤ most ∧ b.2.2.length = octets b.2.1.toNat)
    .illegalDataValue
  return (b.1, ← read b.2.2 b.2.1.toNat)

def wordBlock (most : Nat) : Octets → Service (UInt16 × List UInt16) :=
  values most (2 * ·) fun payload _ => words payload

def bitBlock (most : Nat) : Octets → Service (UInt16 × List Bool) :=
  values most Octets.ofBitCount unpack

theorem twoWords_run (a b c d : UInt8) :
    (twoWords [a, b, c, d]).run.run u = .ok (.ok (word a b, word c d), u) := rfl

theorem twoWords_run_of_length {data : Octets} (h : data.length ≠ 4) :
    (twoWords data).run.run u = .ok (.error .illegalDataValue, u) :=
  run_bind_require_of_not h

theorem slice_four (a b c d : UInt8) (later : Octets) :
    (slice (a :: b :: c :: d :: later) 0 4).run u = .ok ([a, b, c, d], u) :=
  slice_run (Nat.zero_le 4) (by simp only [List.length_cons]; omega)

theorem range_run (most : Nat) (data : Octets) :
    (range most data).run.run u =
      .ok (demand .illegalDataValue (Request.range? most data), u) := by
  by_cases hlength : data.length = 4
  · obtain ⟨a, b, c, d, rfl⟩ := List.length_eq_four.mp hlength
    rw [range, run_bind (twoWords_run a b c d), Request.range?]
    by_cases hbounds : 1 ≤ (word c d).toNat ∧ (word c d).toNat ≤ most
    · rw [run_bind_require hbounds, if_pos hbounds]
      rfl
    · rw [run_bind_require_of_not hbounds, if_neg hbounds]
      rfl
  · have hnone : Request.range? most data = none := by
      refine Option.eq_none_iff_forall_ne_some.mpr fun r hr => hlength ?_
      obtain ⟨a, b, c, d, rfl, -⟩ := Request.range?_eq_some_iff.mp hr
      rfl
    rw [range, run_bind_refused (twoWords_run_of_length hlength), hnone]
    rfl

theorem block_run (data : Octets) :
    (block data).run.run u = .ok (demand .illegalDataValue (Request.block? data), u) := by
  match data with
  | a :: b :: c :: d :: size :: payload =>
    have hfive : 5 ≤ (a :: b :: c :: d :: size :: payload).length := by
      simp only [List.length_cons]
      omega
    have hpayload : (slice (a :: b :: c :: d :: size :: payload) 5
        (a :: b :: c :: d :: size :: payload).length).run u = .ok (payload, u) := by
      rw [slice_run hfive (Nat.le_refl _), List.take_length]
      rfl
    rw [block, run_bind_require hfive, run_bind_lift (slice_four ..),
      run_bind (twoWords_run a b c d), run_bind_lift (octetAt_run hfive),
      run_bind_lift hpayload, Request.block?]
    by_cases hsize : payload.length = size.toNat
    · rw [if_pos hsize]
      exact run_bind_require hsize
    · rw [if_neg hsize]
      exact run_bind_require_of_not hsize
  | [] | [_] | [_, _] | [_, _, _] | [_, _, _, _] => rfl

theorem values_run (most : Nat) {octets : Nat → Nat} {read : Octets → Nat → Checked (List α)}
    {decode : Nat → Octets → List α} (data : Octets)
    (h : ∀ payload count, payload.length = octets count →
      (read payload count).run u = .ok (decode count payload, u)) :
    (values most octets read data).run.run u =
      .ok (demand .illegalDataValue ((Request.block? data).bind fun b =>
        if 1 ≤ b.2.1.toNat ∧ b.2.1.toNat ≤ most ∧ b.2.2.length = octets b.2.1.toNat then
          some (b.1, decode b.2.1.toNat b.2.2)
        else none), u) := by
  have hblock := block_run (u := u) data
  rw [values]
  cases hb : Request.block? data with
  | none =>
    rw [hb] at hblock
    exact run_bind_refused hblock
  | some b =>
    rw [hb] at hblock
    rw [run_bind hblock, Option.bind_some]
    by_cases hbounds : 1 ≤ b.2.1.toNat ∧ b.2.1.toNat ≤ most ∧ b.2.2.length = octets b.2.1.toNat
    · rw [run_bind_require hbounds, run_bind_lift (h _ _ hbounds.2.2), if_pos hbounds]
      rfl
    · rw [run_bind_require_of_not hbounds, if_neg hbounds]
      rfl

theorem wordBlock_run (most : Nat) (data : Octets) :
    (wordBlock most data).run.run u =
      .ok (demand .illegalDataValue (Request.wordBlock? most data), u) :=
  values_run most data fun _ _ hlength => words_run hlength

theorem bitBlock_run (most : Nat) (data : Octets) :
    (bitBlock most data).run.run u =
      .ok (demand .illegalDataValue (Request.bitBlock? most data), u) := by
  refine values_run most data fun payload count hlength => unpack_run ?_
  rw [hlength, Octets.ofBitCount]
  omega

/-! ### Functions -/

def readBits (function : UInt8) (data : Octets) (v : Window .bit) : Service Octets := do
  let r ← range maxReadBits data
  let bits ← found (← v.elements r.1.toNat r.2.toNat)
  let packed ← pack r.2.toNat bits
  let size ← narrow packed.length
  return function :: size :: packed

def readWords (function : UInt8) (data : Octets) (v : Window .word) : Service Octets := do
  let r ← range maxReadWords data
  let ws ← found (← v.elements r.1.toNat r.2.toNat)
  let size ← narrow (2 * r.2.toNat)
  return function :: size :: Octets.ofWords ws

def writeCoil (pdu data : Octets) (v : Window .bit) : Service Octets := do
  let r ← twoWords data
  require (r.2 = 0xFF00 ∨ r.2 = 0) .illegalDataValue
  let done ← v.setElement r.1.toNat (r.2 = 0xFF00)
  require (done = true) .illegalDataAddress
  return pdu

def writeRegister (pdu data : Octets) (v : Window .word) : Service Octets := do
  let r ← twoWords data
  let done ← v.setElement r.1.toNat r.2
  require (done = true) .illegalDataAddress
  return pdu

def writeBlock {w : Width} (pdu : Octets) (block : Service (UInt16 × List w.Value))
    (v : Window w) : Service Octets := do
  let b ← block
  let done ← v.writeElements b.1.toNat b.2
  require (done = true) .illegalDataAddress
  slice pdu 0 5

def identify (unit function : UInt8) (data : Octets) : Service Octets := do
  require (data = []) .illegalDataValue
  let body := function :: 0 :: Request.identity unit
  let size ← difference body.length 2
  setOctet body 1 (← narrow size)

def maskRegister (pdu data : Octets) (v : Window .word) : Service Octets := do
  require (data.length = 6) .illegalDataValue
  let r ← twoWords (← slice data 0 4)
  let high ← octetAt data 4
  let low ← octetAt data 5
  let value ← found (← v.element r.1.toNat)
  let _ ← v.setElement r.1.toNat (Request.masked value r.2 (word high low))
  return pdu

def writeRead (function : UInt8) (data : Octets) (v : Window .word) : Service Octets := do
  require (9 ≤ data.length) .illegalDataValue
  let r ← range maxReadWords (← slice data 0 4)
  let b ← wordBlock maxExchangeWords (← slice data 4 data.length)
  require (v.contains r.1.toNat r.2.toNat = true ∧ v.contains b.1.toNat b.2.length = true)
    .illegalDataAddress
  let _ ← v.writeElements b.1.toNat b.2
  readWords function (← slice data 0 4) v

/-- The windows on the four banks. -/
structure Windows where
  coils : Window .bit
  discreteInputs : Window .bit
  holdingRegisters : Window .word
  inputRegisters : Window .word

/-- The function of a function code, with its data. -/
def serve (unit : UInt8) (windows : Windows) (function : UInt8) (data : Octets) :
    FunctionCode → Service Octets
  | .readCoils => readBits function data windows.coils
  | .readDiscreteInputs => readBits function data windows.discreteInputs
  | .readHoldingRegisters => readWords function data windows.holdingRegisters
  | .readInputRegisters => readWords function data windows.inputRegisters
  | .writeCoil => writeCoil (function :: data) data windows.coils
  | .writeRegister => writeRegister (function :: data) data windows.holdingRegisters
  | .writeCoils =>
    writeBlock (w := .bit) (function :: data) (bitBlock maxWriteBits data) windows.coils
  | .writeRegisters =>
    writeBlock (w := .word) (function :: data) (wordBlock maxWriteWords data)
      windows.holdingRegisters
  | .reportServerId => identify unit function data
  | .maskWriteRegister => maskRegister (function :: data) data windows.holdingRegisters
  | .writeReadRegisters => writeRead function data windows.holdingRegisters

def execute (unit : UInt8) (windows : Windows) : Octets → Service Octets
  | [] => refuse .illegalFunction
  | function :: data =>
    match FunctionCode.ofOctet? function with
    | none => refuse .illegalFunction
    | some code => serve unit windows function data code

/-! ### What functions do -/

/-- What the windows show in a world are the banks. -/
structure Windows.Show (windows : Windows) (u : World) (banks : Banks) : Prop where
  coils : windows.coils.Shows u banks.coils
  discreteInputs : windows.discreteInputs.Shows u banks.discreteInputs
  holdingRegisters : windows.holdingRegisters.Shows u banks.holdingRegisters
  inputRegisters : windows.inputRegisters.Shows u banks.inputRegisters

/-- The world with what a request changes. -/
def Windows.put (windows : Windows) (u : World) : Change → World
  | .nothing => u
  | .coils bank => windows.coils.mapping.put u bank.cells
  | .holdingRegisters bank => windows.holdingRegisters.mapping.put u bank.cells

/-- How the request of a function code with its data ends: with an exception in the world as it is,
or with data in the world with what the request changes. -/
def ended (unit : UInt8) (windows : Windows) (u : World) (banks : Banks) (function : UInt8)
    (request : Option Request) : Except Exception Octets × World :=
  request.elim (.error .illegalDataValue, u) fun r =>
    (r.perform? unit banks).elim (.error .illegalDataAddress, u) fun result =>
      (.ok (function :: result.1), windows.put u result.2)

theorem readBits_run {v : Window .bit} {b : Bank .bit} (h : v.Shows u b) (function : UInt8)
    (data : Octets) :
    (readBits function data v).run.run u =
      .ok ((Request.range? maxReadBits data).elim (.error .illegalDataValue, u) fun r =>
        (b.read? r.1.toNat r.2.toNat).elim (.error .illegalDataAddress, u) fun bits =>
          (.ok (function :: Request.counted (Octets.packBits bits)), u)) := by
  refine run_bind_demand (range_run ..) fun r hr => ?_
  rw [run_bind_lift (Window.elements_run h ..)]
  refine run_bind_demand rfl fun bits hread => ?_
  have hlength := Bank.length_read? hread
  have hsmall : (Octets.packBits bits).length < 256 := by
    obtain ⟨a, b, c, d, -, -, -, -, hmost⟩ := Request.range?_eq_some_iff.mp hr
    rw [Octets.length_packBits, Octets.ofBitCount]
    simp only [maxReadBits] at hmost
    omega
  rw [run_bind_lift (pack_run hlength), run_bind_lift (narrow_run hsmall)]
  rfl

theorem readWords_run {v : Window .word} {b : Bank .word} (h : v.Shows u b) (function : UInt8)
    (data : Octets) :
    (readWords function data v).run.run u =
      .ok ((Request.range? maxReadWords data).elim (.error .illegalDataValue, u) fun r =>
        (b.read? r.1.toNat r.2.toNat).elim (.error .illegalDataAddress, u) fun ws =>
          (.ok (function :: Request.counted (Octets.ofWords ws)), u)) := by
  refine run_bind_demand (range_run ..) fun r hr => ?_
  rw [run_bind_lift (Window.elements_run h ..)]
  refine run_bind_demand rfl fun ws hread => ?_
  have hsmall : 2 * r.2.toNat < 256 := by
    obtain ⟨a, b, c, d, -, -, -, -, hmost⟩ := Request.range?_eq_some_iff.mp hr
    simp only [maxReadWords] at hmost
    omega
  rw [run_bind_lift (narrow_run hsmall), ← Bank.length_read? hread, ← Octets.length_ofWords]
  rfl

/-- A change to a bank that is refused unless the bank has what is to be changed. -/
theorem run_change {w : Width} {v : Window w} {change : Checked Bool} {x : Option (Bank w)}
    (h : change.run u =
      x.elim (.ok (false, u)) fun after => .ok (true, v.mapping.put u after.cells))
    (later : Service β) :
    (do
      let done ← change
      require (done = true) .illegalDataAddress
      later : Service β).run.run u =
        x.elim (.ok (.error .illegalDataAddress, u)) fun after =>
          later.run.run (v.mapping.put u after.cells) := by
  cases x with
  | none => rw [run_bind_lift h, run_bind_require_of_not Bool.false_ne_true, Option.elim_none]
  | some after => rw [run_bind_lift h, run_bind_require rfl, Option.elim_some]

variable {windows : Windows} {banks : Banks} {unit function : UInt8} {data : Octets}

theorem ofWords_words (a b c d : UInt8) :
    Octets.ofWord (word a b) ++ Octets.ofWord (word c d) = [a, b, c, d] := by
  rw [Request.ofWord_word, Request.ofWord_word]
  rfl

theorem ofData?_eq_none {code : FunctionCode}
    (h : ∀ r, ¬Request.Form (code.octet :: data) r) : Request.ofData? code data = none :=
  Option.eq_none_iff_forall_ne_some.mpr fun r hr => h r (Request.form_of_ofData? hr)

theorem writeCoil_run (h : windows.coils.Shows u banks.coils) :
    (writeCoil (function :: data) data windows.coils).run.run u =
      .ok (ended unit windows u banks function (Request.ofData? .writeCoil data)) := by
  by_cases hlength : data.length = 4
  · obtain ⟨a, b, c, d, rfl⟩ := List.length_eq_four.mp hlength
    rw [writeCoil, run_bind (twoWords_run a b c d)]
    -- two values name a state of a coil, and any other is refused before the bank is looked at
    by_cases hvalue : word c d = 0xFF00 ∨ word c d = 0
    · have hrequest : Request.ofData? .writeCoil [a, b, c, d] =
          some (.writeCoil (word a b) (word c d = 0xFF00)) := by
        rcases hvalue with hon | hoff
        · rw [hon]
          exact if_pos hon
        · have hnot : word c d ≠ 0xFF00 := by
            rw [hoff]
            decide
          rw [hoff]
          exact (if_neg hnot).trans (if_pos hoff)
      have hcoil : Request.coilWord (word c d = 0xFF00) = word c d := by
        rcases hvalue with hvalue | hvalue <;> (rw [hvalue]; rfl)
      rw [run_bind_require hvalue, run_change (Window.setElement_run h ..), hrequest, ended,
        Option.elim_some, Request.perform?, Request.head, hcoil, ofWords_words]
      cases banks.coils.set? (word a b).toNat (word c d = 0xFF00) <;> rfl
    · have hnone : Request.ofData? .writeCoil [a, b, c, d] = none := by
        obtain ⟨hon, hoff⟩ := not_or.mp hvalue
        exact (if_neg hon).trans (if_neg hoff)
      rw [run_bind_require_of_not hvalue, hnone]
      rfl
  · have hnone : Request.ofData? .writeCoil data = none := by
      refine ofData?_eq_none fun r hr => hlength ?_
      cases hr <;> rfl
    rw [writeCoil, run_bind_refused (twoWords_run_of_length hlength), hnone]
    rfl

theorem writeRegister_run (h : windows.holdingRegisters.Shows u banks.holdingRegisters) :
    (writeRegister (function :: data) data windows.holdingRegisters).run.run u =
      .ok (ended unit windows u banks function (Request.ofData? .writeRegister data)) := by
  by_cases hlength : data.length = 4
  · obtain ⟨a, b, c, d, rfl⟩ := List.length_eq_four.mp hlength
    have hrequest : Request.ofData? .writeRegister [a, b, c, d] =
        some (.writeRegister (word a b) (word c d)) := rfl
    rw [writeRegister, run_bind (twoWords_run a b c d),
      run_change (Window.setElement_run h ..), hrequest, ended, Option.elim_some,
      Request.perform?, Request.head, ofWords_words]
    cases banks.holdingRegisters.set? (word a b).toNat (word c d) <;> rfl
  · have hnone : Request.ofData? .writeRegister data = none := by
      refine ofData?_eq_none fun r hr => hlength ?_
      cases hr
      rfl
    rw [writeRegister, run_bind_refused (twoWords_run_of_length hlength), hnone]
    rfl

/-- A function that writes a block is served as the requests that it makes. -/
theorem writeBlock_run {w : Width} {v : Window w} {b : Bank w} (h : v.Shows u b)
    {block : Service (UInt16 × List w.Value)} {x : Option (UInt16 × List w.Value)}
    {make : UInt16 × List w.Value → Request} {change : Bank w → Change}
    (hblock : block.run.run u = .ok (demand .illegalDataValue x, u))
    (hput : ∀ after, windows.put u (change after) = v.mapping.put u after.cells)
    (hmake : ∀ r, x = some r → 4 ≤ data.length ∧ (make r).perform? unit banks =
      (b.write? r.1.toNat r.2).bind fun after => some (data.take 4, change after)) :
    (writeBlock (function :: data) block v).run.run u =
      .ok (ended unit windows u banks function (x.map make)) := by
  rw [ended, Option.elim_map]
  refine run_bind_demand hblock fun r hr => ?_
  obtain ⟨hlength, hperform⟩ := hmake r hr
  have hstart (later : World) :
      (liftM (slice (function :: data) 0 5) : Service Octets).run.run later =
        .ok (.ok (function :: data.take 4), later) := by
    have hfive : 5 ≤ (function :: data).length := Nat.succ_le_succ hlength
    rw [ExceptT.run_liftM, Checked.run_map (slice_run (Nat.zero_le 5) hfive)]
    rfl
  rw [run_change (Window.writeElements_run h ..), Function.comp_apply, hperform]
  cases b.write? r.1.toNat r.2 with
  | none => rfl
  | some after => exact (hstart _).trans (by rw [← hput]; rfl)

theorem writeCoils_run (h : windows.coils.Shows u banks.coils) :
    (writeBlock (w := .bit) (function :: data) (bitBlock maxWriteBits data)
      windows.coils).run.run u =
        .ok (ended unit windows u banks function (Request.ofData? .writeCoils data)) := by
  have hput (after : Bank .bit) :
      windows.put u (.coils after) = windows.coils.mapping.put u after.cells := rfl
  refine writeBlock_run h (bitBlock_run maxWriteBits data) hput fun r hb => ?_
  obtain ⟨a, b, c, d, size, payload, rfl, hstart, hvalues, -⟩ :=
    Request.bitBlock?_eq_some_iff.mp hb
  have hcount : Request.countWord r.2 = word c d := by
    rw [hvalues, Request.countWord, Octets.length_unpackBits, UInt16.ofNat_toNat]
  refine ⟨by simp, ?_⟩
  rw [Request.perform?, Request.head, hcount, hstart, ofWords_words]
  rfl

theorem writeRegisters_run (h : windows.holdingRegisters.Shows u banks.holdingRegisters) :
    (writeBlock (w := .word) (function :: data) (wordBlock maxWriteWords data)
      windows.holdingRegisters).run.run u =
        .ok (ended unit windows u banks function (Request.ofData? .writeRegisters data)) := by
  have hput (after : Bank .word) : windows.put u (.holdingRegisters after) =
      windows.holdingRegisters.mapping.put u after.cells := rfl
  refine writeBlock_run h (wordBlock_run maxWriteWords data) hput fun r hb => ?_
  obtain ⟨a, b, c, d, size, payload, rfl, hstart, hvalues, -, -, -, hpaired⟩ :=
    Request.wordBlock?_eq_some_iff.mp hb
  have hcount : Request.countWord r.2 = word c d := by
    rw [hvalues, Request.countWord, Octets.length_words hpaired, UInt16.ofNat_toNat]
  refine ⟨by simp, ?_⟩
  rw [Request.perform?, Request.head, hcount, hstart, ofWords_words]
  rfl

theorem identify_run :
    (identify unit function data).run.run u =
      .ok (ended unit windows u banks function (Request.ofData? .reportServerId data)) := by
  cases data with
  | nil =>
    have hlength : (function :: 0 :: Request.identity unit).length = 24 := rfl
    have htwo : 2 ≤ (function :: 0 :: Request.identity unit).length := by omega
    have hone : 1 < (function :: 0 :: Request.identity unit).length := by omega
    have hsmall : (function :: 0 :: Request.identity unit).length - 2 < 256 := by omega
    rw [identify, run_bind_require rfl, run_bind_lift (difference_run htwo),
      run_bind_lift (narrow_run hsmall), ExceptT.run_liftM, Checked.run_map (setOctet_run hone _)]
    rfl
  | cons b rest => rfl

theorem maskRegister_run (h : windows.holdingRegisters.Shows u banks.holdingRegisters) :
    (maskRegister (function :: data) data windows.holdingRegisters).run.run u =
      .ok (ended unit windows u banks function (Request.ofData? .maskWriteRegister data)) := by
  by_cases hlength : data.length = 6
  · match data, hlength with
    | [a, b, c, d, e, f], hlength =>
      have hhigh : (octetAt [a, b, c, d, e, f] 4).run u = .ok (e, u) := rfl
      have hlow : (octetAt [a, b, c, d, e, f] 5).run u = .ok (f, u) := rfl
      have hrequest : Request.ofData? .maskWriteRegister [a, b, c, d, e, f] =
          some (.maskWriteRegister (word a b) (word c d) (word e f)) := rfl
      rw [maskRegister, run_bind_require hlength, run_bind_lift (slice_four ..),
        run_bind (twoWords_run a b c d), run_bind_lift hhigh, run_bind_lift hlow,
        run_bind_lift (Window.element_run h _), hrequest, ended, Option.elim_some,
        Request.perform?]
      cases hvalue : banks.holdingRegisters.get? (word a b).toNat with
      | none => rfl
      | some value =>
        have hfound : (found (some value)).run.run u = .ok (.ok value, u) := rfl
        have hset := Window.setElement_run h (word a b).toNat
          (Request.masked value (word c d) (word e f))
        -- whether the register was set is not asked, since it was found
        obtain ⟨after, hafter⟩ :=
          Bank.exists_set? hvalue (Request.masked value (word c d) (word e f))
        rw [hafter] at hset
        rw [run_bind hfound]
        refine (run_bind_lift hset).trans ?_
        simp only [Option.bind_eq_bind, Option.bind_some, hafter, Request.head,
          Request.ofWord_word]
        rfl
  · have hnone : Request.ofData? .maskWriteRegister data = none := by
      refine ofData?_eq_none fun r hr => hlength ?_
      cases hr
      rfl
    rw [maskRegister, run_bind_require_of_not hlength, hnone]
    rfl

/-- What is left of a request to write and read once it is read. -/
theorem exchange_run (h : windows.holdingRegisters.Shows u banks.holdingRegisters)
    {a b c d : UInt8} {rest : Octets} {r : UInt16 × UInt16} {block : UInt16 × List UInt16}
    (hr : Request.range? maxReadWords [a, b, c, d] = some r) :
    (do
      require (windows.holdingRegisters.contains r.1.toNat r.2.toNat = true ∧
        windows.holdingRegisters.contains block.1.toNat block.2.length = true) .illegalDataAddress
      let _ ← windows.holdingRegisters.writeElements (w := .word) block.1.toNat block.2
      readWords function (← slice (a :: b :: c :: d :: rest) 0 4)
        windows.holdingRegisters : Service Octets).run.run u =
      .ok (ended unit windows u banks function
        (some (.writeReadRegisters r.1 r.2 block.1 block.2))) := by
  have hwrite := Window.writeElements_run h block.1.toNat block.2
  rw [h.contains_eq, h.contains_eq, ended, Option.elim_some, Request.perform?]
  cases hafter : banks.holdingRegisters.write? block.1.toNat block.2 with
  | none =>
    have hnot : ¬(banks.holdingRegisters.contains r.1.toNat r.2.toNat = true ∧
        banks.holdingRegisters.contains block.1.toNat block.2.length = true) := by
      rintro ⟨-, hcontains⟩
      rw [Bank.write?, if_pos hcontains] at hafter
      cases hafter
    rw [run_bind_require_of_not hnot]
    rfl
  | some after =>
    -- the write keeps the length of the bank, so it was known before what can be read after it
    obtain ⟨hfit, hlength, hcells⟩ := Bank.write?_eq_some_iff.mp hafter
    have hcontains := (banks.holdingRegisters.contains_iff ..).mpr hfit
    by_cases hread : banks.holdingRegisters.contains r.1.toNat r.2.toNat = true
    · rw [hafter] at hwrite
      have hlater := h.put hlength (by rw [hcells, Bank.size_storeAll])
      rw [run_bind_require ⟨hread, hcontains⟩, run_bind_lift hwrite, run_bind_lift (slice_four ..),
        readWords_run hlater, hr]
      have hread' : after.contains r.1.toNat r.2.toNat = true := by
        rwa [Bank.contains, hlength]
      simp only [Option.bind_eq_bind, Option.bind_some, Option.elim_some, Bank.read?,
        if_pos hread']
      rfl
    · have hnone : after.read? r.1.toNat r.2.toNat = none := by
        rw [Bank.read?, if_neg]
        rwa [Bank.contains, hlength]
      rw [run_bind_require_of_not fun hboth => hread hboth.1]
      simp only [Option.bind_eq_bind, Option.bind_some, hnone]
      rfl

theorem writeRead_run (h : windows.holdingRegisters.Shows u banks.holdingRegisters) :
    (writeRead function data windows.holdingRegisters).run.run u =
      .ok (ended unit windows u banks function (Request.ofData? .writeReadRegisters data)) := by
  by_cases hlength : 9 ≤ data.length
  · match data, hlength with
    | a :: b :: c :: d :: rest, hlength =>
      have hslice : (slice (a :: b :: c :: d :: rest) 4
          (a :: b :: c :: d :: rest).length).run u = .ok (rest, u) := by
        rw [slice_run (by omega) (Nat.le_refl _), List.take_length]
        rfl
      have hrequest : Request.ofData? .writeReadRegisters (a :: b :: c :: d :: rest) =
          (Request.range? maxReadWords [a, b, c, d]).bind fun r =>
            (Request.wordBlock? maxExchangeWords rest).bind fun block =>
              some (.writeReadRegisters r.1 r.2 block.1 block.2) := rfl
      rw [writeRead, run_bind_require hlength, run_bind_lift (slice_four ..), hrequest]
      cases hr : Request.range? maxReadWords [a, b, c, d] with
      | none =>
        rw [run_bind_refused (by rw [range_run, hr]; rfl)]
        rfl
      | some r =>
        rw [run_bind (by rw [range_run, hr]; rfl), run_bind_lift hslice]
        cases hb : Request.wordBlock? maxExchangeWords rest with
        | none =>
          rw [run_bind_refused (by rw [wordBlock_run, hb]; rfl)]
          rfl
        | some block =>
          rw [run_bind (by rw [wordBlock_run, hb]; rfl)]
          exact exchange_run h hr
  · have hnone : Request.ofData? .writeReadRegisters data = none := by
      refine ofData?_eq_none fun r hr => hlength ?_
      cases hr
      simp only [List.length_cons]
      omega
    rw [writeRead, run_bind_require_of_not hlength, hnone]
    rfl

/-- A function that reads is served as the requests that it makes. -/
theorem ended_of_read {w : Width} {b : Bank w} {encode : List w.Value → Octets}
    {make : UInt16 × UInt16 → Request} (range : Option (UInt16 × UInt16))
    (h : ∀ r, (make r).perform? unit banks =
      (b.read? r.1.toNat r.2.toNat).bind fun xs => some (Request.counted (encode xs), .nothing)) :
    ended unit windows u banks function (range.map make) =
      range.elim (.error .illegalDataValue, u) fun r =>
        (b.read? r.1.toNat r.2.toNat).elim (.error .illegalDataAddress, u) fun xs =>
          (.ok (function :: Request.counted (encode xs)), u) := by
  rw [ended, Option.elim_map]
  cases range with
  | none => rfl
  | some r =>
    simp only [Option.elim_some, Function.comp_apply, h]
    cases b.read? r.1.toNat r.2.toNat <;> rfl

theorem serve_run (h : windows.Show u banks) (code : FunctionCode) :
    (serve unit windows function data code).run.run u =
      .ok (ended unit windows u banks function (Request.ofData? code data)) := by
  cases code with
  | readCoils =>
    rw [serve, readBits_run h.coils]
    exact congrArg Except.ok (ended_of_read _ fun _ => rfl).symm
  | readDiscreteInputs =>
    rw [serve, readBits_run h.discreteInputs]
    exact congrArg Except.ok (ended_of_read _ fun _ => rfl).symm
  | readHoldingRegisters =>
    rw [serve, readWords_run h.holdingRegisters]
    exact congrArg Except.ok (ended_of_read _ fun _ => rfl).symm
  | readInputRegisters =>
    rw [serve, readWords_run h.inputRegisters]
    exact congrArg Except.ok (ended_of_read _ fun _ => rfl).symm
  | writeCoil => exact writeCoil_run h.coils
  | writeRegister => exact writeRegister_run h.holdingRegisters
  | writeCoils => exact writeCoils_run h.coils
  | writeRegisters => exact writeRegisters_run h.holdingRegisters
  | reportServerId => exact identify_run
  | maskWriteRegister => exact maskRegister_run h.holdingRegisters
  | writeReadRegisters => exact writeRead_run h.holdingRegisters

/-- How a function code with its data ends, by what a station says to it. -/
def settled (windows : Windows) (u : World) (function : UInt8) :
    Except Exception (Octets × Change) → Except Exception Octets × World
  | .error e => (.error e, u)
  | .ok result => (.ok (function :: result.1), windows.put u result.2)

theorem settled_respond (unit : UInt8) (windows : Windows) (u : World) (banks : Banks)
    (code : FunctionCode) (data : Octets) :
    settled windows u code.octet (Request.respond unit (code.octet :: data) banks) =
      ended unit windows u banks code.octet (Request.ofData? code data) := by
  rw [ended]
  simp only [Request.respond, Request.decode, FunctionCode.ofOctet?_octet]
  cases hr : Request.ofData? code data with
  | none => rfl
  | some r =>
    simp only [Option.elim_some]
    cases r.perform? unit banks <;> rfl

theorem execute_run (h : windows.Show u banks) (pdu : Octets) :
    (execute unit windows pdu).run.run u =
      .ok (settled windows u (pdu.headD 0) (Request.respond unit pdu banks)) := by
  cases pdu with
  | nil => rfl
  | cons function data =>
    rw [execute, List.headD_cons]
    cases hcode : FunctionCode.ofOctet? function with
    | none =>
      simp only [Request.respond, Request.decode, hcode]
      rfl
    | some code =>
      obtain rfl := FunctionCode.octet_of_ofOctet? hcode
      rw [settled_respond]
      exact serve_run h code

end Service
end RtuStation
