import RtuStation.Proofs.Coherence
import RtuStation.Proofs.Services

/-!
# Accesses stay in bounds

A station's answer to a frame, the length that the start of a request tells, and what is done with
the banks of a store are run here step by checked step. Whatever the sizes of the segments and the
octets of the frame, no step slips, and each run does what the station, the store and the framing do.
-/

namespace RtuStation
namespace Checked

variable {u : World} {frame : Octets}

/-- Steps that look at nothing by its position. -/
def ofDeed {α : Type} (d : Deed α) : Checked α := fun u => .ok (d.run u)

def intact (frame : Octets) : Checked Bool :=
  if frame.length < 2 then return false
  else do
    let cut ← difference frame.length 2
    let body ← slice frame 0 cut
    let tail ← slice frame cut frame.length
    let low ← octetAt tail 0
    let high ← octetAt tail 1
    return Crc.crc16 body == word high low

/-- What a station does with a frame from an address that it obeys. -/
def attend (station : Station) (windows : Service.Windows) (frame : Octets) (address : UInt8) :
    Checked (Option Octets) := do
  let stop ← difference frame.length 2
  let pdu ← slice frame 1 stop
  let function ← octetAt pdu 0
  let response ← (Service.execute station.unit windows pdu).run
  if address = broadcast then return none
  else
    match response with
    | .ok answer => return some (Crc.checked (address :: answer))
    | .error e =>
      ofDeed (report (.remark (.refused function e)))
      return some (Crc.checked [address, function ||| 0x80, e.code])

def reply (station : Station) (windows : Service.Windows) (frame : Octets) :
    Checked (Option Octets) :=
  if frame.length < minFrame then do
    ofDeed (report (.remark (.short frame)))
    return none
  else do
    let sound ← intact frame
    if !sound then
      ofDeed (report (.remark (.damaged frame)))
      return none
    else
      let address ← octetAt frame 0
      if address ≠ station.unit ∧ address ≠ broadcast then return none
      else attend station windows frame address

def countedLength (start : Octets) (position fixed : Nat) : Checked FrameLength :=
  if start.length < position + 1 then return .atLeast (position + 1)
  else do
    let count ← octetAt start position
    return .exactly (min (fixed + count.toNat) maxFrame)

def requestLength (start : Octets) : Checked FrameLength :=
  if start.length < 2 then return .atLeast 2
  else do
    let function ← octetAt start 1
    match FunctionCode.ofOctet? function with
    | none => return .untilSilence
    | some .reportServerId => return .exactly minFrame
    | some .maskWriteRegister => return .exactly 10
    | some .writeCoils | some .writeRegisters => countedLength start 6 9
    | some .writeReadRegisters => countedLength start 10 13
    | some _ => return .exactly 8

theorem intact_run (frame : Octets) : (intact frame).run u = .ok (Crc.intact frame, u) := by
  rw [intact]
  by_cases hshort : frame.length < 2
  · rw [if_pos hshort]
    rcases Nat.lt_or_ge frame.length 1 with hnone | hone
    · obtain rfl := List.length_eq_zero_iff.mp (Nat.lt_one_iff.mp hnone)
      rfl
    · obtain ⟨b, rfl⟩ := List.length_eq_one_iff.mp (Nat.le_antisymm (Nat.le_of_lt_succ hshort) hone)
      rfl
  · have hcut : frame.length - 2 ≤ frame.length := Nat.sub_le ..
    have htail : (frame.drop (frame.length - 2)).length = 2 := by
      rw [List.length_drop]
      omega
    obtain ⟨low, high, hcheck⟩ := List.length_eq_two.mp htail
    rw [if_neg hshort, run_bind (difference_run (Nat.not_lt.mp hshort)),
      run_bind (slice_run (Nat.zero_le _) hcut), run_bind (slice_run hcut (Nat.le_refl _)),
      List.take_length, Crc.intact, hcheck]
    rfl

theorem countedLength_run (start : Octets) (position fixed : Nat) :
    (countedLength start position fixed).run u =
      .ok (FrameLength.counted start position fixed, u) := by
  rw [countedLength, FrameLength.counted]
  split
  · next hshort =>
    rw [List.getElem?_eq_none (by omega)]
    rfl
  · next hlong =>
    have hin : position < start.length := by omega
    rw [run_bind (octetAt_run hin), List.getD_eq_getElem?_getD, List.getElem?_eq_getElem hin]
    rfl

theorem requestLength_run (start : Octets) :
    (requestLength start).run u = .ok (FrameLength.ofRequest start, u) := by
  match start with
  | [] | [_] => rfl
  | address :: function :: later =>
    have hlong : ¬(address :: function :: later).length < 2 := by simp
    have hfunction : (octetAt (address :: function :: later) 1).run u = .ok (function, u) := rfl
    rw [requestLength, if_neg hlong, run_bind hfunction, FrameLength.ofRequest]
    cases FunctionCode.ofOctet? function with
    | none => rfl
    | some code =>
      cases code with
      | writeCoils | writeRegisters | writeReadRegisters => exact countedLength_run ..
      | _ => rfl

end Checked

namespace Store

variable {s : Store} {u : World}

def windows (s : Store) : Service.Windows :=
  ⟨s.window .coils, s.window .discreteInputs, s.window .holdingRegisters, s.window .inputRegisters⟩

theorem show_windows (h : s.Mapped u.segments) : s.windows.Show u (s.banks u) :=
  ⟨s.shows_window h .coils, s.shows_window h .discreteInputs, s.shows_window h .holdingRegisters,
    s.shows_window h .inputRegisters⟩

theorem put_windows (s : Store) (u : World) (change : Change) :
    s.windows.put u change = ((s.apply change).run u).2 := by
  cases change <;> rfl

theorem execute_of_answer {station : Station} {frame : Octets} {reply : Option Octets}
    {change : Change} {remark : Option Remark}
    (h : station.answer frame (s.banks u) = ⟨reply, change, remark⟩) :
    (s.execute station.engine frame).run u =
      (reply, ((s.apply change).run
        (remark.elim u fun r => ((report (.remark r)).run u).2)).2) := by
  have hengine : station.engine.answer frame (s.banks u) = ⟨reply, change, remark⟩ := h
  simp only [execute, StateT.run_bind, StateT.run_get, pure_bind, hengine]
  cases remark <;> rfl

end Store

namespace Checked

theorem octetAt_zero {bytes : Octets} (h : bytes ≠ []) {u : World} :
    (octetAt bytes 0).run u = .ok (bytes.headD 0, u) := by
  cases bytes with
  | nil => exact absurd rfl h
  | cons b rest => rfl

/-- What is left of a frame that the station hears. -/
theorem attend_run {s : Store} {u : World} (h : s.Mapped u.segments) {station : Station}
    {frame : Octets} (hhears : station.Hears frame) :
    (attend station s.windows frame (frame.headD 0)).run u =
      .ok ((s.execute station.engine frame).run u) := by
  obtain ⟨hlong, -, -⟩ := id hhears
  simp only [minFrame] at hlong
  have hstop : 1 ≤ frame.length - 2 := by omega
  have hpdu : Station.pdu frame ≠ [] := by
    refine List.ne_nil_of_length_pos ?_
    rw [Station.pdu, Crc.body, List.length_drop, List.length_take]
    omega
  have hslice : (slice frame 1 (frame.length - 2)).run u = .ok (Station.pdu frame, u) :=
    slice_run hstop (Nat.sub_le ..)
  have hserved := @Service.execute_run _ _ _ station.unit (Store.show_windows h)
    (Station.pdu frame)
  have hanswer := @Station.answer_of_hears station frame (s.banks u) hhears
  rw [attend, run_bind (difference_run (by omega)), run_bind hslice, run_bind (octetAt_zero hpdu)]
  cases hr : Request.respond station.unit (Station.pdu frame) (s.banks u) with
  | error e =>
    rw [hr] at hserved hanswer
    rw [run_bind hserved]
    by_cases hall : frame.headD 0 = broadcast
    all_goals
      simp only [hall, if_true, if_false] at hanswer ⊢
      rw [Store.execute_of_answer hanswer]
      rfl
  | ok result =>
    rw [hr] at hserved hanswer
    rw [run_bind hserved]
    by_cases hall : frame.headD 0 = broadcast
    all_goals
      simp only [hall, if_true, if_false] at hanswer ⊢
      rw [Store.execute_of_answer hanswer, Store.put_windows]
      rfl

theorem reply_run {s : Store} {u : World} (h : s.Mapped u.segments) (station : Station)
    (frame : Octets) :
    (reply station s.windows frame).run u = .ok ((s.execute station.engine frame).run u) := by
  rw [reply]
  by_cases hshort : frame.length < minFrame
  · have hanswer : station.answer frame (s.banks u) = ⟨none, .nothing, some (.short frame)⟩ :=
      if_pos hshort
    rw [if_pos hshort, Store.execute_of_answer hanswer]
    rfl
  rw [if_neg hshort, run_bind (intact_run frame)]
  by_cases hdamaged : (!Crc.intact frame) = true
  · have hanswer : station.answer frame (s.banks u) = ⟨none, .nothing, some (.damaged frame)⟩ :=
      (if_neg hshort).trans (if_pos hdamaged)
    rw [if_pos hdamaged, Store.execute_of_answer hanswer]
    rfl
  have hsome : frame ≠ [] := by
    rintro rfl
    exact hshort (by decide)
  rw [if_neg hdamaged, run_bind (octetAt_zero hsome)]
  by_cases hforeign : frame.headD 0 ≠ station.unit ∧ frame.headD 0 ≠ broadcast
  · have hanswer : station.answer frame (s.banks u) = ⟨none, .nothing, none⟩ :=
      (if_neg hshort).trans ((if_neg hdamaged).trans (if_pos hforeign))
    rw [if_pos hforeign, Store.execute_of_answer hanswer]
    rfl
  · have hhears : station.Hears frame := by
      refine ⟨Nat.not_lt.mp hshort, by simpa using hdamaged, ?_⟩
      by_contra hneither
      exact hforeign (not_or.mp hneither)
    rw [if_neg hforeign]
    exact attend_run h hhears

end Checked

/-! ### Accesses -/

/-- The access step by checked step. -/
def Access.checked (s : Store) : (a : Access) → Checked a.Result
  | element k i => (s.window k).element i
  | setElement k i v => (s.window k).setElement i v
  | elements k start count => (s.window k).elements start count
  | writeElements k start vs => (s.window k).writeElements start vs
  | frame station octets => Checked.reply station s.windows octets

theorem Access.checked_run {s : Store} {w : World} (h : s.Mapped w.segments) (a : Access) :
    (a.checked s).run w = .ok ((a.perform s).run w) := by
  cases a with
  | element k i => exact Window.element_run (s.shows_window h k) i
  | elements k start count => exact Window.elements_run (s.shows_window h k) start count
  | setElement k i v =>
    refine (Window.setElement_run (s.shows_window h k) i v).trans ?_
    simp only [perform, Store.setElement, StateT.run_bind, StateT.run_get, pure_bind]
    cases (s.bank w k).set? i v <;> rfl
  | writeElements k start vs =>
    refine (Window.writeElements_run (s.shows_window h k) start vs).trans ?_
    simp only [perform, Store.writeElements, StateT.run_bind, StateT.run_get, pure_bind]
    cases (s.bank w k).write? start vs <;> rfl
  | frame station octets => exact Checked.reply_run h station octets

/-! ### Sound segments -/

/-- As much of each segment as a bank can reach is kept octet by octet. -/
def World.Sound (w : World) : Prop :=
  ∀ n segment, w.segments.get? n = some segment → segment.memory.Sound

namespace World

variable {w : World}

theorem steady_sound : Steady Sound where
  meets := Segment.keeps_meet fun r =>
    ∀ n segment, r.get? n = some segment → segment.memory.Sound
  notices := fun _ _ hw => hw
  adds := fun w name mode hw n segment hsegment => by
    by_cases hn : n = w.segments.next
    · subst hn
      rw [Registry.get?_add_next] at hsegment
      cases hsegment
      exact Memory.sound_zeros 0
    · rw [Registry.get?_add_of_ne _ _ _ hn] at hsegment
      exact hw n segment hsegment
  removes := fun _ _ hw => hw
  modifies := fun w number f hf hw n segment hsegment => by
    by_cases hn : number = n
    · subst hn
      rw [Registry.get?_modify_self] at hsegment
      obtain ⟨old, hold, rfl⟩ := Option.map_eq_some_iff.mp hsegment
      exact hf old (hw number old hold)
    · rw [Registry.get?_modify_of_ne _ _ hn] at hsegment
      exact hw n segment hsegment

theorem Sound.of_same {after : World} (hw : w.Sound)
    (h : ∀ n, after.segments.get? n = w.segments.get? n) : after.Sound := by
  intro n segment hsegment
  rw [h] at hsegment
  exact hw n segment hsegment

theorem sound_of_wrote {s : Store} {after : World} (h : s.Wrote w after) (hw : w.Sound) :
    after.Sound := by
  intro n segment hsegment
  -- a write adds no segment
  obtain ⟨old, hold⟩ : ∃ old, w.segments.get? n = some old := by
    cases h with
    | nothing hafter => exact ⟨segment, hafter ▸ hsegment⟩
    | @range k _ _ bank _ hafter =>
      rw [hafter] at hsegment
      simp only [Store.putBank, Mapping.setCells] at hsegment
      by_cases hn : (s.mappings.get k).object = n
      · subst hn
        obtain ⟨old, hold, -⟩ :=
          Option.map_eq_some_iff.mp ((Registry.get?_modify_self ..).symm.trans hsegment)
        exact ⟨old, hold⟩
      · exact ⟨segment, (Registry.get?_modify_of_ne _ _ hn).symm.trans hsegment⟩
  obtain ⟨later, hlater, -, hsound⟩ := Store.stands_of_wrote h ⟨old, hold, rfl, hw n old hold⟩
  obtain rfl := Option.some.inj (hsegment.symm.trans hlater)
  exact hsound

/-- Whatever is done with stores, the segments stay sound. -/
theorem sound_after (e : Event) (hw : w.Sound) : (w.after e).Sound := by
  cases e with
  | access s a => exact sound_of_wrote (a.wrote s w) hw
  | create sizes stem force permissions =>
    have hkeeps : Op.Keeps Sound (Store.create sizes stem force permissions) :=
      Store.steady_create steady_sound
    rw [after_create]
    exact hkeeps.run w hw
  | openExisting sizes stem =>
    exact hw.of_same fun n =>
      congrArg (Registry.get? · n) (Store.segments_openExisting sizes stem w)
  | destroy s | drop s => exact hw.of_same (s.get?_destroy w)

theorem sound_events (events : List Event) (hw : w.Sound) : (events.foldl after w).Sound := by
  induction events generalizing w with
  | nil => exact hw
  | cons e events ih => exact ih (sound_after e hw)

end World

/-! ### Stores however they were made -/

namespace Store

/-- A store that was attached to segments, created, or opened after some events. Anything can have
happened since. -/
inductive Made : Store → World → Prop where
  | attached {mappings : PerBank Mapping} {w : World}
    (hmaps : ∀ k, (mappings.get k).Maps w.segments) : Made (attach mappings) w
  | created {sizes : Sizes} {stem : String} {force : Bool} {permissions : Nat} {s : Store}
    {before w : World}
    (hcreate : (create sizes stem force permissions).run.run before = (.ok s, w)) : Made s w
  | opened {sizes : Sizes} {stem : String} {s : Store} {start w : World} (hsound : start.Sound)
    (events : List Event)
    (hopen : (openExisting sizes stem).run.run (events.foldl World.after start) = (.ok s, w)) :
    Made s w
  | later {s : Store} {w : World} (h : Made s w) (e : Event) : Made s (w.after e)

variable {s : Store} {w : World}

theorem mapped_of_attached {before : World} {k : BankKind} {text : String} {size : Nat}
    (hsound : before.Sound)
    (h : Segment.Attached before.segments text size (s.mappings.get k)) :
    (s.mappings.get k).Maps before.segments := by
  have hknown := Registry.lt_next_of_find? h.found
  obtain ⟨segment, hsegment⟩ :
      ∃ segment, before.segments.get? (s.mappings.get k).object = some segment :=
    ⟨_, Array.getElem?_eq_getElem hknown⟩
  have hroom := h.room
  rw [hsegment, Option.getD_some, ← h.mapped] at hroom
  exact ⟨_, hroom, _, hsegment, rfl, hsound _ _ hsegment⟩

theorem Made.mapped (h : s.Made w) : s.Mapped w.segments := by
  induction h with
  | attached hmaps => exact hmaps
  | @created sizes stem force permissions s before w hcreate =>
    have hbuilt := yields_create sizes stem force permissions before before rfl
    rw [hcreate] at hbuilt
    exact Built.mapped hbuilt
  | @opened sizes stem s start w hsound events hopen =>
    have hbefore := World.sound_events events hsound
    generalize events.foldl World.after start = before at hopen hbefore
    have hopened := yields_openExisting sizes stem (Segment.keeps_meet (· = before.segments))
      before rfl
    rw [hopen] at hopened
    obtain ⟨-, -, hattached, hsegments⟩ := hopened
    -- each segment had room for its bank when it was attached, and opening changes none
    intro k
    obtain ⟨v, hv, hk⟩ := hattached k
    rw [hsegments]
    exact mapped_of_attached hbefore (hv ▸ hk)
  | later _ e ih =>
    intro k
    obtain ⟨size, hsize, hstands⟩ := ih k
    exact ⟨size, hsize, e.stands_after hstands⟩

/-- Replacing a range of a bank changes octets of its elements only, and those become the values. -/
theorem writeElements_exact (h : s.Mapped w.segments) {k : BankKind} {start : Nat}
    {vs : List k.width.Value} (hfit : start + vs.length ≤ s.length k) :
    (∀ i v, vs[i]? = some v →
      (s.memory ((s.writeElements k start vs).run w).2 k).element k.width (start + i) = v) ∧
    ∀ (m : Mapping) (j : Nat),
      (m.memory ((s.writeElements k start vs).run w).2).octet j ≠ (m.memory w).octet j →
        m.object = (s.mappings.get k).object ∧
          start * k.elementSize ≤ j ∧ j < (start + vs.length) * k.elementSize := by
  have hfit' : start + vs.length ≤ (s.bank w k).length := by rwa [length_bank (h k)]
  obtain ⟨bank, hwrite⟩ : ∃ bank, (s.bank w k).write? start vs = some bank :=
    ⟨_, if_pos (((s.bank w k).contains_iff ..).mpr hfit')⟩
  have hafter : ((s.writeElements k start vs).run w).2 = ((s.putBank k bank).run w).2 := by
    simp only [writeElements, StateT.run_bind, StateT.run_get, pure_bind, hwrite]
    rfl
  have hmapped : s.Mapped ((s.putBank k bank).run w).2.segments :=
    mapped_of_wrote (.range hwrite rfl) h
  rw [hafter]
  constructor
  · intro i v hv
    obtain ⟨hi, -⟩ := List.getElem?_eq_some_iff.mp hv
    have hfound := get?_bank (hmapped k) (start + i)
    rw [if_pos (by omega), bank_putBank_self hwrite, Bank.get?_write? hwrite, if_pos (by omega),
      Nat.add_sub_cancel_left, hv] at hfound
    exact (Option.some.inj hfound).symm
  · intro m j hne
    have hobject : m.object = (s.mappings.get k).object := by
      by_contra hother
      exact hne (by rw [putBank, Mapping.memory_setCells_of_ne bank.cells w hother])
    have hsame (u : World) : m.memory u = s.memory u k := Mapping.memory_congr hobject rfl
    rw [hsame, hsame] at hne
    have hcovers : Extent.Covers ⟨k, start, vs.length⟩ j :=
      Decidable.byContradiction fun hnot => hne (octet_putBank_of_not_covers hwrite hnot)
    exact ⟨hobject, (Nat.le_div_iff_mul_le k.elementSize_pos).mp hcovers.1,
      (Nat.div_lt_iff_lt_mul k.elementSize_pos).mp hcovers.2⟩

/-- However a store was made, and whatever has happened since: each bank is as long as its segment
has room for, up to 65536 elements. No access to a bank, no answer to a frame and no look at the
start of a request slips, and each does what it should. An element is told by its own octets, and
replacing elements changes theirs only. What lies in a segment past its banks stays as it is. -/
theorem accesses_stay_in_banks (h : s.Made w) :
    (∀ k, s.length k = min ((s.mappings.get k).size / k.elementSize) 65536 ∧
      s.length k * k.elementSize ≤ (s.mappings.get k).size ∧
      (s.mappings.get k).size ≤ (s.memory w k).size) ∧
    (∀ a : Access, (a.checked s).run w = .ok ((a.perform s).run w)) ∧
    (∀ start, (Checked.requestLength start).run w = .ok (FrameLength.ofRequest start, w)) ∧
    (∀ k i, (s.bank w k).get? i =
      if i < s.length k then some ((s.memory w k).element k.width i) else none) ∧
    (∀ k i v, s.setElement k i v = s.writeElements k i [v]) ∧
    (∀ k start (vs : List k.width.Value), start + vs.length ≤ s.length k →
      let after := ((s.writeElements k start vs).run w).2
      (∀ i v, vs[i]? = some v → (s.memory after k).element k.width (start + i) = v) ∧
      ∀ (m : Mapping) (j : Nat), (m.memory after).octet j ≠ (m.memory w).octet j →
        m.object = (s.mappings.get k).object ∧
          start * k.elementSize ≤ j ∧ j < (start + vs.length) * k.elementSize) ∧
    ∀ (a : Access) (m : Mapping) (j : Nat),
      (∀ k, (s.mappings.get k).object = m.object → s.length k * k.elementSize ≤ j) →
        (m.memory ((a.perform s).run w).2).octet j = (m.memory w).octet j := by
  have hmapped := h.mapped
  refine ⟨fun k => ⟨rfl, ?_, ?_⟩, fun a => a.checked_run hmapped, Checked.requestLength_run,
    fun k i => get?_bank (hmapped k) i, Access.setElement_eq s,
    fun k start vs hfit => writeElements_exact hmapped hfit,
    fun a m j hj => octet_of_wrote (a.wrote s w) m hj⟩
  · exact Nat.le_trans (s.length_le k) (Nat.min_le_left ..)
  · obtain ⟨size, hsize, segment, hsegment, rfl, -⟩ := hmapped k
    rw [memory, Mapping.memory, hsegment]
    exact hsize

/-- A store that maps three of the four octets of each segment. -/
def overThree : Store :=
  attach (PerBank.ofFn fun k => ⟨BankKind.all.idxOf k, 3, k.suffix, ⟨"/" ++ k.suffix⟩⟩)

/-- Where three octets are mapped there is one register, and the third octet is out of its reach. -/
theorem third_octet_is_out_of_reach :
    overThree.Made fourSegments ∧ overThree.length .holdingRegisters = 1 ∧
      ∀ a : Access,
        (a.checked overThree).run fourSegments = .ok ((a.perform overThree).run fourSegments) ∧
        (overThree.memory ((a.perform overThree).run fourSegments).2 .holdingRegisters).octet 2 =
          (overThree.memory fourSegments .holdingRegisters).octet 2 := by
  have hmade : overThree.Made fourSegments := by
    refine .attached fun k => ⟨4, ?_, { memory := .zeros 4, mode := 0o600 }, ?_, rfl,
      Memory.sound_zeros 4⟩
    · cases k <;> decide
    · cases k <;> rfl
  obtain ⟨-, hchecked, -, -, -, -, hkept⟩ := accesses_stay_in_banks hmade
  refine ⟨hmade, by decide, fun a => ⟨hchecked a, hkept a _ 2 fun k hk => ?_⟩⟩
  cases k <;> first | decide | exact absurd hk (by decide)

end Store
end RtuStation
