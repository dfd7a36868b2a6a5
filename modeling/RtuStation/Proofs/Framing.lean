import RtuStation.World.Line

/-!
# Where requests end

The requests of the served functions tell their length, at a fixed place or by their function alone.
`Whole` says that a frame has the length it tells. The framing of requests cuts such frames exactly:
on each proper start of one it asks for more octets, but for no more than the frame has, and on the
frame itself it is satisfied.
-/

namespace RtuStation

/-- A frame of a served function that has the length it tells: a fixed one, or one that follows from
the octet that counts the payload. -/
inductive Stated : Octets → Prop
  | fixed {unit code : UInt8} {body : Octets} :
      code ∈ [0x01, 0x02, 0x03, 0x04, 0x05, 0x06] → body.length = 6 → Stated (unit :: code :: body)
  | counted {unit code count : UInt8} {block body : Octets} :
      code ∈ [0x0F, 0x10] → block.length = 4 → body.length = count.toNat + 2 →
        Stated (unit :: code :: (block ++ count :: body))
  | reportServerId {unit : UInt8} {check : Octets} :
      check.length = 2 → Stated (unit :: 0x11 :: check)
  | maskWriteRegister {unit : UInt8} {body : Octets} :
      body.length = 8 → Stated (unit :: 0x16 :: body)
  | writeReadRegisters {unit count : UInt8} {blocks body : Octets} :
      blocks.length = 8 → body.length = count.toNat + 2 →
        Stated (unit :: 0x17 :: (blocks ++ count :: body))

/-- A frame that has the length it tells and is no longer than any frame may be. -/
structure Whole (frame : Octets) : Prop where
  stated : Stated frame
  fits : frame.length ≤ 256

theorem Stated.two_lt_length {frame : Octets} (h : Stated frame) : 2 < frame.length := by
  cases h <;> simp only [List.length_cons, List.length_append] <;> omega

/-- What the start of a frame tells about its length, as far as the frame is `total` octets long:
the length itself, or that octets are needed that the frame still has. -/
def FrameLength.Foretells (hint : FrameLength) (start : Octets) (total : Nat) : Prop :=
  hint = .exactly total ∨ ∃ n, hint = .atLeast n ∧ start.length < n ∧ n ≤ total

theorem Whole.ne_nil {frame : Octets} (h : Whole frame) : frame ≠ [] :=
  List.ne_nil_of_length_pos (Nat.zero_lt_of_lt h.stated.two_lt_length)

namespace FrameLength

theorem short_or_eq_of_prefix {start body : Octets} {unit code : UInt8}
    (h : start <+: unit :: code :: body) :
    start.length < 2 ∨ ∃ later, start = unit :: code :: later ∧ later <+: body := by
  match start, h with
  | [], _ => exact .inl (by decide)
  | [_], _ => exact .inl (by simp)
  | first :: second :: later, h =>
    obtain ⟨hunit, h⟩ := List.cons_prefix_cons.mp h
    obtain ⟨hcode, h⟩ := List.cons_prefix_cons.mp h
    exact .inr ⟨later, by rw [hunit, hcode], h⟩

theorem foretells_of_short {start : Octets} {total : Nat} (h : start.length < 2)
    (htotal : 2 ≤ total) : (ofRequest start).Foretells start total := by
  match start, h with
  | [], h | [_], h => exact .inr ⟨2, rfl, h, htotal⟩

theorem ofRequest_of_fixed {unit code : UInt8} {start : Octets}
    (h : code ∈ [0x01, 0x02, 0x03, 0x04, 0x05, 0x06]) :
    ofRequest (unit :: code :: start) = .exactly 8 := by
  simp only [List.mem_cons, List.not_mem_nil, or_false] at h
  rcases h with rfl | rfl | rfl | rfl | rfl | rfl <;> rfl

theorem foretells_counted {unit code count : UInt8} {block body start : Octets} {fixed : Nat}
    (hstart : start <+: block ++ count :: body) (hfixed : block.length + 5 = fixed)
    (hfits : fixed + count.toNat ≤ maxFrame) :
    (counted (unit :: code :: start) (block.length + 2) fixed).Foretells (unit :: code :: start)
      (fixed + count.toNat) := by
  unfold counted
  by_cases hlen : block.length < start.length
  · have hcount : (unit :: code :: start)[block.length + 2]? = some count := by
      obtain ⟨rest, hrest⟩ := hstart
      have h : (start ++ rest)[block.length]? = some count := by
        rw [hrest]
        simp
      rwa [List.getElem?_append_left hlen] at h
    rw [hcount]
    left
    simp only [Nat.min_eq_left hfits]
  · have hnone : (unit :: code :: start)[block.length + 2]? = none := by
      simp only [List.getElem?_cons_succ, List.getElem?_eq_none_iff]
      omega
    rw [hnone]
    right
    refine ⟨_, rfl, ?_, ?_⟩
    · simp only [List.length_cons]
      omega
    · omega

theorem foretells_ofRequest {frame start : Octets} (h : Whole frame) (hstart : start <+: frame) :
    (ofRequest start).Foretells start frame.length := by
  have hfits := h.fits
  have hlong := h.stated.two_lt_length
  cases h.stated with
  | fixed hcode hbody =>
    rcases short_or_eq_of_prefix hstart with hshort | ⟨later, rfl, _⟩
    · exact foretells_of_short hshort (by omega)
    · left
      rw [ofRequest_of_fixed hcode]
      simp only [List.length_cons, hbody]
  | @counted unit code count block body hcode hblock hbody =>
    rcases short_or_eq_of_prefix hstart with hshort | ⟨later, rfl, hlater⟩
    · exact foretells_of_short hshort (by omega)
    · have htotal : (unit :: code :: (block ++ count :: body)).length = 9 + count.toNat := by
        simp only [List.length_cons, List.length_append]
        omega
      rw [htotal] at hfits ⊢
      have hcounted := @foretells_counted unit code count block body later 9 hlater
        (by omega) hfits
      rw [hblock] at hcounted
      simp only [List.mem_cons, List.not_mem_nil, or_false] at hcode
      rcases hcode with rfl | rfl <;> exact hcounted
  | reportServerId hcheck =>
    rcases short_or_eq_of_prefix hstart with hshort | ⟨later, rfl, _⟩
    · exact foretells_of_short hshort (by omega)
    · left
      simp only [List.length_cons, hcheck]
      rfl
  | maskWriteRegister hbody =>
    rcases short_or_eq_of_prefix hstart with hshort | ⟨later, rfl, _⟩
    · exact foretells_of_short hshort (by omega)
    · left
      simp only [List.length_cons, hbody]
      rfl
  | @writeReadRegisters unit count blocks body hblocks hbody =>
    rcases short_or_eq_of_prefix hstart with hshort | ⟨later, rfl, hlater⟩
    · exact foretells_of_short hshort (by omega)
    · have htotal : (unit :: 0x17 :: (blocks ++ count :: body)).length = 13 + count.toNat := by
        simp only [List.length_cons, List.length_append]
        omega
      rw [htotal] at hfits ⊢
      have hcounted := @foretells_counted unit 0x17 count blocks body later 13 hlater
        (by omega) hfits
      rw [hblocks] at hcounted
      exact hcounted

/-- A framing cuts a frame exactly: it is satisfied by the frame, and on each proper start it asks for
more octets, but for none behind the frame. -/
structure Cuts (framing : Octets → FrameLength) (frame : Octets) : Prop where
  done : (framing frame).satisfied frame.length = true
  more {start : Octets} : start <+: frame → start.length < frame.length →
    (framing start).satisfied start.length = false ∧ start.length < (framing start).target ∧
      (framing start).target ≤ frame.length

theorem Cuts.eq_of_satisfied {framing : Octets → FrameLength} {frame start : Octets}
    (h : Cuts framing frame) (hstart : start <+: frame)
    (hsatisfied : (framing start).satisfied start.length = true) : start = frame := by
  apply hstart.eq_of_length_le
  apply Nat.le_of_not_lt
  intro hlen
  have hopen := (h.more hstart hlen).1
  rw [hsatisfied] at hopen
  exact Bool.noConfusion hopen

theorem Cuts.room {framing : Octets → FrameLength} {frame start : Octets}
    (h : Cuts framing frame) (hstart : start <+: frame)
    (hopen : ¬(framing start).satisfied start.length = true) :
    start.length < (framing start).target ∧ (framing start).target ≤ frame.length := by
  rcases Nat.lt_or_ge start.length frame.length with hlt | hge
  · exact (h.more hstart hlt).2
  · have heq := hstart.eq_of_length_le hge
    subst heq
    exact absurd h.done hopen

theorem cuts_of_foretells {framing : Octets → FrameLength} {frame : Octets}
    (hfits : frame.length ≤ maxFrame)
    (h : ∀ start, start <+: frame → (framing start).Foretells start frame.length) :
    Cuts framing frame where
  done := by
    rcases h frame (List.prefix_refl frame) with hexact | ⟨n, _, hlow, hhigh⟩
    · rw [hexact]
      exact decide_eq_true (Nat.min_le_left ..)
    · omega
  more := by
    intro start hstart hlen
    rcases h start hstart with hexact | ⟨n, hleast, hlow, hhigh⟩
    · rw [hexact]
      simp only [satisfied, target, Nat.min_eq_left hfits, decide_eq_false_iff_not]
      omega
    · rw [hleast]
      simp only [satisfied, target, Nat.min_eq_left (Nat.le_trans hhigh hfits),
        decide_eq_false_iff_not]
      omega

theorem cuts_ofRequest {frame : Octets} (h : Whole frame) : Cuts ofRequest frame :=
  cuts_of_foretells h.fits fun _ hstart => foretells_ofRequest h hstart

end FrameLength
end RtuStation
