import Mathlib.Order.Bounds.Defs
import Mathlib.Order.Interval.Set.Defs
import RtuStation.Proofs.BankNames

/-!
# Canonical names

A text gives no name if nothing is behind the slash it may start with, or if a slash or a NUL is
there. Any other text gives a name that the system takes as it stands: a slash, and behind it all of
the text if that has 254 octets at most, and else as many of its characters as leave room for the
hash. A name is a text that gives itself, and the four banks of a stem that gives one name have four.
-/

namespace RtuStation

/-! ### Sizes -/

theorem utf8ByteSize_ofList (cs : List Char) : (String.ofList cs).utf8ByteSize = textSize cs := by
  induction cs with
  | nil => rfl
  | cons c cs ih =>
    rw [String.ofList_cons, String.utf8ByteSize_append, String.utf8ByteSize_singleton, ih]
    rfl

theorem textSize_cons (c : Char) (cs : List Char) :
    textSize (c :: cs) = c.utf8Size + textSize cs := rfl

theorem length_textOctets (cs : List Char) : (textOctets cs).length = textSize cs := by
  induction cs with
  | nil => rfl
  | cons c cs ih =>
    rw [textOctets, List.flatMap_cons, List.length_append, String.length_utf8EncodeChar]
    exact congrArg (c.utf8Size + ·) ih

theorem textSize_le_of_isPrefix {start cs : List Char} (h : start <+: cs) :
    textSize start ≤ textSize cs := by
  obtain ⟨later, rfl⟩ := h
  rw [textSize_append]
  omega

theorem textSize_pos {cs : List Char} (h : cs ≠ []) : 0 < textSize cs := by
  cases cs with
  | nil => exact absurd rfl h
  | cons c cs =>
    have hpos := c.utf8Size_pos
    rw [textSize_cons]
    omega

theorem textSize_eq_length {cs : List Char} (h : ∀ c ∈ cs, c.utf8Size = 1) :
    textSize cs = cs.length := by
  induction cs with
  | nil => rfl
  | cons c cs ih =>
    have hc := h c (List.mem_cons_self ..)
    have hcs := ih fun d hd => h d (List.mem_cons_of_mem c hd)
    rw [textSize_cons, List.length_cons]
    omega

/-! ### Cuts -/

theorem fitting_isPrefix (room : Nat) (cs : List Char) : fitting room cs <+: cs := by
  induction cs generalizing room with
  | nil => exact List.nil_prefix
  | cons c cs ih =>
    rw [fitting]
    split
    · exact List.cons_prefix_cons.mpr ⟨rfl, ih _⟩
    · exact List.nil_prefix

theorem textSize_fitting_le (room : Nat) (cs : List Char) : textSize (fitting room cs) ≤ room := by
  induction cs generalizing room with
  | nil => exact Nat.zero_le _
  | cons c cs ih =>
    rw [fitting]
    split
    · have htail := ih (room - c.utf8Size)
      rw [textSize_cons]
      omega
    · exact Nat.zero_le _

/-- No longer start of the text fits. -/
theorem prefix_fitting {room : Nat} {start cs : List Char} (h : start <+: cs)
    (hsize : textSize start ≤ room) : start <+: fitting room cs := by
  induction cs generalizing room start with
  | nil =>
    rw [List.prefix_nil.mp h]
    exact List.nil_prefix
  | cons c cs ih =>
    rcases List.prefix_cons_iff.mp h with rfl | ⟨later, rfl, hlater⟩
    · exact List.nil_prefix
    · rw [textSize_cons] at hsize
      rw [fitting, if_pos (by omega)]
      exact List.cons_prefix_cons.mpr ⟨rfl, ih hlater (by omega)⟩

/-! ### Digits -/

theorem Fnv.plain_of_mem_hexDigits {n x : Nat} {c : Char} (h : c ∈ hexDigits n x) :
    c ≠ '/' ∧ c ≠ '\x00' ∧ c.utf8Size = 1 := by
  induction n generalizing x with
  | zero => cases h
  | succ n ih =>
    rw [hexDigits, List.mem_append, List.mem_singleton] at h
    rcases h with h | rfl
    · exact ih h
    · have hdigit : ∀ d : Fin 16, (Octets.hexDigit d).toLower ≠ '/' ∧
          (Octets.hexDigit d).toLower ≠ '\x00' ∧ (Octets.hexDigit d).toLower.utf8Size = 1 := by
        decide
      exact hdigit ⟨x % 16, Nat.mod_lt _ (by omega)⟩

theorem Fnv.textSize_digits (h : UInt64) : textSize (digits h) = 16 := by
  have hsize : textSize (digits h) = (digits h).length :=
    textSize_eq_length fun c hc => (plain_of_mem_hexDigits hc).2.2
  rw [hsize, digits, length_hexDigits]

namespace ObjectName

/-! ### Forms -/

/-- The form of the name of a text: the text itself, or as many whole characters of it as fit,
closed with the hash. -/
inductive Form (body : List Char) : List Char → Prop
  | whole : textSize body ≤ 254 → Form body ('/' :: body)
  | shortened {head : List Char} :
      254 < textSize body → head <+: body → textSize head ≤ 237 →
        (∀ start, start <+: body → textSize start ≤ 237 → start <+: head) →
        Form body ('/' :: (head ++ '_' :: Fnv.digits (Fnv.hash (textOctets ('/' :: body)))))

variable {body name : List Char}

theorem canonical_of_le (h : textSize body ≤ 254) : canonical body = '/' :: body := by
  have hslash : '/'.utf8Size = 1 := rfl
  have hmax : maxName = 255 := rfl
  rw [canonical, if_pos]
  rw [textSize_cons]
  omega

theorem form_canonical (body : List Char) : Form body (canonical body) := by
  by_cases h : textSize body ≤ 254
  · rw [canonical_of_le h]
    exact .whole h
  · have hslash : '/'.utf8Size = 1 := rfl
    have hmax : maxName = 255 := rfl
    rw [canonical, if_neg]
    · exact .shortened (by omega) (fitting_isPrefix _ _) (textSize_fitting_le _ _)
        fun start => prefix_fitting
    · rw [textSize_cons]
      omega

theorem Form.size (h : Form body name) (hbody : body ≠ []) :
    2 ≤ textSize name ∧ textSize name ≤ 255 := by
  have hslash : '/'.utf8Size = 1 := rfl
  cases h with
  | whole hle =>
    have hpos := textSize_pos hbody
    rw [textSize_cons]
    omega
  | shortened _ _ hhead _ =>
    have hunderscore : '_'.utf8Size = 1 := rfl
    rw [textSize_cons, textSize_append, textSize_cons, Fnv.textSize_digits]
    omega

theorem Form.not_mem_tail {c : Char} (h : Form body name) (hc : c = '/' ∨ c = '\x00')
    (hbody : c ∉ body) : c ∉ name.tail := by
  cases h with
  | whole => exact hbody
  | shortened _ hstart _ _ =>
    intro hmem
    rw [List.tail_cons, List.mem_append, List.mem_cons] at hmem
    rcases hmem with hmem | rfl | hmem
    · exact hbody (hstart.subset hmem)
    · revert hc
      decide
    · obtain ⟨hslash, hnul, -⟩ := Fnv.plain_of_mem_hexDigits hmem
      exact hc.elim hslash hnul

theorem Form.plain (h : Form body name) (hslash : '/' ∉ body) (hnul : '\x00' ∉ body) :
    ∃ rest, name = '/' :: rest ∧ '/' ∉ rest ∧ '\x00' ∉ rest := by
  have hname : name = '/' :: name.tail := by
    cases h <;> rfl
  exact ⟨name.tail, hname, h.not_mem_tail (.inl rfl) hslash, h.not_mem_tail (.inr rfl) hnul⟩

/-- The octets after which a character of the text ends. -/
def boundaries (cs : List Char) : Set Nat := {n | ∃ start, start <+: cs ∧ textSize start = n}

/-- A name that is cut keeps the octets of the text up to the last boundary within the room. -/
theorem Form.octets (h : Form body name) (hlong : 254 < textSize body) :
    ∃ cut, IsGreatest (boundaries body ∩ Set.Iic 237) cut ∧
      textOctets name = textOctets ['/'] ++ (textOctets body).take cut ++
        textOctets ('_' :: Fnv.digits (Fnv.hash (textOctets ('/' :: body)))) := by
  cases h with
  | whole hle => omega
  | @shortened head _ hstart hfits hlongest =>
    refine ⟨textSize head, ⟨⟨⟨head, hstart, rfl⟩, hfits⟩, ?_⟩, ?_⟩
    · rintro n ⟨⟨start, hstart', rfl⟩, hn⟩
      exact textSize_le_of_isPrefix (hlongest start hstart' hn)
    · have hhead : textOctets head = (textOctets body).take (textSize head) := by
        obtain ⟨later, hbody⟩ := hstart
        rw [← hbody, textOctets_append, ← length_textOctets head, List.take_left]
      rw [← hhead, ← textOctets_append, ← textOctets_append]
      rfl

/-! ### Names of texts -/

/-- What is behind the slash of a text that gives a name. -/
def Nameable (body : List Char) : Prop := body ≠ [] ∧ '/' ∉ body ∧ '\x00' ∉ body

instance : DecidablePred Nameable := fun body =>
  inferInstanceAs (Decidable (body ≠ [] ∧ '/' ∉ body ∧ '\x00' ∉ body))

theorem ofText_eq_ok_iff {text : String} {name : ObjectName} :
    ofText text = .ok name ↔
      Nameable (remainder text.toList) ∧
        name = ⟨String.ofList (canonical (remainder text.toList))⟩ := by
  unfold ofText Nameable
  simp only
  split
  · next hempty =>
    rw [List.isEmpty_iff] at hempty
    simp [hempty]
  · next hempty =>
    rw [List.isEmpty_iff] at hempty
    split
    · next hbad =>
      rw [Bool.or_eq_true, List.contains_iff_mem, List.contains_iff_mem] at hbad
      constructor
      · intro h
        cases h
      · rintro ⟨⟨-, hslash, hnul⟩, -⟩
        exact absurd hbad (not_or.mpr ⟨hslash, hnul⟩)
    · next hgood =>
      rw [Bool.or_eq_true, List.contains_iff_mem, List.contains_iff_mem, not_or] at hgood
      constructor
      · intro h
        cases h
        exact ⟨⟨hempty, hgood⟩, rfl⟩
      · rintro ⟨-, rfl⟩
        rfl

theorem exists_ofText_iff {text : String} :
    (∃ name, ofText text = .ok name) ↔ Nameable (remainder text.toList) := by
  constructor
  · rintro ⟨name, h⟩
    exact (ofText_eq_ok_iff.mp h).1
  · intro h
    exact ⟨_, ofText_eq_ok_iff.mpr ⟨h, rfl⟩⟩

theorem exists_error_iff {text : String} :
    (∃ refusal, ofText text = .error refusal) ↔ ¬Nameable (remainder text.toList) := by
  rw [← exists_ofText_iff]
  cases ofText text with
  | error refusal => simp
  | ok name => simp

theorem toList_of_ofText {text : String} {name : ObjectName} (h : ofText text = .ok name) :
    name.text.toList = canonical (remainder text.toList) := by
  rw [text_of_ofText h, String.toList_ofList]

/-- A name is a text that gives itself. -/
theorem ofText_text {text : String} {name : ObjectName} (h : ofText text = .ok name) :
    ofText name.text = .ok name := by
  obtain ⟨⟨hne, hslash, hnul⟩, hname⟩ := ofText_eq_ok_iff.mp h
  have hform := form_canonical (remainder text.toList)
  have hsize := (hform.size hne).2
  have hpos := (hform.size hne).1
  obtain ⟨rest, hrest, hslash', hnul'⟩ := hform.plain hslash hnul
  have hremainder : remainder name.text.toList = rest := by
    rw [toList_of_ofText h, hrest]
    rfl
  rw [hrest, textSize_cons] at hsize hpos
  have hone : '/'.utf8Size = 1 := rfl
  rw [ofText_eq_ok_iff, hremainder, canonical_of_le (by omega), ← hrest]
  refine ⟨⟨?_, hslash', hnul'⟩, hname⟩
  rintro rfl
  rw [hone] at hpos
  exact absurd hpos (by decide)

theorem ofText_slash {text : String} (h : text.toList.head? ≠ some '/') :
    ofText ("/" ++ text) = ofText text := by
  have hsame : remainder text.toList = text.toList := by
    cases hlist : text.toList with
    | nil => rfl
    | cons c cs =>
      rw [hlist] at h
      apply remainder_of_ne
      rintro rfl
      exact h rfl
  have hslash : remainder ("/" ++ text).toList = text.toList := by
    rw [String.toList_append]
    rfl
  unfold ofText
  simp only [hsame, hslash]

/-- Texts that need no cut have the same name if and only if they are the same but for a slash. -/
theorem ofText_eq_iff {text other : String} {name name' : ObjectName}
    (h : ofText text = .ok name) (h' : ofText other = .ok name')
    (hsize : textSize (remainder text.toList) ≤ 254)
    (hsize' : textSize (remainder other.toList) ≤ 254) :
    name = name' ↔ remainder text.toList = remainder other.toList := by
  have hlist := toList_of_ofText h
  have hlist' := toList_of_ofText h'
  rw [canonical_of_le hsize] at hlist
  rw [canonical_of_le hsize'] at hlist'
  constructor
  · rintro rfl
    rw [hlist] at hlist'
    exact (List.cons.inj hlist').2
  · intro heq
    rw [(ofText_eq_ok_iff.mp h).2, (ofText_eq_ok_iff.mp h').2, heq]

/-- What a text with `body` behind its slash has for a name. -/
structure Canonical (body : List Char) (name : ObjectName) : Prop where
  form : Form body name.text.toList
  plain : ∃ rest, name.text.toList = '/' :: rest ∧ '/' ∉ rest ∧ '\x00' ∉ rest
  size : 2 ≤ name.text.utf8ByteSize ∧ name.text.utf8ByteSize ≤ 255
  octets : 254 < textSize body → ∃ cut, IsGreatest (boundaries body ∩ Set.Iic 237) cut ∧
    textOctets name.text.toList = textOctets ['/'] ++ (textOctets body).take cut ++
      textOctets ('_' :: Fnv.digits (Fnv.hash (textOctets ('/' :: body))))
  self : ofText name.text = .ok name

theorem canonical_of_ofText {text : String} {name : ObjectName} (h : ofText text = .ok name) :
    Canonical (remainder text.toList) name := by
  obtain ⟨⟨hne, hslash, hnul⟩, -⟩ := ofText_eq_ok_iff.mp h
  have hform := form_canonical (remainder text.toList)
  have hsize := hform.size hne
  rw [← toList_of_ofText h] at hform
  rw [← utf8ByteSize_ofList, ← text_of_ofText h] at hsize
  exact ⟨hform, hform.plain hslash hnul, hsize, hform.octets, ofText_text h⟩

/-- A text gives a name if and only if something without a slash and without a NUL is behind the
slash it may start with. The name starts with the only slash in it, holds no NUL, has 2 to 255
octets and only whole characters of the text, and gives itself. A slash in front of a text makes no
difference, and texts that need no cut are told apart by their names. -/
theorem names_are_canonical (text : String) :
    ((∃ refusal, ofText text = .error refusal) ↔
        remainder text.toList = [] ∨ '/' ∈ remainder text.toList ∨
          '\x00' ∈ remainder text.toList) ∧
      (∀ name, ofText text = .ok name → Canonical (remainder text.toList) name) ∧
      (text.toList.head? ≠ some '/' → ofText ("/" ++ text) = ofText text) ∧
      ∀ other name name', ofText text = .ok name → ofText other = .ok name' →
        textSize (remainder text.toList) ≤ 254 → textSize (remainder other.toList) ≤ 254 →
        (name = name' ↔ remainder text.toList = remainder other.toList) := by
  refine ⟨?_, fun name => canonical_of_ofText, ofText_slash, fun other name name' => ofText_eq_iff⟩
  rw [exists_error_iff, Nameable, not_and_or, not_and_or, not_not, not_not, not_not]

/-- A text that is cut one octet short of the room, for the next character has two. -/
def accented : List Char := List.replicate 236 'x' ++ List.replicate 10 'é'

theorem accented_is_shortened :
    (∃ name, ofText (String.ofList accented) = .ok name ∧ name.text.utf8ByteSize = 254 ∧
        ofText name.text = .ok name) ∧
      ofText ("/" ++ String.ofList accented) = ofText (String.ofList accented) := by
  have hbody : remainder accented = accented := by decide +kernel
  have hnameable : Nameable accented := by decide +kernel
  have hsize : textSize (canonical accented) = 254 := by decide +kernel
  have hhead : accented.head? ≠ some '/' := by decide +kernel
  obtain ⟨-, hnamed, hslash, -⟩ := names_are_canonical (String.ofList accented)
  simp only [String.toList_ofList, hbody] at hnamed hslash
  obtain ⟨name, h⟩ : ∃ name, ofText (String.ofList accented) = .ok name := by
    rw [exists_ofText_iff, String.toList_ofList, hbody]
    exact hnameable
  refine ⟨⟨name, h, ?_, (hnamed name h).self⟩, hslash hhead⟩
  rw [text_of_ofText h, utf8ByteSize_ofList, String.toList_ofList, hbody, hsize]

end ObjectName

/-! ### Banks -/

namespace BankKind

theorem nameable_bankName_iff (stem : String) (k : BankKind) :
    ObjectName.Nameable (ObjectName.remainder (bankName stem k.suffix).toList) ↔
      '/' ∉ ObjectName.remainder stem.toList ∧ '\x00' ∉ ObjectName.remainder stem.toList := by
  have hsuffix : '/' ∉ k.suffix.toList ∧ '\x00' ∉ k.suffix.toList ∧ k.suffix.toList ≠ [] := by
    cases k <;> decide
  obtain ⟨hslash, hnul, hne⟩ := hsuffix
  rw [remainder_bankName, ObjectName.Nameable, List.mem_append, List.mem_append, not_or, not_or]
  constructor
  · rintro ⟨-, hstem, hstem'⟩
    exact ⟨hstem.1, hstem'.1⟩
  · rintro ⟨hstem, hstem'⟩
    exact ⟨List.append_ne_nil_of_right_ne_nil _ hne, ⟨hstem, hslash⟩, hstem', hnul⟩

/-- If a stem gives the coils a name, it gives names to all four banks, and no two of them have the
same one, however long the stem is. -/
theorem four_names_of_stem {stem : String} {name : ObjectName}
    (h : ObjectName.ofText (bankName stem coils.suffix) = .ok name) :
    ∃ names : BankKind → ObjectName,
      (∀ k, ObjectName.ofText (bankName stem k.suffix) = .ok (names k)) ∧
        ∀ k l, k ≠ l → names k ≠ names l := by
  have hstem := (nameable_bankName_iff stem coils).mp (ObjectName.exists_ofText_iff.mp ⟨name, h⟩)
  have haccepted (k : BankKind) :
      ∃ name, ObjectName.ofText (bankName stem k.suffix) = .ok name :=
    ObjectName.exists_ofText_iff.mpr ((nameable_bankName_iff stem k).mpr hstem)
  choose names hnames using haccepted
  refine ⟨names, hnames, ?_⟩
  intro k l hne heq
  have hl := hnames l
  rw [← heq] at hl
  exact hne (eq_of_ofText_bankName (hnames k) hl)

/-- A stem so long that all four names are cut. -/
def longStem : List Char := List.replicate 300 'é'

theorem four_names_of_long_stem :
    ∃ names : BankKind → ObjectName,
      (∀ k, ObjectName.ofText (bankName (String.ofList longStem) k.suffix) = .ok (names k)) ∧
        (∀ k l, k ≠ l → names k ≠ names l) ∧
        ∀ k, (names k).text.toList.take 119 = '/' :: longStem.take 118 := by
  have hstem : ObjectName.remainder longStem = longStem := by decide +kernel
  have hbody (k : BankKind) :
      ObjectName.remainder (bankName (String.ofList longStem) k.suffix).toList =
        longStem ++ k.suffix.toList := by
    rw [remainder_bankName, String.toList_ofList, hstem]
  have hnameable : ObjectName.Nameable (longStem ++ coils.suffix.toList) := by decide +kernel
  rw [← hbody] at hnameable
  obtain ⟨name, h⟩ := ObjectName.exists_ofText_iff.mpr hnameable
  obtain ⟨names, hnames, hne⟩ := four_names_of_stem h
  refine ⟨names, hnames, hne, ?_⟩
  intro k
  rw [ObjectName.toList_of_ofText (hnames k), hbody]
  cases k <;> decide +kernel

end BankKind
end RtuStation
