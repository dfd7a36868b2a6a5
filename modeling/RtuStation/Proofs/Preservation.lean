import RtuStation.Proofs.CanonicalNames
import RtuStation.Proofs.Leftovers
import RtuStation.Proofs.Outlines
import RtuStation.Proofs.Tokens

/-!
# What bad arguments destroy

An argument that is bad in itself is refused by the setup whatever the surroundings are like. What is
found bad before anything is made changes nothing. The speed, the path of the device and the name of
the semaphore are looked at when the banks have been created; these are given up again, but by then
others have lost to them, under force, the segments that had their names.
-/

namespace RtuStation

/-! ### Refusals -/

namespace BadArgument

/-- The argument is bad in itself, and not for what the system says to it. -/
def inItself : BadArgument → Bool
  | rejected .. | other _ => false
  | _ => true

/-- The setup looks at the argument before it makes anything. -/
def foundEarly : BadArgument → Bool
  | unit _ | bankSize .. | serial _ | timeout .. => true
  | _ => false

end BadArgument

namespace Error

def BadInItself (e : Error) : Prop :=
  ∃ reason, e = .invalidArgument reason ∧ reason.inItself = true

def FoundEarly (e : Error) : Prop :=
  ∃ reason, e = .invalidArgument reason ∧ reason.foundEarly = true

theorem foundEarly_iff {reason : BadArgument} :
    (invalidArgument reason).FoundEarly ↔ reason.foundEarly = true := by
  constructor
  · rintro ⟨_, heq, hearly⟩
    cases heq
    exact hearly
  · intro hearly
    exact ⟨reason, rfl, hearly⟩

theorem FoundEarly.badInItself {e : Error} (h : e.FoundEarly) : e.BadInItself := by
  obtain ⟨reason, rfl, hearly⟩ := h
  refine ⟨reason, rfl, ?_⟩
  cases reason <;> first | rfl | cases hearly

theorem not_badInItself_ofObject (text : String) (fault : Fault) :
    ¬(ofObject text fault).BadInItself := by
  rintro ⟨reason, hreason, hitself⟩
  have hconcerns := ofObject_concerns text fault
  rw [hreason] at hconcerns
  unfold ofObject at hreason
  split at hreason
  · cases hreason
  split at hreason
  · cases hreason
  split at hreason
  · cases hreason
  split at hreason
  · cases hreason
  split at hreason
  · cases hreason
    cases hitself
  · cases hreason

theorem not_foundEarly_ofCheck {text : String} {e : Error} (h : ObjectName.check text = .error e) :
    ¬e.FoundEarly := by
  rintro ⟨reason, rfl, hearly⟩
  unfold ObjectName.check at h
  split at h
  · cases h
    cases hearly
  · cases h

end Error

/-! ### Creating the banks -/

theorem Segment.yields_acquire {text : String} {name : ObjectName} {size permissions : Nat}
    (hname : ObjectName.ofText text = .ok name) (force : Bool) :
    Op.Yields (fun _ => True) (acquire text size (if force then .force else .create) permissions)
      (fun _ _ => True) fun e _ => ¬e.BadInItself := by
  have hany {d : Deed (Except Fault Nat)} : Deed.Ensures (fun _ => True) d fun _ _ => True :=
    fun _ _ => trivial
  unfold acquire
  refine Op.yields_known_bind (ObjectName.check_of_ofText hname) ?_
  cases force
  all_goals
    refine Op.yields_bind (Op.yields_lift hany) fun result => ?_
    cases result with
    | error fault => exact Op.yields_throw fun _ _ => Error.not_badInItself_ofObject text fault
    | ok number => exact Op.yields_pure fun _ _ => trivial

namespace Store

variable {sizes : Sizes} {stem : String} {force : Bool} {permissions : Nat}

/-- Undoing what was done before changes nothing about the error. -/
theorem yields_orUnlink {α : Type} {m : Mapping} {following : Op α} {T : Error → Prop}
    (h : Op.Yields (fun _ => True) following (fun _ _ => True) fun e _ => T e) :
    Op.Yields (fun _ => True) (orUnlink m following) (fun _ _ => True) fun e _ => T e :=
  Op.yields_undoing h fun _ _ hw => hw

theorem yields_acquireAll {acquire : BankKind → Op Mapping} {T : Error → Prop}
    (h : ∀ k, Op.Yields (fun _ => True) (acquire k) (fun _ _ => True) fun e _ => T e) :
    Op.Yields (fun _ => True) (acquireAll acquire) (fun _ _ => True) fun e _ => T e := by
  unfold acquireAll
  refine Op.yields_bind (h _) fun _ => yields_orUnlink ?_
  refine Op.yields_bind (h _) fun _ => yields_orUnlink ?_
  refine Op.yields_bind (h _) fun _ => yields_orUnlink ?_
  exact Op.yields_bind (h _) fun _ => Op.yields_pure fun _ _ => trivial

/-- Only the sizes and the stem can be bad in themselves. -/
theorem yields_create_of_good (hsizes : sizes.check = .ok ())
    (hstem : ∀ k : BankKind, ∃ name, ObjectName.ofText (bankName stem k.suffix) = .ok name) :
    Op.Yields (fun _ => True) (create sizes stem force permissions) (fun _ _ => True)
      fun e _ => ¬e.BadInItself := by
  unfold create
  refine Op.yields_known_bind hsizes ?_
  refine Op.yields_bind (yields_acquireAll fun k => ?_) fun mappings => ?_
  · obtain ⟨name, hname⟩ := hstem k
    exact Segment.yields_acquire hname force
  · have hreport : Op.Yields (fun _ => True) (liftM (report (.banksCreated stem sizes)))
        (fun _ _ => True) fun e _ => ¬e.BadInItself := fun _ _ => trivial
    exact Op.yields_bind hreport fun _ => Op.yields_pure fun _ _ => trivial

/-- A stem that is no stem of names is refused at the first bank, before anything is made. -/
theorem create_of_bad_stem {e : Error} (hsizes : sizes.check = .ok ())
    (hstem : ObjectName.check (bankName stem BankKind.coils.suffix) = .error e) (w : World) :
    (create sizes stem force permissions).run.run w = (.error e, w) := by
  have hyields : Op.Yields (· = w) (create sizes stem force permissions) (fun _ _ => False)
      fun e' after => e' = e ∧ after = w := by
    unfold create acquireAll Segment.acquire
    refine Op.yields_known_bind hsizes ?_
    have hcheck : Op.Yields (· = w)
        (Op.ofExcept (ObjectName.check (bankName stem BankKind.coils.suffix)))
        (fun _ _ => False) fun e' after => e' = e ∧ after = w := by
      rw [hstem]
      exact fun _ hw => ⟨rfl, hw⟩
    exact Op.yields_bind_of_never (Op.yields_bind_of_never (Op.yields_bind_of_never hcheck))
  obtain ⟨e', after, hrun, rfl, rfl⟩ := hyields.exists_error rfl
  exact hrun

end Store

/-! ### Semaphores meanwhile -/

namespace World

/-- The semaphores are still those of an earlier world, and others bring none to another count that
they spare there. -/
structure KeepsSemaphores (before w : World) : Prop where
  semaphores : before.semaphores.Grown before.Spares [] w.semaphores
  brings : ∀ happening ∈ w.agenda, ∀ n count, happening.brings = some (n, count) →
    ¬before.Spares n

theorem KeepsSemaphores.refl (w : World) : w.KeepsSemaphores w :=
  ⟨.refl _ _, fun happening hmem _ count hbrings hspares => hspares happening hmem count hbrings⟩

theorem KeepsSemaphores.since {before w : World} (h : before.KeepsSemaphores w)
    (segments : List ObjectName) (r : Registry Segment)
    (hr : r.Grown (fun _ => True) segments w.segments) :
    Since { before with segments := r } before.Spares segments [] w := ⟨hr, h.semaphores, h.brings⟩

theorem steady_keepsSemaphores (before : World) : Steady before.KeepsSemaphores where
  meets := fun w hw => by
    have hmet := since_meet w (hw.since [] w.segments (.refl _ _))
    exact ⟨hmet.semaphores, hmet.brings⟩
  notices := fun _ _ hw => ⟨hw.semaphores, hw.brings⟩
  adds := fun _ _ _ hw => ⟨hw.semaphores, hw.brings⟩
  removes := fun _ _ hw => ⟨hw.semaphores, hw.brings⟩
  modifies := fun _ _ _ _ hw => ⟨hw.semaphores, hw.brings⟩

end World

namespace Registry

variable {α : Type}

theorem names_removeAll (r : Registry α) (names : List ObjectName) :
    (r.removeAll names).names = r.names.filter fun entry => entry.1 ∉ names := by
  induction names generalizing r with
  | nil => simp [removeAll]
  | cons first names ih =>
    show ((r.remove first).removeAll names).names = _
    rw [ih]
    refine (List.filter_filter ..).trans (List.filter_congr fun entry _ => ?_)
    simp [Bool.and_comm]

/-- A registry has come from the one without some of its names. -/
theorem grown_removeAll (kept : Nat → Prop) (r : Registry α) (names : List ObjectName) :
    (r.removeAll names).Grown kept names r where
  names := (names_removeAll r names).symm
  next := Nat.le_of_eq (next_removeAll r names)
  objects := fun n _ _ => (get?_removeAll r names n).symm

end Registry

/-! ### Banks created and given up again -/

namespace Store

variable {sizes : Sizes} {stem : String} {force : Bool} {permissions : Nat} {before : World}

/-- A store was created, and took names from others under force alone. -/
structure Created (before : World) (sizes : Sizes) (stem : String) (force : Bool)
    (permissions : Nat) (s : Store) (w : World) : Prop where
  built : s.Built before.segments sizes stem permissions w
  semaphores : before.KeepsSemaphores w
  free : force = false → ∀ name ∈ s.names, before.segments.find? name = none

theorem Built.exists_of_mem_names {s : Store} {w : World} {name : ObjectName}
    (h : s.Built before.segments sizes stem permissions w) (hname : name ∈ s.names) :
    ∃ n, before.segments.next ≤ n ∧ w.segments.find? name = some n := by
  obtain ⟨m, hm, rfl⟩ := List.mem_map.mp hname
  obtain ⟨k, -, rfl⟩ := List.mem_map.mp hm
  exact ⟨_, h.fresh k, h.found k⟩

theorem Built.mem_names_iff {s : Store} {w : World} {name : ObjectName}
    (h : s.Built before.segments sizes stem permissions w) :
    name ∈ s.names ↔ name.DenotedBy (bankNames stem BankKind.inputRegisters.upTo) := by
  constructor
  · intro hname
    obtain ⟨m, hm, rfl⟩ := List.mem_map.mp hname
    obtain ⟨k, -, rfl⟩ := List.mem_map.mp hm
    refine ⟨_, List.mem_map_of_mem ?_, h.named k⟩
    cases k <;> decide
  · rintro ⟨text, htext, hname⟩
    obtain ⟨k, -, rfl⟩ := List.mem_map.mp htext
    obtain rfl : (s.mappings.get k).objectName = name :=
      Except.ok.inj ((h.named k).symm.trans hname)
    exact List.mem_map_of_mem (List.mem_map_of_mem (BankKind.mem_all k))

theorem yields_create_created :
    Op.Yields (· = before) (create sizes stem force permissions)
      (Created before sizes stem force permissions) fun _ _ => True := by
  have hkeeps : Op.Yields before.KeepsSemaphores (create sizes stem force permissions)
      (fun _ => before.KeepsSemaphores) fun _ => before.KeepsSemaphores :=
    steady_create (World.steady_keepsSemaphores before)
  have hboth := (yields_create sizes stem force permissions before).and hkeeps
  have hcreated : Op.Yields (· = before) (create sizes stem force permissions)
      (fun s w => s.Built before.segments sizes stem permissions w ∧ before.KeepsSemaphores w)
      fun _ _ => True := by
    refine hboth.mono ?_ (fun _ _ hw => hw) fun _ _ _ => trivial
    rintro w rfl
    exact ⟨rfl, .refl w⟩
  cases force with
  | true => exact hcreated.mono (fun _ hw => hw) (fun _ _ hw => ⟨hw.1, hw.2, nofun⟩) fun _ _ hw => hw
  | false =>
    -- without force, a name that others had would still refer to what it did
    have hgrown : Op.Yields (before.Since (fun _ => False) [] [])
        (create sizes stem false permissions)
        (fun s w => s.Own before ∧ before.Since (fun _ => False) s.names [] w)
        fun _ => before.Since (fun _ => False) [] [] := since_create
    refine (hcreated.and hgrown).mono ?_ (fun s w hw => ⟨hw.1.1, hw.1.2, fun _ name hname => ?_⟩)
      fun _ _ _ => trivial
    · rintro w rfl
      exact ⟨rfl, .refl _ _, .refl _ _, fun _ _ _ _ _ => not_false⟩
    · obtain ⟨n, hnew, hfound⟩ := hw.1.1.exists_of_mem_names hname
      cases hold : before.segments.find? name with
      | none => rfl
      | some old =>
        have hsame := hw.2.2.segments.find?_of_find? hold
        rw [hfound] at hsame
        cases hsame
        exact absurd (Registry.lt_next_of_find? hold) (Nat.not_lt.mpr hnew)

end Store

/-! ### Steps of the setup -/

/-- The error was not found early, and the world stands as it should if the argument was bad in
itself. -/
def Late (start : World) (kept : Nat → Prop) (names : List ObjectName) (e : Error) (w : World) :
    Prop :=
  ¬e.FoundEarly ∧ (e.BadInItself → start.Since kept names [] w)

variable {start : World} {kept : Nat → Prop} {names names' : List ObjectName}

theorem late_undo {d : Deed Unit} (e : Error)
    (h : Deed.Ensures (start.Since kept names []) d fun _ => start.Since kept names' []) :
    Deed.Ensures (Late start kept names e) d fun _ => Late start kept names' e :=
  fun w hw => ⟨hw.1, fun hbad => h w (hw.2 hbad)⟩

theorem Port.yields_openSerial {settings : SerialSettings} (hcheck : settings.check = .ok ())
    (cancel : Nat) :
    Op.Yields (start.Since kept names []) (openSerial settings cancel)
      (fun _ => start.Since kept names []) (Late start kept names) := by
  have hlate : Op.Yields (fun _ => True) (openSerial settings cancel) (fun _ _ => True)
      fun e _ => ¬e.FoundEarly := by
    have hthrow {reason : BadArgument} (h : reason.foundEarly = false) :
        ¬(Error.invalidArgument reason).FoundEarly := by
      rw [Error.foundEarly_iff, h]
      decide
    have hdevice (fault : Fault) : ¬(deviceError settings.device fault).FoundEarly := by
      unfold deviceError
      split
      · exact hthrow rfl
      · exact fun hearly => Error.not_badInItself_ofObject _ _ hearly.badInItself
    have hany {α : Type} {d : Deed α} : Deed.Ensures (fun _ => True) d fun _ _ => True :=
      fun _ _ => trivial
    unfold openSerial
    refine Op.yields_known_bind hcheck ?_
    dsimp only
    split
    · exact Op.yields_throw fun _ _ => hthrow rfl
    split
    · exact Op.yields_bind_of_never (Op.yields_throw fun _ _ => hthrow rfl)
    refine Op.yields_bind (Op.yields_lift hany) fun result => ?_
    cases result with
    | error fault => exact Op.yields_throw fun _ _ => hdevice fault
    | ok line => exact Op.yields_bind (Op.yields_lift hany) fun _ => Op.yields_pure fun _ _ => trivial
  have hsince : Op.Yields (start.Since kept names []) (openSerial settings cancel)
      (fun _ => start.Since kept names []) fun _ => start.Since kept names [] :=
    since_openSerial settings cancel
  exact (hlate.and hsince).mono (fun _ hw => ⟨trivial, hw⟩) (fun _ _ hw => hw.2)
    fun _ _ hw => ⟨hw.1, fun _ => hw.2⟩

theorem Semaphore.late_create {text : String} {value : Nat} {force : Bool} :
    Op.Yields (start.Since kept names []) (create text value force) (fun _ _ => True)
      (Late start kept names) := by
  have hany {d : Deed (Except Fault Nat)} : Deed.Ensures (fun _ => True) d fun _ _ => True :=
    fun _ _ => trivial
  unfold create
  cases hcheck : ObjectName.check text with
  | error e =>
    refine Op.yields_bind_of_never ?_
    exact Op.yields_throw fun w hw => ⟨Error.not_foundEarly_ofCheck hcheck, fun _ => hw⟩
  | ok name =>
    refine Op.yields_known_bind rfl ?_
    cases force
    all_goals
      refine Op.Yields.mono (Op.yields_bind (Op.yields_lift hany) fun result => ?_)
        (fun _ _ => trivial) (fun _ _ hw => hw) fun _ _ hw => hw
      cases result with
      | error fault =>
        have hobject := Error.not_badInItself_ofObject text fault
        exact Op.yields_throw fun _ _ =>
          ⟨fun hearly => hobject hearly.badInItself, fun hbad => absurd hbad hobject⟩
      | ok number => exact Op.yields_pure fun _ _ => trivial

theorem Server.late_enableGuard {s : Server} {name : String} {force : Bool}
    (hbare : s.guard = none) :
    Op.Yields (start.Since kept names []) (s.enableGuard name force {}) (fun _ _ => True)
      (Late start kept names) := by
  have hreport {policy : GuardPolicy} (semaphore : Semaphore) :
      Op.Yields (fun _ => True)
        (do
          liftM (report (.semaphoreCreated name))
          return Guard.ofSemaphore semaphore policy)
        (fun _ _ => True) (Late start kept names) := fun _ _ => trivial
  have hguard : Op.Yields (start.Since kept names []) (Guard.create name force {})
      (fun _ _ => True) (Late start kept names) := by
    unfold Guard.create
    refine Op.yields_known_bind (a := ()) rfl ?_
    exact Op.yields_bind Semaphore.late_create fun semaphore => hreport semaphore
  unfold enableGuard
  rw [hbare]
  exact Op.yields_bind hguard fun _ => Op.yields_pure fun _ _ => trivial

theorem SerialSettings.foundEarly_of_check {settings : SerialSettings} {e : Error}
    (h : settings.check = .error e) : e.FoundEarly := by
  unfold check at h
  split at h
  · cases h
    exact Error.foundEarly_iff.mpr rfl
  · cases h

theorem Sizes.foundEarly_of_check {sizes : Sizes} {e : Error} (h : sizes.check = .error e) :
    e.FoundEarly := by
  obtain ⟨k, -, rfl⟩ := oversized_of_check h
  exact Error.foundEarly_iff.mpr rfl

theorem Station.foundEarly_of_ofUnit {unit : UInt8} {e : Error} (h : ofUnit unit = .error e) :
    e.FoundEarly := by
  unfold ofUnit at h
  split at h
  · cases h
  · cases h
    exact Error.foundEarly_iff.mpr rfl

namespace Program

theorem foundEarly_of_checkTimeout {value : Option Float} {e : Error}
    (h : checkTimeout value = .error e) : e.FoundEarly := by
  unfold checkTimeout Timeout.check at h
  split at h
  · cases h
  split at h
  · cases h
    exact Error.foundEarly_iff.mpr rfl
  · cases h

theorem exists_setting {value : Option Float} {set : Port → Float → Except Error Port} (p : Port)
    (hvalue : checkTimeout value = .ok ())
    (hset : ∀ x t, Timeout.check x = .ok t → ∃ p', set p x = .ok p') :
    ∃ p', setting value p set = .ok p' := by
  cases value with
  | none => exact ⟨p, rfl⟩
  | some x =>
    cases hcheck : Timeout.check x with
    | error e =>
      simp only [checkTimeout, hcheck] at hvalue
      cases hvalue
    | ok t => exact hset x t hcheck

/-- Timeouts that were looked at early are set without fail. -/
theorem yields_settings {byteTimeout responseTimeout : Option Float} {P : World → Prop}
    {T : Error → World → Prop} (p : Port) (hbyte : checkTimeout byteTimeout = .ok ())
    (hresponse : checkTimeout responseTimeout = .ok ()) :
    Op.Yields P
      (do
        let p ← Op.ofExcept (setting byteTimeout p Port.setByteTimeout)
        Op.ofExcept (setting responseTimeout p Port.setResponseTimeout))
      (fun _ => P) T := by
  obtain ⟨first, hfirst⟩ : ∃ first, setting byteTimeout p Port.setByteTimeout = .ok first :=
    exists_setting p hbyte fun x t ht => ⟨{ p with byteTimeout := t }, by
      rw [Port.setByteTimeout, ht]
      rfl⟩
  obtain ⟨second, hsecond⟩ :
      ∃ second, setting responseTimeout first Port.setResponseTimeout = .ok second :=
    exists_setting first hresponse fun x t ht => ⟨{ first with responseTimeout := t }, by
      rw [Port.setResponseTimeout, ht]
      rfl⟩
  refine Op.yields_known_bind hfirst ?_
  rw [hsecond]
  exact Op.yields_pure fun _ hw => hw

variable {o : Options} {before : World}

/-- The banks were created and given up again: their names are free, and they were already if nothing
was to be taken from others. -/
structure GivenUp (o : Options) (before after : World) : Prop
    extends Store.Spared o.stem BankKind.inputRegisters.upTo before after where
  gone : ∀ name, name.DenotedBy (Store.bankNames o.stem BankKind.inputRegisters.upTo) →
    after.segments.find? name = none
  free : o.force = false →
    ∀ name, name.DenotedBy (Store.bankNames o.stem BankKind.inputRegisters.upTo) →
      before.segments.find? name = none
  semaphores : after.semaphores.names = before.semaphores.names
  counts : ∀ n < before.semaphores.next, before.Spares n →
    after.semaphores.get? n = before.semaphores.get? n

/-- How the world stands when the setup has refused an argument that is bad in itself. -/
def Refused (o : Options) (before : World) (e : Error) (after : World) : Prop :=
  e.BadInItself → e.FoundEarly ∧ after = before ∨ ¬e.FoundEarly ∧ GivenUp o before after

theorem yields_early {α : Type} {outcome : Except Error α}
    (h : ∀ e, outcome = .error e → e.FoundEarly) :
    Op.Yields (· = before) (Op.ofExcept outcome) (fun a w => outcome = .ok a ∧ w = before)
      (Refused o before) :=
  Op.yields_ofExcept (fun _ hok _ hw => ⟨hok, hw⟩) fun e herror _ hw _ => .inl ⟨h e herror, hw⟩

theorem GivenUp.of_bad_stem
    (hstem : ∀ name : ObjectName,
      ¬name.DenotedBy (Store.bankNames o.stem BankKind.inputRegisters.upTo)) :
    GivenUp o before before where
  names := fun _ _ => rfl
  objects := fun _ _ => rfl
  gone := fun name hname => absurd hname (hstem name)
  free := fun _ name hname => absurd hname (hstem name)
  semaphores := rfl
  counts := fun _ _ _ => rfl

theorem GivenUp.of_since {s : Store} {w after : World}
    (hcreated : Store.Created before o.sizes o.stem o.force o.permissions s w)
    (h : World.Since { before with segments := w.segments.removeAll s.names } before.Spares [] []
      after) : GivenUp o before after := by
  have hsame := h.segments.sameTable
  have hfind (name : ObjectName) :
      after.segments.find? name = if name ∈ s.names then none else w.segments.find? name :=
    (Registry.find?_of_names hsame.names name).trans (Registry.find?_removeAll ..)
  refine ⟨⟨fun name hname => ?_, fun n hn => ?_⟩, fun name hname => ?_, fun hforce name hname => ?_,
    ?_, h.semaphores.objects⟩
  · rw [hfind, if_neg fun hmem => hname (hcreated.built.mem_names_iff.mp hmem)]
    exact hcreated.built.building.others name hname
  · have hlt : n < (w.segments.removeAll s.names).next := by
      rw [Registry.next_removeAll]
      exact Nat.lt_of_lt_of_le hn hcreated.built.building.next
    exact (hsame.objects n hlt).trans ((Registry.get?_removeAll ..).trans
      (hcreated.built.building.objects n hn))
  · rw [hfind, if_pos (hcreated.built.mem_names_iff.mpr hname)]
  · exact hcreated.free hforce name (hcreated.built.mem_names_iff.mpr hname)
  · have hnames := h.semaphores.names
    rwa [List.filter_eq_self.mpr fun _ _ => by simp] at hnames

theorem yields_create_refused (hsizes : o.sizes.check = .ok ()) :
    Op.Yields (· = before) (Store.create o.sizes o.stem o.force o.permissions)
      (Store.Created before o.sizes o.stem o.force o.permissions) (Refused o before) := by
  have hsame (k l : BankKind)
      (hk : ∃ name, ObjectName.ofText (bankName o.stem k.suffix) = .ok name) :
      ∃ name, ObjectName.ofText (bankName o.stem l.suffix) = .ok name := by
    rw [ObjectName.exists_ofText_iff, BankKind.nameable_bankName_iff] at hk ⊢
    exact hk
  by_cases hstem : ∃ name, ObjectName.ofText (bankName o.stem BankKind.coils.suffix) = .ok name
  · have hgood : Op.Yields (fun _ => True) (Store.create o.sizes o.stem o.force o.permissions)
        (fun _ _ => True) fun e _ => ¬e.BadInItself :=
      Store.yields_create_of_good hsizes fun k => hsame .coils k hstem
    exact (hgood.and Store.yields_create_created).mono (fun _ hw => ⟨trivial, hw⟩)
      (fun _ _ hw => hw.2) fun _ _ hw hbad => absurd hbad hw.1
  · have hnone (name : ObjectName) :
        ¬name.DenotedBy (Store.bankNames o.stem BankKind.inputRegisters.upTo) := by
      rintro ⟨text, htext, hname⟩
      obtain ⟨k, -, rfl⟩ := List.mem_map.mp htext
      exact hstem (hsame k .coils ⟨name, hname⟩)
    cases hcheck : ObjectName.check (bankName o.stem BankKind.coils.suffix) with
    | ok name => exact absurd ⟨name, ObjectName.ofText_of_check hcheck⟩ hstem
    | error e =>
      rintro w rfl
      rw [Store.create_of_bad_stem hsizes hcheck]
      exact fun _ => .inr ⟨Error.not_foundEarly_ofCheck hcheck, .of_bad_stem hnone⟩

theorem yields_setUp (o : Options) (cancel : Nat) (before : World) :
    Op.Yields (· = before) (setUp o cancel) (fun _ _ => True) (Refused o before) := by
  unfold setUp
  refine Op.yields_bind (yields_early fun e he => ?_) fun _ => Op.yields_of_fact fun hserial => ?_
  · exact SerialSettings.foundEarly_of_check he
  refine Op.yields_bind (yields_early fun e he => ?_) fun _ => Op.yields_of_fact fun hsizes => ?_
  · exact Sizes.foundEarly_of_check he
  refine Op.yields_bind (yields_early fun e he => ?_) fun station => Op.yields_of_fact fun _ => ?_
  · exact Station.foundEarly_of_ofUnit he
  refine Op.yields_bind (yields_early fun e he => ?_) fun _ => Op.yields_of_fact fun hbyte => ?_
  · exact foundEarly_of_checkTimeout he
  refine Op.yields_bind (yields_early fun e he => ?_) fun _ => Op.yields_of_fact fun hreply => ?_
  · exact foundEarly_of_checkTimeout he
  refine Op.yields_bind (yields_create_refused hsizes) fun s => ?_
  -- from here on, the world is compared with the one in which the banks' names are free
  refine Op.yields_of_start fun w hcreated => ?_
  let start : World := { before with segments := w.segments.removeAll s.names }
  have hdrop (e : Error) : Deed.Ensures (Late start before.Spares s.names e) s.drop
      fun _ => Late start before.Spares [] e :=
    late_undo e (Store.since_drop hcreated.built.whole.1 hcreated.built.whole.2)
  refine Op.Yields.mono (P := start.Since before.Spares s.names []) ?_ ?_
    (fun _ _ (hw : True) => hw) fun e after (hlate : Late start before.Spares [] e after) hbad => ?_
  · refine Op.yields_bind (R := fun server w => (server.guard = none ∧ server.store = s) ∧
      start.Since before.Spares s.names [] w) (Op.yields_undoing ?_ hdrop) fun server =>
        Op.yields_of_fact fun hserver => ?_
    · refine Op.yields_bind (Port.yields_openSerial hserial cancel) fun port => ?_
      refine Op.yields_bind (Op.yields_undoing (yields_settings port hbyte hreply) fun e =>
        late_undo e (Connection.since_drop _)) fun port => ?_
      exact Op.yields_pure fun _ hw => ⟨⟨rfl, rfl⟩, hw⟩
    · have hgone : Deed.Ensures (start.Since before.Spares s.names []) server.drop
          fun _ => start.Since before.Spares [] [] := by
        unfold Server.drop
        rw [hserver.1, hserver.2]
        exact Deed.ensures_bind (Store.since_drop hcreated.built.whole.1 hcreated.built.whole.2)
          fun _ => server.connection.since_drop
      refine Op.yields_bind (R := fun _ _ => True) (Op.yields_undoing ?_ fun e => late_undo e hgone)
        fun _ => Op.yields_pure fun _ _ => trivial
      split
      · exact Op.yields_pure fun _ _ => trivial
      · exact Server.late_enableGuard hserver.1
  · rintro _ rfl
    exact hcreated.semaphores.since _ _ (Registry.grown_removeAll ..)
  · exact .inr ⟨hlate.1, .of_since hcreated (hlate.2 hbad)⟩

end Program

/-- All that had a name has it still and is as it was, but for the counts of semaphores that others
change meanwhile. -/
structure World.Preserves (w after : World) : Prop where
  segments : ∀ name n, w.segments.find? name = some n →
    after.segments.find? name = some n ∧ after.segments.get? n = w.segments.get? n
  semaphores : ∀ name n, w.semaphores.find? name = some n →
    after.semaphores.find? name = some n ∧
      (w.Spares n → after.semaphores.get? n = w.semaphores.get? n)

namespace Program

variable {o : Options} {cancel : Nat} {w after : World} {reason : BadArgument}

theorem GivenUp.preserves_iff (h : GivenUp o w after) :
    w.Preserves after ↔
      ∀ name : ObjectName,
        name.DenotedBy (Store.bankNames o.stem BankKind.inputRegisters.upTo) →
          w.segments.find? name = none := by
  constructor
  · intro hpreserves name hname
    cases hfound : w.segments.find? name with
    | none => rfl
    | some n =>
      have hstill := (hpreserves.segments name n hfound).1
      rw [h.gone name hname] at hstill
      cases hstill
  · intro hfree
    refine ⟨fun name n hfound => ?_, fun name n hfound => ?_⟩
    · have hother : ¬name.DenotedBy (Store.bankNames o.stem BankKind.inputRegisters.upTo) := by
        intro hname
        rw [hfree name hname] at hfound
        cases hfound
      exact ⟨(h.names name hother).trans hfound, h.objects n (Registry.lt_next_of_find? hfound)⟩
    · exact ⟨(Registry.find?_of_names h.semaphores name).trans hfound,
        h.counts n (Registry.lt_next_of_find? hfound)⟩

/-- When the setup refuses an argument that is bad in itself, what had a name before is preserved if
and only if the argument was looked at before anything was made, nothing was to be taken from others,
or no bank's name was in use. In the first case the world is as it was. -/
theorem data_survives_iff
    (hrun : (setUp o cancel).run.run w = (.error (.invalidArgument reason), after))
    (hitself : reason.inItself = true) :
    (reason.foundEarly = true → after = w) ∧
      (w.Preserves after ↔ reason.foundEarly = true ∨ o.force = false ∨
        ∀ name : ObjectName,
          name.DenotedBy (Store.bankNames o.stem BankKind.inputRegisters.upTo) →
            w.segments.find? name = none) := by
  have hrefused : Refused o w (.invalidArgument reason) after := by
    have hsetUp := yields_setUp o cancel w w rfl
    rw [hrun] at hsetUp
    exact hsetUp
  obtain ⟨hearly, hsame⟩ | ⟨hnot, hgiven⟩ := hrefused ⟨reason, rfl, hitself⟩
  · rw [Error.foundEarly_iff] at hearly
    subst hsame
    have hrefl : after.Preserves after := ⟨fun _ _ h => ⟨h, rfl⟩, fun _ _ h => ⟨h, fun _ => rfl⟩⟩
    exact ⟨fun _ => rfl, fun _ => .inl hearly, fun _ => hrefl⟩
  · rw [Error.foundEarly_iff] at hnot
    refine ⟨fun hearly => absurd hearly hnot, fun hpreserves => ?_, fun hcases => ?_⟩
    · exact .inr (.inr (hgiven.preserves_iff.mp hpreserves))
    · rcases hcases with hearly | hforce | hfree
      · exact absurd hearly hnot
      · exact hgiven.preserves_iff.mpr (hgiven.free hforce)
      · exact hgiven.preserves_iff.mpr hfree

/-- Somebody else has a segment under the name of the first bank of the stem. -/
def firstTaken : World where
  segments := Registry.empty.add ⟨"/pDO"⟩ { memory := .zeros 2, mode := 0o600 }

/-- Options that ask for a speed that no terminal has. -/
def oddSpeed (stem : String) (force : Bool) : Options where
  serial := { device := "/dev/null", baud := 12345 }
  unit := 1
  stem := stem
  sizes := PerBank.ofFn fun _ => 1
  force := force

theorem setUp_oddSpeed (stem : String) (force : Bool)
    (h : ((setUp (oddSpeed stem force) 0).run.run firstTaken).1.map (fun _ => ()) =
      .error (.invalidArgument (.speed "/dev/null" 12345))) :
    (setUp (oddSpeed stem force) 0).run.run firstTaken =
      (.error (.invalidArgument (.speed "/dev/null" 12345)),
        ((setUp (oddSpeed stem force) 0).run.run firstTaken).2) := by
  generalize (setUp (oddSpeed stem force) 0).run.run firstTaken = course at h
  obtain ⟨e | s, after⟩ := course
  · cases h
    rfl
  · cases h

theorem odd_speed_without_force :
    ∃ after, (setUp (oddSpeed "q" false) 0).run.run firstTaken =
        (.error (.invalidArgument (.speed "/dev/null" 12345)), after) ∧
      firstTaken.Preserves after := by
  have hrun := setUp_oddSpeed "q" false (by decide +kernel)
  exact ⟨_, hrun, (data_survives_iff hrun rfl).2.mpr (.inr (.inl rfl))⟩

theorem odd_speed_by_force :
    ∃ after, (setUp (oddSpeed "p" true) 0).run.run firstTaken =
        (.error (.invalidArgument (.speed "/dev/null" 12345)), after) ∧
      after.segments.find? ⟨"/pDO"⟩ = none ∧ ¬firstTaken.Preserves after := by
  have hrun := setUp_oddSpeed "p" true (by decide +kernel)
  have hgone : ((setUp (oddSpeed "p" true) 0).run.run firstTaken).2.segments.find? ⟨"/pDO"⟩ =
      none := by decide +kernel
  refine ⟨_, hrun, hgone, fun hpreserves => ?_⟩
  have hstill := (hpreserves.segments ⟨"/pDO"⟩ 0 (by decide)).1
  rw [hgone] at hstill
  cases hstill

end Program
end RtuStation
