import RtuStation.Program
import RtuStation.Proofs.Belongings
import RtuStation.Proofs.Courses

/-!
# What the program leaves behind

Whichever step of the setup fails, and however the session ends, the program gives up all that it has
made. A session changes nothing but the objects that belong to the server: the segments of its store
and the semaphore of its guard. Unless it is told to take names from others, the program thus leaves
the named objects of its surroundings as it found them.
-/

namespace RtuStation

variable {start : World} {kept : Nat → Prop} {segments semaphores : List ObjectName}

/-! ### Lines -/

theorem since_changeLine (number : Nat) (f : Line → Line) :
    Deed.Keeps (start.Since kept segments semaphores) (changeLine number f) :=
  since_modify fun _ => ⟨rfl, rfl, rfl⟩

namespace Port

theorem since_setUpTerminal (settings : SerialSettings) (code line : Nat) (found : TerminalSettings)
    (switchable : Bool) :
    Deed.Keeps (start.Since kept segments semaphores)
      (setUpTerminal settings code line found switchable) := by
  unfold setUpTerminal
  refine Deed.keeps_bind (since_modify fun _ => ⟨rfl, rfl, rfl⟩) fun _ => ?_
  split
  · exact Deed.keeps_pure
  · exact Deed.keeps_bind (since_changeLine _ _) fun _ => Deed.keeps_pure

theorem since_openDevice (settings : SerialSettings) (code : Nat) :
    Deed.Keeps (start.Since kept segments semaphores) (openDevice settings code) := by
  unfold openDevice
  refine Deed.keeps_bind since_meetDescriptor fun fault => ?_
  cases fault with
  | some e => exact Deed.keeps_pure
  | none =>
    refine Deed.keeps_bind Deed.keeps_get fun v => ?_
    split
    case h_6 =>
      refine Deed.keeps_bind (fun w hw => ?_) fun line => since_setUpTerminal _ _ _ _ _
      exact hw.congr rfl rfl rfl
    case h_7 => exact since_setUpTerminal _ _ _ _ _
    all_goals exact Deed.keeps_pure

theorem since_openSerial (settings : SerialSettings) (cancel : Nat) :
    Op.Keeps (start.Since kept segments semaphores) (openSerial settings cancel) := by
  unfold openSerial
  refine Op.keeps_bind (Op.keeps_ofExcept _) fun _ => ?_
  dsimp only
  split
  · exact Op.keeps_throw
  split
  · exact Op.ensures_throw_bind fun _ hw => hw
  refine Op.keeps_bind (Op.keeps_lift (since_openDevice _ _)) fun result => ?_
  cases result with
  | error fault => exact Op.keeps_throw
  | ok line =>
    exact Op.keeps_bind (Op.keeps_lift (since_report _)) fun _ => Op.keeps_pure

theorem since_receive (framing : Octets → FrameLength) (p : Port) :
    Deed.Keeps (start.Since kept segments semaphores) (p.receive framing) := by
  have hconclude (r : Intake) :
      Deed.Keeps (start.Since kept segments semaphores) (p.conclude framing r) := by
    unfold conclude
    split
    case h_3 =>
      split
      · exact Deed.keeps_bind (since_report _) fun _ => Deed.keeps_pure
      · exact Deed.keeps_pure
    all_goals exact Deed.keeps_pure
  unfold receive
  split
  · exact Deed.keeps_pure
  refine Deed.ensures_bind Deed.ensures_get fun v => ?_
  refine Deed.ensures_bind (fun w hw => ?_) fun _ => hconclude _
  obtain ⟨rfl, hsince⟩ := hw
  exact hsince.congr rfl rfl rfl

theorem since_send (frame : Octets) (p : Port) :
    Deed.Keeps (start.Since kept segments semaphores) (p.send frame) := by
  intro w hw
  rw [send_run]
  exact hw.congr rfl rfl rfl

end Port

namespace Script

theorem since_raiseFlag (number : Nat) :
    Deed.Keeps (start.Since kept segments semaphores) (raiseFlag number) :=
  since_modify fun _ => ⟨rfl, rfl, rfl⟩

theorem since_receive (s : Script) :
    Deed.Keeps (start.Since kept segments semaphores) s.receive := by
  unfold receive
  split
  · exact Deed.keeps_pure
  · next cancels cue later _ =>
    cases cancels with
    | true =>
      refine Deed.keeps_bind (since_raiseFlag _) fun _ => ?_
      cases cue <;> exact Deed.keeps_pure
    | false => cases cue <;> exact Deed.keeps_pure

theorem since_send (frame : Octets) (s : Script) :
    Deed.Keeps (start.Since kept segments semaphores) (s.send frame) := by
  unfold send
  split
  · exact Deed.keeps_pure
  · next cancels failure later _ =>
    cases cancels with
    | true =>
      refine Deed.keeps_bind (since_raiseFlag _) fun _ => ?_
      cases failure <;> exact Deed.keeps_pure
    | false => cases failure <;> exact Deed.keeps_pure

end Script

namespace Connection

theorem since_receive (framing : Octets → FrameLength) (c : Connection) :
    Deed.Keeps (start.Since kept segments semaphores) (c.receive framing) := by
  cases c with
  | port p => exact Deed.keeps_bind (p.since_receive framing) fun _ => Deed.keeps_pure
  | script s => exact Deed.keeps_bind s.since_receive fun _ => Deed.keeps_pure

theorem since_send (frame : Octets) (c : Connection) :
    Deed.Keeps (start.Since kept segments semaphores) (c.send frame) := by
  cases c with
  | port p => exact Deed.keeps_bind (p.since_send frame) fun _ => Deed.keeps_pure
  | script s => exact Deed.keeps_bind (s.since_send frame) fun _ => Deed.keeps_pure

theorem since_drop (c : Connection) : Deed.Keeps (start.Since kept segments semaphores) c.drop := by
  cases c with
  | port p => exact since_changeLine _ _
  | script s => exact Deed.keeps_pure

end Connection

/-! ### Servers -/

theorem Store.since_execute {store : Store} (hown : store.Own start) (engine : Engine)
    (frame : Octets) :
    Deed.Keeps (start.Since kept segments semaphores) (store.execute engine frame) := by
  have hput {width : Width} (k : BankKind) (bank : Bank width) :
      Deed.Keeps (start.Since kept segments semaphores) (store.putBank k bank) :=
    Deed.keeps_modify fun _ hw =>
      ⟨hw.segments.modify (.inl (hown.mappings k).fresh) _, hw.semaphores, hw.brings⟩
  have happly (change : Change) :
      Deed.Keeps (start.Since kept segments semaphores) (store.apply change) := by
    cases change with
    | nothing => exact Deed.keeps_pure
    | coils | holdingRegisters => exact hput _ _
  unfold execute
  refine Deed.keeps_bind Deed.keeps_get fun v => ?_
  dsimp only
  split
  · refine Deed.keeps_bind (since_report _) fun _ => ?_
    exact Deed.keeps_bind (happly _) fun _ => Deed.keeps_pure
  · exact Deed.keeps_bind (happly _) fun _ => Deed.keeps_pure

namespace Server

def semaphoreNames (s : Server) : List ObjectName :=
  s.guard.toList.map (·.semaphore.objectName)

/-- The world has come from `start`, and the names in it that were not there are those of the
server's own segments and of its own semaphore. -/
def Stands (start : World) (kept : Nat → Prop) (s : Server) (w : World) : Prop :=
  (s.store.Own start ∧ ∀ g, s.guard = some g → g.semaphore.Own start) ∧
    start.Since kept s.store.names s.semaphoreNames w

variable {s : Server}

theorem stands_of_since {α : Type} {d : Deed α}
    (h : Deed.Ensures (start.Since kept s.store.names s.semaphoreNames) d fun _ =>
      start.Since kept s.store.names s.semaphoreNames) :
    Deed.Keeps (s.Stands start kept) d :=
  fun w hw => ⟨hw.1, h w hw.2⟩

theorem stands_of_semaphore {g g' : Guard} {w : World} (hguard : s.guard = some g)
    (hsame : g'.semaphore = g.semaphore) (h : s.Stands start kept w) :
    Stands start kept { s with guard := some g' } w := by
  obtain ⟨⟨hstore, hown⟩, hsince⟩ := h
  refine ⟨⟨hstore, fun g'' hg => ?_⟩, ?_⟩
  · cases hg
    rw [hsame]
    exact hown g hguard
  · have hnames : semaphoreNames { s with guard := some g' } = s.semaphoreNames := by
      unfold semaphoreNames
      rw [hguard]
      exact congrArg (fun semaphore : Semaphore => [semaphore.objectName]) hsame
    rw [hnames]
    exact hsince

/-- What is done with the guard alone leaves the server with the same semaphore. -/
theorem stands_of_guard {α : Type} {g : Guard} {d : Deed (α × Guard)} (hguard : s.guard = some g)
    (h : g.semaphore.Own start →
      Deed.Ensures (start.Since kept s.store.names s.semaphoreNames) d fun result w =>
        result.2.semaphore = g.semaphore ∧ start.Since kept s.store.names s.semaphoreNames w) :
    Deed.Ensures (s.Stands start kept) d fun result w =>
      Stands start kept { s with guard := some result.2 } w := by
  intro w hw
  obtain ⟨hsame, hsince⟩ := h (hw.1.2 g hguard) w hw.2
  exact stands_of_semaphore hguard hsame ⟨hw.1, hsince⟩

theorem stands_letGo (s : Server) :
    Deed.Ensures (s.Stands start kept) s.letGo (Stands start kept) := by
  unfold letGo
  split
  · exact Deed.ensures_pure fun _ hw => hw
  · next g hguard =>
    refine Deed.ensures_bind (stands_of_guard hguard Guard.since_release) fun result => ?_
    exact Deed.ensures_pure fun _ hw => hw

/-! ### Ends of a session -/

variable {α : Type}

/-- Whatever its answer, a deed leaves a server that stands as it should. -/
def Settles (start : World) (kept : Nat → Prop) (s : Server) (d : Deed (α × Server)) : Prop :=
  Deed.Ensures (s.Stands start kept) d fun result => result.2.Stands start kept

theorem settles_pure {a : α} {s' : Server}
    (h : ∀ w, s.Stands start kept w → s'.Stands start kept w) :
    Settles start kept s (pure (a, s')) :=
  Deed.ensures_pure h

theorem settles_shutDown (s : Server) :
    Settles start kept s (s.shutDown : Deed (Except Error α × Server)) := by
  unfold shutDown
  refine Deed.ensures_bind (stands_letGo { s with state := .closed }) fun s' => ?_
  exact Deed.ensures_pure fun _ hw => hw

theorem settles_fail (s : Server) (e : Error) :
    Settles start kept s (s.fail e : Deed (Except Error α × Server)) := by
  unfold fail
  refine Deed.ensures_bind (stands_letGo { s with state := .fatal }) fun s' => ?_
  refine Deed.ensures_bind (stands_of_since (since_report _)) fun _ => ?_
  exact Deed.ensures_pure fun _ hw => hw

theorem settles_abort (s : Server) (e : Error) :
    Settles start kept s (s.abort e : Deed (Except Error α × Server)) := by
  unfold abort
  refine Deed.ensures_bind (stands_of_since fun _ hw => hw) fun raised => ?_
  cases raised with
  | true => exact settles_shutDown s
  | false => exact settles_fail s e

/-! ### Requests -/

theorem stands_display (s : Server) (mark : String) (frame : Octets) :
    Deed.Keeps (s.Stands start kept) (s.display mark frame) := by
  refine stands_of_since fun w hw => ?_
  obtain ⟨output, hrun⟩ := display_run s mark frame w
  rw [hrun]
  exact hw.congr rfl rfl rfl

theorem settles_receive (s : Server) : Settles start kept s s.receive := by
  unfold receive
  split
  · exact settles_pure fun _ hw => hw
  refine Deed.ensures_bind (stands_of_since (since_enter _)) fun _ => ?_
  refine Deed.ensures_bind (stands_of_since (s.connection.since_receive _)) fun result => ?_
  obtain ⟨r, connection⟩ := result
  dsimp only
  split
  · refine Deed.ensures_bind (stands_display (s.heard connection r.context) _ _) fun _ => ?_
    exact Deed.ensures_pure fun _ hw => hw
  · refine Deed.ensures_bind (stands_of_since (since_report _)) fun _ => ?_
    exact Deed.ensures_pure fun _ hw => hw
  · exact Deed.ensures_pure fun _ hw => hw
  · exact settles_abort (s.heard connection r.context) _

theorem settles_acquire (s : Server) : Settles start kept s s.acquire := by
  unfold acquire
  split
  · exact settles_pure fun _ hw => hw
  · next g hguard =>
    refine Deed.ensures_bind (stands_of_guard hguard Guard.since_tryAcquire) fun result => ?_
    exact Deed.ensures_pure fun _ hw => hw

theorem settles_release (s : Server) : Settles start kept s s.release := by
  unfold release
  split
  · exact settles_pure fun _ hw => hw
  · next g hguard =>
    refine Deed.ensures_bind (stands_of_guard hguard Guard.since_release) fun result => ?_
    exact Deed.ensures_pure fun _ hw => hw

theorem stands_answer (s : Server) : Deed.Keeps (s.Stands start kept) s.answer := by
  have hexecute : Deed.Keeps (s.Stands start kept) (s.store.execute s.engine s.request) :=
    fun w hw => stands_of_since (Store.since_execute hw.1.1 s.engine s.request) w hw
  unfold answer
  refine Deed.keeps_bind (stands_of_since (since_enter _)) fun _ => ?_
  split
  · exact Deed.keeps_bind (stands_of_since (Script.since_raiseFlag _)) fun _ => hexecute
  · exact hexecute

theorem settles_deliver (s : Server) (reply : Option Octets) :
    Settles start kept s (s.deliver reply) := by
  unfold deliver
  cases reply with
  | none => exact settles_pure fun _ hw => hw
  | some frame =>
    refine Deed.ensures_bind (stands_display s _ _) fun _ => ?_
    refine Deed.ensures_bind (stands_of_since (since_enter _)) fun _ => ?_
    refine Deed.ensures_bind (stands_of_since (s.connection.since_send _)) fun result => ?_
    obtain ⟨outcome, connection⟩ := result
    dsimp only
    split
    · exact Deed.ensures_pure fun _ hw => hw
    · exact settles_shutDown { s with connection }
    · exact settles_abort { s with connection } _

theorem settles_answerRequest (s : Server) : Settles start kept s s.answerRequest := by
  unfold answerRequest
  refine Deed.ensures_bind (settles_acquire { s with state := .guarding }) fun acquired => ?_
  obtain ⟨_ | _, s₁⟩ := acquired
  · exact settles_abort s₁ _
  refine Deed.ensures_bind (stands_answer { s₁ with state := .replying }) fun reply => ?_
  refine Deed.ensures_bind (settles_release { s₁ with state := .replying }) fun released => ?_
  obtain ⟨_ | _, s₂⟩ := released
  · exact settles_abort s₂ _
  · exact settles_deliver s₂ reply

theorem settles_serveOne (s : Server) : Settles start kept s s.serveOne := by
  unfold serveOne
  split
  · exact settles_pure fun _ hw => hw
  refine Deed.ensures_bind (stands_of_since fun _ hw => hw) fun raised => ?_
  cases raised with
  | true => exact settles_shutDown s
  | false =>
    refine Deed.ensures_bind (settles_receive s) fun received => ?_
    obtain ⟨_ | _ | _ | _, s₁⟩ := received
    · exact Deed.ensures_pure fun _ hw => hw
    · refine Deed.ensures_bind (stands_of_since fun _ hw => hw) fun raised => ?_
      cases raised with
      | true => exact settles_shutDown s₁
      | false => exact settles_answerRequest s₁
    · exact Deed.ensures_pure fun _ hw => hw
    · exact Deed.ensures_pure fun _ hw => hw

theorem settles_serve (n : Nat) (s : Server) : Settles start kept s (serve n s) := by
  induction n generalizing s with
  | zero => exact settles_pure fun _ hw => hw
  | succ n ih =>
    refine Deed.ensures_bind (settles_serveOne s) fun served => ?_
    obtain ⟨e | _ | _ | _, s₁⟩ := served
    · cases e <;> exact Deed.ensures_pure fun _ hw => hw
    · exact ih s₁
    · exact Deed.ensures_pure fun _ hw => hw
    · exact Deed.ensures_pure fun _ hw => hw

theorem settles_run (s : Server) : Settles start kept s s.run := by
  unfold run
  refine Deed.ensures_bind (stands_of_since (since_report _)) fun _ => ?_
  exact Deed.ensures_bind (stands_of_since Deed.keeps_get) fun v => settles_serve _ s

theorem stands_enableGuard {name : String} {policy : GuardPolicy} (hbare : s.guard = none) :
    Op.Ensures (s.Stands start kept) (s.enableGuard name false policy) (Stands start kept)
      (s.Stands start kept) := by
  have hcreate : Op.Ensures (s.Stands start kept) (Guard.create name false policy)
      (fun g => Stands start kept { s with guard := some g }) (s.Stands start kept) := by
    refine Op.ensures_of_fact fun hown => ?_
    refine (Guard.since_create).mono (fun _ hw => hw) (fun g w hw => ?_) fun _ hw => ⟨hown, hw⟩
    obtain ⟨hfresh, hsince⟩ := hw
    refine ⟨⟨hown.1, fun g' hg => ?_⟩, ?_⟩
    · cases hg
      exact hfresh
    · unfold semaphoreNames at hsince ⊢
      rw [hbare] at hsince
      exact hsince
  unfold enableGuard
  split
  · exact Op.ensures_throw_bind fun _ hw => hw
  · exact Op.ensures_bind hcreate fun g => Op.ensures_pure fun _ hw => hw

theorem stands_drop (s : Server) :
    Deed.Ensures (s.Stands start kept) s.drop fun _ => start.Since kept [] [] := by
  unfold drop
  refine Deed.ensures_of_fact fun hown => ?_
  refine Deed.ensures_bind (Store.since_drop hown.1.owned hown.1.whole) fun _ => ?_
  cases hguard : s.guard with
  | none =>
    unfold semaphoreNames
    rw [hguard]
    exact s.connection.since_drop
  | some g =>
    unfold semaphoreNames
    rw [hguard]
    exact Deed.ensures_bind (Guard.since_drop (hown.2 g hguard)) fun _ => s.connection.since_drop

end Server

/-! ### The program -/

namespace Program

theorem since_setUp {o : Options} (cancel : Nat) (hforce : o.force = false)
    (hsemaphore : o.semaphoreForce = false) :
    Op.Ensures (start.Since kept [] []) (setUp o cancel) (Server.Stands start kept)
      (start.Since kept [] []) := by
  unfold setUp
  rw [hforce, hsemaphore]
  refine Op.ensures_bind (Op.keeps_ofExcept _) fun _ => ?_
  refine Op.ensures_bind (Op.keeps_ofExcept _) fun _ => ?_
  refine Op.ensures_bind (Op.keeps_ofExcept _) fun station => ?_
  refine Op.ensures_bind (Op.keeps_ofExcept _) fun _ => ?_
  refine Op.ensures_bind (Op.keeps_ofExcept _) fun _ => ?_
  refine Op.ensures_bind Store.since_create fun store => Op.ensures_of_fact fun hstore => ?_
  -- the store is dropped when the line cannot be opened, and the line when its limits are refused
  refine Op.ensures_bind (R := fun server w => server.guard = none ∧ server.Stands start kept w)
    (Op.ensures_undoing ?_ (Store.since_drop hstore.owned hstore.whole)) fun server =>
      Op.ensures_of_fact fun hbare => ?_
  · refine Op.ensures_bind (Port.since_openSerial _ _) fun port => ?_
    refine Op.ensures_bind (R := fun _ => start.Since kept store.names [])
      (Op.ensures_undoing ?_ (Connection.since_drop _)) fun port => ?_
    · exact Op.keeps_bind (Op.keeps_ofExcept _) fun _ => Op.keeps_ofExcept _
    · exact Op.ensures_pure fun w hw => ⟨rfl, ⟨hstore, nofun⟩, hw⟩
  · refine Op.ensures_bind (Op.ensures_undoing ?_ server.stands_drop) fun _ =>
      Op.ensures_pure fun _ hw => hw
    split
    · exact Op.ensures_pure fun _ hw => hw
    · exact Server.stands_enableGuard hbare

theorem since_runSession {o : Options} (cancel : Nat) (hforce : o.force = false)
    (hsemaphore : o.semaphoreForce = false) :
    Deed.Keeps (start.Since kept [] []) (runSession o cancel) := by
  unfold runSession
  refine Deed.ensures_bind (since_setUp cancel hforce hsemaphore) fun result => ?_
  cases result with
  | error e =>
    refine Deed.ensures_bind (since_report _) fun _ => ?_
    split
    · exact Deed.ensures_bind (since_report _) fun _ => Deed.keeps_pure
    · exact Deed.keeps_pure
  | ok server =>
    refine Deed.ensures_bind (Server.stands_of_since (since_report _)) fun _ => ?_
    refine Deed.ensures_bind server.settles_run fun ran => ?_
    refine Deed.ensures_bind (Server.stands_of_since (since_report _)) fun _ => ?_
    exact Deed.ensures_bind ran.2.stands_drop fun _ => Deed.keeps_pure

theorem since_makeFlag : Op.Keeps (start.Since kept segments semaphores) makeFlag := by
  unfold makeFlag
  refine Op.keeps_bind (Op.keeps_lift since_meetDescriptor) fun fault => ?_
  cases fault with
  | some e => exact Op.keeps_throw
  | none => exact fun w hw => hw.congr rfl rfl rfl

theorem since_write (text : String) :
    Deed.Keeps (start.Since kept segments semaphores) (write text) :=
  since_modify fun _ => ⟨rfl, rfl, rfl⟩

theorem since_run {arguments : List String}
    (h : ∀ o, Options.ofArguments arguments = .ok o → o.force = false ∧ o.semaphoreForce = false) :
    Deed.Keeps (start.Since kept [] []) (run arguments) := by
  unfold run
  cases hread : Options.ofArguments arguments with
  | error e =>
    cases e with
    | displayHelp | displayVersion => exact Deed.keeps_bind (since_write _) fun _ => Deed.keeps_pure
    | _ => exact Deed.keeps_pure
  | ok o =>
    refine Deed.keeps_bind since_makeFlag.run fun result => ?_
    cases result with
    | error e => exact Deed.keeps_bind (since_report _) fun _ => Deed.keeps_pure
    | ok cancel => exact since_runSession cancel (h o hread).1 (h o hread).2

/-- Unless it is told to take names from others, the program leaves the tables of names as they were
when it started, and every object that was there as it was, but for the counts of semaphores that
others use meanwhile. -/
theorem leaves_nothing_behind (arguments : List String)
    (h : ∀ o, Options.ofArguments arguments = .ok o → o.force = false ∧ o.semaphoreForce = false)
    (w : World) :
    let after := ((run arguments).run w).2
    after.segments.names = w.segments.names ∧ after.semaphores.names = w.semaphores.names ∧
    (∀ n < w.segments.next, after.segments.get? n = w.segments.get? n) ∧
    ∀ n < w.semaphores.next,
      (∀ happening ∈ w.agenda, ∀ count, happening.brings ≠ some (n, count)) →
      after.semaphores.get? n = w.semaphores.get? n := by
  intro after
  let kept (n : Nat) : Prop := ∀ happening ∈ w.agenda, ∀ count, happening.brings ≠ some (n, count)
  have hstart : w.Since kept [] [] w :=
    ⟨.refl _ _, .refl _ _, fun happening hmem n count hbrings hkept =>
      hkept happening hmem count hbrings⟩
  have hafter : w.Since kept [] [] after := since_run h w hstart
  have hnone {α : Type} (names : List (ObjectName × α)) :
      names.filter (fun entry => entry.1 ∉ ([] : List ObjectName)) = names := by
    simp
  refine ⟨?_, ?_, fun n hn => hafter.segments.objects n hn trivial, hafter.semaphores.objects⟩
  · rw [← hafter.segments.names, hnone]
  · rw [← hafter.semaphores.names, hnone]

/-- Somebody else has a segment under the name of the third bank. -/
def thirdTaken : World where
  segments := Registry.empty.add ⟨"/modbus_AO"⟩ { mode := 0o600 }

/-- The setup fails when two segments are there: they lose their names again, and the segment of the
other one keeps its own. -/
theorem taken_segment_survives :
    let ended := (run ["-d", "/dev/ttyS0", "-i", "7"]).run thirdTaken
    ended.1 = codeUsage ∧ ended.2.segments.names = [(⟨"/modbus_AO"⟩, 0)] ∧
      ended.2.segments.get? 0 = some { mode := 0o600 } := by
  have hcode : ((run ["-d", "/dev/ttyS0", "-i", "7"]).run thirdTaken).1 = codeUsage := by
    decide +kernel
  have hgiven : ((Options.ofArguments ["-d", "/dev/ttyS0", "-i", "7"]).toOption.map fun o =>
      (o.force, o.semaphoreForce)) = some (false, false) := by
    decide +kernel
  have hforce : ∀ o, Options.ofArguments ["-d", "/dev/ttyS0", "-i", "7"] = .ok o →
      o.force = false ∧ o.semaphoreForce = false := by
    intro o ho
    rw [ho] at hgiven
    cases o
    cases hgiven
    exact ⟨rfl, rfl⟩
  obtain ⟨hnames, -, hobjects, -⟩ :=
    leaves_nothing_behind ["-d", "/dev/ttyS0", "-i", "7"] hforce thirdTaken
  exact ⟨hcode, hnames, hobjects 0 (by decide)⟩

end Program
end RtuStation
