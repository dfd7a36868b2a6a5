import Mathlib.Logic.Relation
import RtuStation.Proofs.Calls

/-!
# One token for all

Any number of guards share a semaphore that was made with one token. Whatever they do, one after
the other and in any order, the token is either on the semaphore or held by exactly one of them: the
count and the number of holders add up to one. `Step` is one thing that one of the guards does, or
anything the surroundings do that leaves the semaphore alone.
-/

namespace RtuStation

/-- During the next calls nobody else takes or posts the semaphore `object`. -/
def World.Spares (w : World) (object : Nat) : Prop :=
  ∀ happening ∈ w.agenda, ∀ n, happening.brings ≠ some (object, n)

/-- The system does not fail the next call. -/
def World.LetsPass (w : World) : Prop := ∀ happening ∈ w.agenda.head?, happening.fault = none

theorem Registry.get?_bring? {semaphores : Registry Nat} {brings : Option (Nat × Nat)}
    {object : Nat} (h : ∀ n, brings ≠ some (object, n)) :
    (semaphores.bring? brings).get? object = semaphores.get? object := by
  cases brings with
  | none => rfl
  | some brought =>
    obtain ⟨number, n⟩ := brought
    have hne : number ≠ object := fun heq => h n (by rw [heq])
    exact Registry.get?_modify_of_ne semaphores _ hne

theorem meet_tokens {w met : World} {fault : Option Errno} {object : Nat}
    (hspares : w.Spares object) (hmeet : meet.run w = (fault, met)) :
    met.semaphores.get? object = w.semaphores.get? object := by
  rw [meet_run] at hmeet
  split at hmeet
  · cases hmeet
    rfl
  · next happening later hagenda =>
    cases hmeet
    have hmem : happening ∈ w.agenda := by
      rw [hagenda]
      exact List.mem_cons_self ..
    exact Registry.get?_bring? (hspares happening hmem)

theorem meet_passes {w met : World} {fault : Option Errno} (hpass : w.LetsPass)
    (hmeet : meet.run w = (fault, met)) : fault = none := by
  rw [meet_run] at hmeet
  split at hmeet
  · cases hmeet
    rfl
  · next happening later hagenda =>
    cases hmeet
    apply hpass happening
    rw [hagenda]
    rfl

namespace Semaphore

theorem wait_tokens {s : Semaphore} {w : World} {n : Nat} (hspares : w.Spares s.object)
    (hn : w.semaphores.get? s.object = some n) :
    ∃ result after, s.wait.run.run w = (result, after) ∧
      (result = .ok true ∧ after.semaphores.get? s.object = some (n - 1) ∧ 0 < n ∨
        result ≠ .ok true ∧ after.semaphores.get? s.object = some n) := by
  rcases hmeet : meet.run w with ⟨fault, met⟩
  -- whatever happens during the call, it leaves this count alone
  have hmet : met.semaphores.get? s.object = some n := (meet_tokens hspares hmeet).trans hn
  cases fault with
  | some e => exact ⟨_, _, take_of_fault _ hmeet, .inr ⟨nofun, hmet⟩⟩
  | none =>
    have htake := @take_of_pass s w met "sem_timedwait" hmeet
    have hcount : s.count met = n := by simp only [count, hmet, Option.getD_some]
    rw [hcount] at htake
    by_cases hzero : n = 0
    · rw [if_pos hzero] at htake
      exact ⟨_, _, htake, .inr ⟨nofun, hmet⟩⟩
    · rw [if_neg hzero] at htake
      refine ⟨_, _, htake, .inl ⟨rfl, ?_, Nat.pos_of_ne_zero hzero⟩⟩
      show (met.semaphores.modify s.object fun n => n - 1).get? s.object = _
      rw [Registry.get?_modify_self, hmet]
      rfl

theorem post_tokens {s : Semaphore} {w : World} {n : Nat} (hspares : w.Spares s.object)
    (hpass : w.LetsPass) (hn : w.semaphores.get? s.object = some n) (hroom : n < maxCount) :
    ∃ after, s.post.run.run w = (.ok (), after) ∧
      after.semaphores.get? s.object = some (n + 1) := by
  let entered := ((enter (.post s.object)).run w).2
  rcases hmeet : meet.run entered with ⟨fault, met⟩
  have hmet : met.semaphores.get? s.object = some n :=
    (@meet_tokens entered met fault s.object hspares hmeet).trans hn
  obtain rfl := @meet_passes entered met fault hpass hmeet
  have hcount : s.count met = n := by simp only [count, hmet, Option.getD_some]
  refine ⟨_, post_of_pass hmeet (hcount ▸ hroom), ?_⟩
  show (met.semaphores.modify s.object fun n => n + 1).get? s.object = _
  rw [Registry.get?_modify_self, hmet]
  rfl

/-! ### New handles -/

theorem make_count {name : ObjectName} {value number : Nat} {w after : World}
    (h : (make name value).run w = (.ok number, after)) :
    after.semaphores.get? number = some value := by
  unfold make at h
  split at h
  · cases h
  obtain ⟨fault, met, _, h⟩ := Deed.of_run_bind h
  cases fault with
  | some e => cases h
  | none =>
    dsimp only at h
    split at h
    · cases h
    obtain ⟨_, _, hget, h⟩ := Deed.of_run_bind h
    cases hget
    split at h
    · cases h
    · cases h
      exact Registry.get?_add_next ..

theorem reclaim_count {text : String} {name : ObjectName} {value number : Nat} {w after : World}
    (h : (reclaim text name value).run w = (.ok number, after)) :
    after.semaphores.get? number = some value := by
  obtain ⟨result, mid, hmake, h⟩ := Deed.of_run_bind h
  cases result with
  | ok made =>
    cases h
    exact make_count hmake
  | error fault =>
    dsimp only at h
    split at h
    · obtain ⟨_, _, _, h⟩ := Deed.of_run_bind h
      obtain ⟨_, _, _, h⟩ := Deed.of_run_bind h
      exact make_count h
    · cases h

theorem create_count {text : String} {value : Nat} {force : Bool} {s : Semaphore} {w after : World}
    (h : (create text value force).run.run w = (.ok s, after)) :
    after.semaphores.get? s.object = some value := by
  obtain ⟨name, named, _, h⟩ := Op.of_run_bind h
  cases force with
  | true =>
    obtain ⟨result, made, hmade, h⟩ := Op.of_run_bind h
    cases result with
    | error fault => cases h
    | ok number =>
      cases h
      exact reclaim_count (Op.of_run_lift hmade)
  | false =>
    obtain ⟨result, made, hmade, h⟩ := Op.of_run_bind h
    cases result with
    | error fault => cases h
    | ok number =>
      cases h
      exact make_count (Op.of_run_lift hmade)

theorem locate_tokens {name : ObjectName} {object : Nat} {result : Except Fault Nat}
    {w after : World} (hspares : w.Spares object) (h : (locate name).run w = (result, after)) :
    after.semaphores.get? object = w.semaphores.get? object := by
  obtain ⟨fault, met, hmeet, h⟩ := Deed.of_run_bind h
  have hmet : met.semaphores.get? object = w.semaphores.get? object := by
    obtain ⟨_, _, hget, hmeet⟩ := Deed.of_run_bind hmeet
    cases hget
    split at hmeet
    · cases hmeet
      rfl
    · exact meet_tokens hspares hmeet
  -- past the call, only the names are looked at
  rw [← hmet]
  cases fault with
  | some e =>
    cases h
    rfl
  | none =>
    dsimp only at h
    split at h
    · cases h
      rfl
    · obtain ⟨_, _, hget, h⟩ := Deed.of_run_bind h
      cases hget
      split at h <;> cases h <;> rfl

theorem openExisting_tokens {text : String} {object : Nat} {s : Semaphore} {w after : World}
    (hspares : w.Spares object) (h : (openExisting text).run.run w = (.ok s, after)) :
    after.semaphores.get? object = w.semaphores.get? object := by
  obtain ⟨name, named, hname, hopened⟩ := Op.of_run_bind h
  obtain ⟨result, located, hlocate, hmade⟩ := Op.of_run_bind hopened
  obtain ⟨-, rfl⟩ := Op.of_run_ofExcept hname
  cases result with
  | error fault => cases hmade
  | ok number =>
    cases hmade
    exact locate_tokens hspares (Op.of_run_lift hlocate)

end Semaphore

namespace Guard

variable {g g' : Guard} {w after : World} {n object : Nat}

theorem tryAcquire_tokens {outcome : Except Error Acquisition}
    (hspares : w.Spares g.semaphore.object) (hn : w.semaphores.get? g.semaphore.object = some n)
    (hrun : g.tryAcquire.run w = ((outcome, g'), after)) :
    g'.semaphore = g.semaphore ∧ ∃ m, after.semaphores.get? g.semaphore.object = some m ∧
      m + g'.held.toNat = n + g.held.toNat := by
  obtain ⟨result, waited, hwait, htokens⟩ := Semaphore.wait_tokens hspares hn
  cases acquires_of_run hrun with
  | escalated | held => exact ⟨rfl, n, hn, rfl⟩
  | failed _ hfree hfails =>
    rw [hwait] at hfails
    cases hfails
    rcases htokens with ⟨hok, -, -⟩ | ⟨-, hwaited⟩
    · cases hok
    · exact ⟨rfl, n, hwaited, rfl⟩
  | taken _ hfree htakes =>
    rw [hwait] at htakes
    cases htakes
    rcases htokens with ⟨-, hwaited, hpos⟩ | ⟨hvain, -⟩
    · refine ⟨rfl, n - 1, hwaited, ?_⟩
      simp only [hfree, Bool.toNat_true, Bool.toNat_false]
      omega
    · exact absurd rfl hvain
  | missed _ hfree hmisses =>
    rw [hwait] at hmisses
    cases hmisses
    rcases htokens with ⟨hok, -, -⟩ | ⟨-, hwaited⟩
    · cases hok
    · exact ⟨rfl, n, hwaited, rfl⟩

theorem release_tokens (hspares : w.Spares g.semaphore.object) (hpass : w.LetsPass)
    (hn : w.semaphores.get? g.semaphore.object = some n) (hroom : n + g.held.toNat ≤ maxCount) :
    ∃ after, g.release.run w = ((.ok (), { g with held := false }), after) ∧
      after.semaphores.get? g.semaphore.object = some (n + g.held.toNat) := by
  cases hheld : g.held with
  | false =>
    refine ⟨w, ?_, hn⟩
    rw [release_of_free hheld, ← hheld]
  | true =>
    rw [hheld] at hroom
    obtain ⟨after, hpost, hafter⟩ := Semaphore.post_tokens hspares hpass hn hroom
    exact ⟨after, release_of_held hheld hpost, hafter⟩

theorem drop_tokens (hspares : w.Spares g.semaphore.object) (hpass : w.LetsPass)
    (hn : w.semaphores.get? g.semaphore.object = some n) (hroom : n + g.held.toNat ≤ maxCount)
    (hrun : g.drop.run w = ((), after)) :
    after.semaphores.get? g.semaphore.object = some (n + g.held.toNat) := by
  obtain ⟨released, hrelease, htokens⟩ := release_tokens hspares hpass hn hroom
  have hdrop : g.drop.run w = (g.semaphore.drop).run released := Deed.run_bind hrelease
  rw [hdrop] at hrun
  have hsame : (g.semaphore.drop.run released).2.semaphores.get? g.semaphore.object =
      released.semaphores.get? g.semaphore.object := by
    unfold Semaphore.drop
    split <;> rfl
  rw [hrun] at hsame
  exact hsame.trans htokens

theorem create_tokens {text : String} {force : Bool} {policy : GuardPolicy}
    (h : (create text force policy).run.run w = (.ok g, after)) :
    g.held = false ∧ after.semaphores.get? g.semaphore.object = some 1 := by
  obtain ⟨_, checked, _, h⟩ := Op.of_run_bind h
  obtain ⟨s, made, hmade, h⟩ := Op.of_run_bind h
  obtain ⟨_, reported, hreported, h⟩ := Op.of_run_bind h
  cases h
  cases Op.of_run_lift hreported
  have hcount := Semaphore.create_count hmade
  exact ⟨rfl, hcount⟩

theorem join_tokens {text : String} {policy : GuardPolicy} (hspares : w.Spares object)
    (h : (join text policy).run.run w = (.ok g, after)) :
    g.held = false ∧ after.semaphores.get? object = w.semaphores.get? object := by
  obtain ⟨_, checked, hchecked, hjoined⟩ := Op.of_run_bind h
  obtain ⟨s, opened, hopened, hmade⟩ := Op.of_run_bind hjoined
  cases hmade
  obtain ⟨-, rfl⟩ := Op.of_run_ofExcept hchecked
  have hsame := Semaphore.openExisting_tokens hspares hopened
  exact ⟨rfl, hsame⟩

/-! ### Guards that share a semaphore -/

/-- One step of the guards that share the semaphore `object`, or of their surroundings. Others leave
the semaphore alone, and the system does not fail a post. -/
inductive Step (object : Nat) : List Guard × World → List Guard × World → Prop
  | join {guards : List Guard} {w after : World} {text : String} {policy : GuardPolicy}
      {g : Guard} :
      w.Spares object → (join text policy).run.run w = (.ok g, after) →
        g.semaphore.object = object →
        Step object (guards, w) (guards ++ [g], after)
  | tryAcquire {before later : List Guard} {g g' : Guard} {w after : World}
      {outcome : Except Error Acquisition} :
      w.Spares object → g.tryAcquire.run w = ((outcome, g'), after) →
        Step object (before ++ g :: later, w) (before ++ g' :: later, after)
  | release {before later : List Guard} {g g' : Guard} {w after : World}
      {outcome : Except Error Unit} :
      w.Spares object → w.LetsPass → g.release.run w = ((outcome, g'), after) →
        Step object (before ++ g :: later, w) (before ++ g' :: later, after)
  | drop {before later : List Guard} {g : Guard} {w after : World} :
      w.Spares object → w.LetsPass → g.drop.run w = ((), after) →
        Step object (before ++ g :: later, w) (before ++ later, after)
  | surroundings {guards : List Guard} {w after : World} :
      after.semaphores.get? object = w.semaphores.get? object →
        Step object (guards, w) (guards, after)

/-- The guards use the semaphore `object`, and one token is on it or held by one of them. -/
structure Shares (object : Nat) (guards : List Guard) (w : World) : Prop where
  attached : ∀ g ∈ guards, g.semaphore.object = object
  tokens : ∃ n, w.semaphores.get? object = some n ∧ n + guards.countP (·.held) = 1

namespace Shares

variable {guards before later : List Guard}

theorem countP_insert (before later : List Guard) (g : Guard) :
    (before ++ g :: later).countP (·.held) =
      before.countP (·.held) + later.countP (·.held) + g.held.toNat := by
  rw [List.countP_append, List.countP_cons]
  cases g.held with
  | false => simp
  | true =>
    simp
    omega

theorem attached_insert (h : ∀ x ∈ before ++ g :: later, x.semaphore.object = object)
    (hsame : g'.semaphore.object = object) :
    ∀ x ∈ before ++ g' :: later, x.semaphore.object = object := by
  intro x hx
  rcases List.mem_append.mp hx with hx | hx
  · exact h x (List.mem_append_left _ hx)
  · rcases List.mem_cons.mp hx with rfl | hx
    · exact hsame
    · exact h x (List.mem_append_right _ (List.mem_cons_of_mem _ hx))

theorem tokens_of_mem (h : Shares object (before ++ g :: later) w) :
    ∃ n, w.semaphores.get? g.semaphore.object = some n ∧ n + g.held.toNat ≤ maxCount ∧
      n + (before.countP (·.held) + later.countP (·.held) + g.held.toNat) = 1 := by
  have hg : g.semaphore.object = object :=
    h.attached g (List.mem_append_right _ (List.mem_cons_self ..))
  have hmax : 1 ≤ maxCount := by decide
  obtain ⟨n, hn, hsum⟩ := h.tokens
  rw [countP_insert] at hsum
  refine ⟨n, ?_, by omega, hsum⟩
  rw [hg]
  exact hn

/-- A guard that took over some of the token is put in the place of the guard before. -/
theorem exchange (h : Shares object (before ++ g :: later) w)
    (hsame : g'.semaphore = g.semaphore)
    (hmoved : ∀ n, w.semaphores.get? g.semaphore.object = some n →
      ∃ m, after.semaphores.get? g.semaphore.object = some m ∧
        m + g'.held.toNat = n + g.held.toNat) :
    Shares object (before ++ g' :: later) after := by
  have hg : g.semaphore.object = object :=
    h.attached g (List.mem_append_right _ (List.mem_cons_self ..))
  obtain ⟨n, hn, -, hsum⟩ := h.tokens_of_mem
  obtain ⟨m, hm, heq⟩ := hmoved n hn
  refine ⟨attached_insert h.attached (by rw [hsame]; exact hg), m, ?_, ?_⟩
  · rw [← hg]
    exact hm
  · rw [countP_insert]
    omega

end Shares

theorem Step.shares {before after : List Guard × World} (hstep : Step object before after)
    (h : Shares object before.1 before.2) : Shares object after.1 after.2 := by
  cases hstep with
  | @join guards w after text policy g hspares hrun hg =>
    -- a new guard holds nothing
    obtain ⟨hfree, hsame⟩ := join_tokens hspares hrun
    obtain ⟨n, hn, hsum⟩ := h.tokens
    refine ⟨?_, n, hsame.trans hn, ?_⟩
    · intro x hx
      rcases List.mem_append.mp hx with hx | hx
      · exact h.attached x hx
      · rw [List.mem_singleton.mp hx]
        exact hg
    · rw [List.countP_append, List.countP_singleton, hfree]
      exact hsum
  | @tryAcquire before later g g' w after outcome hspares hrun =>
    have hg : g.semaphore.object = object :=
      h.attached g (List.mem_append_right _ (List.mem_cons_self ..))
    rw [← hg] at hspares
    obtain ⟨n, hn, -⟩ := Shares.tokens_of_mem h
    have hsame := (tryAcquire_tokens hspares hn hrun).1
    exact Shares.exchange h hsame fun n hn => (tryAcquire_tokens hspares hn hrun).2
  | @release before later g g' w after outcome hspares hpass hrun =>
    have hg : g.semaphore.object = object :=
      h.attached g (List.mem_append_right _ (List.mem_cons_self ..))
    rw [← hg] at hspares
    obtain ⟨n, hn, hroom, -⟩ := Shares.tokens_of_mem h
    obtain ⟨released, hrelease, htokens⟩ := release_tokens hspares hpass hn hroom
    rw [hrelease] at hrun
    cases hrun
    refine Shares.exchange h rfl fun k hk => ⟨n + g.held.toNat, htokens, ?_⟩
    rw [hn] at hk
    cases hk
    rfl
  | @drop before later g w after hspares hpass hrun =>
    have hg : g.semaphore.object = object :=
      h.attached g (List.mem_append_right _ (List.mem_cons_self ..))
    rw [← hg] at hspares
    obtain ⟨n, hn, hroom, hsum⟩ := Shares.tokens_of_mem h
    -- what the guard held is on the semaphore when the guard is gone
    have htokens := drop_tokens hspares hpass hn hroom hrun
    refine ⟨?_, n + g.held.toNat, ?_, ?_⟩
    · intro x hx
      apply h.attached x
      rcases List.mem_append.mp hx with hx | hx
      · exact List.mem_append_left _ hx
      · exact List.mem_append_right _ (List.mem_cons_of_mem _ hx)
    · rw [← hg]
      exact htokens
    · rw [List.countP_append]
      omega
  | @surroundings guards w after hsame =>
    obtain ⟨n, hn, hsum⟩ := h.tokens
    exact ⟨h.attached, n, hsame.trans hn, hsum⟩

theorem shares_of_steps {before after : List Guard × World}
    (hsteps : Relation.ReflTransGen (Step object) before after)
    (h : Shares object before.1 before.2) : Shares object after.1 after.2 := by
  induction hsteps with
  | refl => exact h
  | tail _ hstep ih => exact hstep.shares ih

theorem Shares.pairwise {guards : List Guard} (h : guards.countP (·.held) ≤ 1) :
    guards.Pairwise fun x y => ¬(x.held = true ∧ y.held = true) := by
  induction guards with
  | nil => exact .nil
  | cons g later ih =>
    rw [List.countP_cons] at h
    refine .cons ?_ (ih (by omega))
    rintro x hx ⟨hg, hheld⟩
    -- `g` is one holder already
    have hnone : later.countP (·.held) = 0 := by
      rw [if_pos hg] at h
      omega
    exact List.countP_eq_zero.mp hnone x hx hheld

/-- The guards that share a semaphore never have more or less than its one token between them: it is
on the semaphore, or exactly one of them holds it, and there is always room to give it back. -/
theorem one_token_for_all {text : String} {force : Bool} {policy : GuardPolicy}
    {before made : World} {guards : List Guard}
    (hcreate : (create text force policy).run.run before = (.ok g, made))
    (hsteps : Relation.ReflTransGen (Step g.semaphore.object) ([g], made) (guards, after)) :
    g.semaphore.count after + guards.countP (·.held) = 1 ∧
      guards.Pairwise (fun x y => ¬(x.held = true ∧ y.held = true)) ∧
      ∀ x ∈ guards, after.Spares g.semaphore.object → after.LetsPass →
        (x.release.run after).1.1 = .ok () := by
  obtain ⟨hfree, hone⟩ := create_tokens hcreate
  have hmade : Shares g.semaphore.object [g] made := by
    refine ⟨fun x hx => by rw [List.mem_singleton.mp hx], 1, hone, ?_⟩
    rw [List.countP_singleton, hfree]
    rfl
  have hshares : Shares g.semaphore.object guards after := shares_of_steps hsteps hmade
  obtain ⟨n, hn, hsum⟩ := hshares.tokens
  refine ⟨?_, Shares.pairwise (by omega), ?_⟩
  · rw [Semaphore.count, hn]
    exact hsum
  · intro x hx hspares hpass
    have hobject := hshares.attached x hx
    obtain ⟨earlier, later, rfl⟩ := List.append_of_mem hx
    obtain ⟨m, hm, hroom, -⟩ := hshares.tokens_of_mem
    rw [← hobject] at hspares
    obtain ⟨released, hrelease, -⟩ := release_tokens hspares hpass hm hroom
    rw [hrelease]

/-! A guard is created, another one joins and waits in vain while the first one holds the token, and
takes it over once the first one is dropped. -/

def founder : Guard := ofSemaphore ⟨0, "/guard", ⟨"/guard"⟩, true⟩ {}

def joiner : Guard := ofSemaphore ⟨0, "/guard", ⟨"/guard"⟩, false⟩ {}

def founded : World := ((create "/guard" false {}).run.run {}).2

def joined : World := ((join "/guard" {}).run.run founded).2

def holding : Guard × World :=
  let ((_, g), w) := founder.tryAcquire.run joined
  (g, w)

def missed : Guard × World :=
  let ((_, g), w) := joiner.tryAcquire.run holding.2
  (g, w)

def abandoned : World := (holding.1.drop.run missed.2).2

def handedOver : Guard × World :=
  let ((_, g), w) := missed.1.tryAcquire.run abandoned
  (g, w)

theorem steps_to_handover :
    Relation.ReflTransGen (Step founder.semaphore.object) ([founder], founded)
      ([handedOver.1], handedOver.2) := by
  have hcalm {w : World} (h : w.agenda = []) : w.Spares 0 ∧ w.LetsPass := by
    constructor <;> intro happening hmem <;> simp [h] at hmem
  have hjoin : Step 0 ([founder], founded) ([founder, joiner], joined) :=
    @Step.join 0 _ _ _ "/guard" {} _ (hcalm rfl).1 rfl rfl
  have hacquire : Step 0 ([founder, joiner], joined) ([holding.1, joiner], holding.2) :=
    @Step.tryAcquire 0 [] _ _ _ _ _ _ (hcalm rfl).1 rfl
  have hmiss : Step 0 ([holding.1, joiner], holding.2) ([holding.1, missed.1], missed.2) :=
    @Step.tryAcquire 0 [holding.1] _ _ _ _ _ _ (hcalm rfl).1 rfl
  have hdrop : Step 0 ([holding.1, missed.1], missed.2) ([missed.1], abandoned) :=
    @Step.drop 0 [] _ _ _ _ (hcalm rfl).1 (hcalm rfl).2 rfl
  have htake : Step 0 ([missed.1], abandoned) ([handedOver.1], handedOver.2) :=
    @Step.tryAcquire 0 [] _ _ _ _ _ _ (hcalm rfl).1 rfl
  exact .head hjoin (.head hacquire (.head hmiss (.head hdrop (.single htake))))

theorem one_token_handed_over :
    founder.semaphore.count handedOver.2 + [handedOver.1].countP (·.held) = 1 ∧
      missed.1.held = false ∧ handedOver.1.held = true := by
  have hcreate : (create "/guard" false {}).run.run {} = (.ok founder, founded) := rfl
  exact ⟨(one_token_for_all hcreate steps_to_handover).1, rfl, rfl⟩

end Guard
end RtuStation
