import RtuStation.Proofs.Placements

/-!
# Frames that can change places

Two frames neither of which writes what the other reads or writes can be processed in either order:
the replies and the banks at the end are the same. Which elements a frame writes and reads is told
by its octets, and whether it is carried out depends on the lengths of the banks alone; a frame that
is refused has no part in any element. Each of the two therefore places the same values before and
after the other (`Station.exists_placement`).
-/

namespace RtuStation

namespace Station

/-- Whether neither of two frames writes an element that the other reads or writes. -/
def Independent (s : Station) (f g : Octets) (banks : Banks) : Prop :=
  ∀ k i, (s.Writes f banks k i → ¬s.Reads g banks k i ∧ ¬s.Writes g banks k i) ∧
    (s.Writes g banks k i → ¬s.Reads f banks k i ∧ ¬s.Writes f banks k i)

variable {s : Station} {f g : Octets} {banks : Banks}

theorem process_comm (h : s.Independent f g banks) :
    (s.process f (s.process g banks).2).1 = (s.process f banks).1 ∧
      (s.process g (s.process f banks).2).1 = (s.process g banks).1 ∧
      (s.process g (s.process f banks).2).2 = (s.process f (s.process g banks).2).2 := by
  obtain ⟨x, hx, hf⟩ := s.exists_placement f banks
  obtain ⟨y, hy, hg⟩ := s.exists_placement g banks
  have hfirst := hf banks (fun _ => rfl) fun _ _ _ => rfl
  have hsecond := hg banks (fun _ => rfl) fun _ _ _ => rfl
  have hf' := hf (banks.stored y) (banks.alike_stored y) fun k i hread =>
    (banks.get?_stored_of_not_has fun p hp hi => ((h k i).2 (hy p hp k i hi)).1 hread).symm
  have hg' := hg (banks.stored x) (banks.alike_stored x) fun k i hread =>
    (banks.get?_stored_of_not_has fun p hp hi => ((h k i).1 (hx p hp k i hi)).1 hread).symm
  have hapart : Placement.Apart x y := fun p hp q hq k i ⟨hi, hi'⟩ =>
    ((h k i).1 (hx p hp k i hi)).2 (hy q hq k i hi')
  have hbanks : (s.process f banks).2 = banks.stored x := congrArg Prod.snd hfirst
  have hbanks' : (s.process g banks).2 = banks.stored y := congrArg Prod.snd hsecond
  rw [hbanks, hbanks', hf', hg']
  exact ⟨rfl, rfl, banks.stored_comm hapart⟩

end Station

namespace Store

/-- Of two frames neither of which writes an element that the other reads or writes, each gets the
same reply whichever is processed first, and the banks hold the same in the end. -/
theorem independent_frames_commute (station : Station) (store : Store) (w : World) (f g : Octets)
    (distinct : store.Distinct) (independent : station.Independent f g (store.banks w)) :
    let afterF := (store.execute station.engine f).run w
    let thenG := (store.execute station.engine g).run afterF.2
    let afterG := (store.execute station.engine g).run w
    let thenF := (store.execute station.engine f).run afterG.2
    thenF.1 = afterF.1 ∧ thenG.1 = afterG.1 ∧ store.banks thenG.2 = store.banks thenF.2 := by
  intro afterF thenG afterG thenF
  obtain ⟨hf, hbanksF⟩ := execute_eq_process distinct station f w
  obtain ⟨hg, hbanksG⟩ := execute_eq_process distinct station g w
  obtain ⟨hf', hbanksGF⟩ := execute_eq_process distinct station f afterG.2
  obtain ⟨hg', hbanksFG⟩ := execute_eq_process distinct station g afterF.2
  rw [hbanksG] at hf' hbanksGF
  rw [hbanksF] at hg' hbanksFG
  obtain ⟨hreplyF, hreplyG, hbanks⟩ := Station.process_comm independent
  exact ⟨hf'.trans (hreplyF.trans hf.symm), hg'.trans (hreplyG.trans hg.symm),
    hbanksFG.trans (hbanks.trans hbanksGF.symm)⟩

/-- Station 7 is asked to mask register 1, and all stations are asked to set register 2. -/
theorem mask_and_neighbour_commute :
    let station : Station := ⟨7, by decide⟩
    let f := requestFrame 7 [0x16, 0x00, 0x01, 0x00, 0xF2, 0x00, 0x25]
    let g := requestFrame 0 [0x06, 0x00, 0x02, 0x12, 0x34]
    overFour.Distinct ∧ station.Independent f g (overFour.banks fourSegments) ∧
      let afterF := (overFour.execute station.engine f).run fourSegments
      let thenG := (overFour.execute station.engine g).run afterF.2
      let afterG := (overFour.execute station.engine g).run fourSegments
      let thenF := (overFour.execute station.engine f).run afterG.2
      thenF.1 = some f ∧ overFour.banks thenG.2 = overFour.banks thenF.2 := by
  intro station f g
  have hwritesF : Extent.written? (Station.pdu f) = some ⟨.holdingRegisters, 1, 1⟩ := by
    decide +kernel
  have hcombinesF : Extent.combined? (Station.pdu f) = some ⟨.holdingRegisters, 1, 1⟩ := by
    decide +kernel
  have hreturnsF : Extent.returned? (Station.pdu f) = none := by decide +kernel
  have hwritesG : Extent.written? (Station.pdu g) = some ⟨.holdingRegisters, 2, 1⟩ := by
    decide +kernel
  have hcombinesG : Extent.combined? (Station.pdu g) = none := by decide +kernel
  have honlyF {k : BankKind} {i : Nat} (h : station.Writes f (overFour.banks fourSegments) k i ∨
      station.Reads f (overFour.banks fourSegments) k i) : i = 1 := by
    rcases h with ⟨-, e, he, -, hlow, hhigh⟩ | ⟨-, ⟨e, he, -, hlow, hhigh⟩ | ⟨-, e, he, -⟩⟩
    · cases hwritesF.symm.trans he
      exact Nat.le_antisymm (Nat.le_of_lt_succ hhigh) hlow
    · cases hcombinesF.symm.trans he
      exact Nat.le_antisymm (Nat.le_of_lt_succ hhigh) hlow
    · cases hreturnsF.symm.trans he
  have honlyG {k : BankKind} {i : Nat} (h : station.Writes g (overFour.banks fourSegments) k i ∨
      station.Reads g (overFour.banks fourSegments) k i) : i = 2 := by
    rcases h with ⟨-, e, he, -, hlow, hhigh⟩ | ⟨-, ⟨e, he, -⟩ | ⟨hown, -⟩⟩
    · cases hwritesG.symm.trans he
      exact Nat.le_antisymm (Nat.le_of_lt_succ hhigh) hlow
    · cases hcombinesG.symm.trans he
    · exact absurd rfl hown
  have independent : station.Independent f g (overFour.banks fourSegments) := by
    refine fun k i => ⟨fun hf => ⟨fun hg => ?_, fun hg => ?_⟩,
      fun hg => ⟨fun hf => ?_, fun hf => ?_⟩⟩
    · exact absurd ((honlyF (.inl hf)).symm.trans (honlyG (.inr hg))) (by decide)
    · exact absurd ((honlyF (.inl hf)).symm.trans (honlyG (.inl hg))) (by decide)
    · exact absurd ((honlyF (.inr hf)).symm.trans (honlyG (.inl hg))) (by decide)
    · exact absurd ((honlyF (.inl hf)).symm.trans (honlyG (.inl hg))) (by decide)
  have hreply : ((overFour.execute station.engine f).run fourSegments).1 = some f := by
    refine (execute_eq_process distinct_overFour station f fourSegments).1.trans ?_
    decide +kernel
  obtain ⟨hsame, -, hbanks⟩ := independent_frames_commute station overFour fourSegments f g
    distinct_overFour independent
  exact ⟨distinct_overFour, independent, hsame.trans hreply, hbanks⟩

end Store
end RtuStation
