import PatronFees.Proofs.Allocation.EvenShare
import PatronFees.Proofs.Allocation.Shares
import PatronFees.Proofs.Outcome

namespace PatronFees.Allocation

/-!
# Offers

Offers leave nothing owing because targets are served by capacity: once one
takes the even share, all behind it can.
-/

variable {scale : Nat} {targets : List Target} {even left : Money}

section Cons

variable {target : Target} {pending : Nat} {leftover : Money} {shares : List Share}

/-- A target with room for the even share is offered it, or what is left if that is less. -/
theorem offer_cons_of_room
    (takesEven : even ≤ target.capacity) :
    offer even pending left (target :: targets) = .ok (shares, leftover) ↔
      ∃ still others,
        left.subtract (min even left) = .ok still ∧
          offer even pending still targets = .ok (others, leftover) ∧
          shares = ⟨target, min even left⟩ :: others := by
  rw [offer, if_pos takesEven]
  constructor
  · intro offered
    obtain ⟨still, subtracted, onward⟩ := Outcome.bind_eq_ok_iff.mp offered
    obtain ⟨⟨others, last⟩, offeredRest, same⟩ := Outcome.bind_eq_ok_iff.mp onward
    obtain ⟨rfl, rfl⟩ := Prod.mk.inj (Except.ok.inj same)
    exact ⟨still, others, subtracted, offeredRest, rfl⟩
  · rintro ⟨still, others, subtracted, offeredRest, rfl⟩
    simp only [subtracted, Outcome.ok_bind, offeredRest, Outcome.pure_eq]

/-- A target with less room is filled, and the even share of the others found anew. -/
theorem offer_cons_of_filled
    (filled : ¬ even ≤ target.capacity) :
    offer even pending left (target :: targets) = .ok (shares, leftover) ↔
      ∃ still next others,
        left.subtract target.capacity = .ok still ∧
          evenShare still (pending - 1) = .ok next ∧
          offer next (pending - 1) still targets = .ok (others, leftover) ∧
          shares = ⟨target, target.capacity⟩ :: others := by
  rw [offer, if_neg filled]
  constructor
  · intro offered
    obtain ⟨still, subtracted, onward⟩ := Outcome.bind_eq_ok_iff.mp offered
    obtain ⟨next, nextShared, further⟩ := Outcome.bind_eq_ok_iff.mp onward
    obtain ⟨⟨others, last⟩, offeredRest, same⟩ := Outcome.bind_eq_ok_iff.mp further
    obtain ⟨rfl, rfl⟩ := Prod.mk.inj (Except.ok.inj same)
    exact ⟨still, next, others, subtracted, nextShared, offeredRest, rfl⟩
  · rintro ⟨still, next, others, subtracted, nextShared, offeredRest, rfl⟩
    simp only [subtracted, Outcome.ok_bind, nextShared, offeredRest, Outcome.pure_eq]

end Cons

/-- Targets with room for the even share take it until nothing is left. -/
theorem offer_of_room
    (pending : Nat)
    (isOpen : ∀ target ∈ targets, IsOpenTo scale target)
    (room :
      ∀ target ∈ targets, even.minorUnits ≤ target.capacity.minorUnits)
    (even_scale : even.scale = scale)
    (even_nonneg : 0 ≤ even.minorUnits)
    (left_scale : left.scale = scale)
    (left_nonneg : 0 ≤ left.minorUnits)
    (left_lt : left.minorUnits < twoTo 96) :
    ∃ shares leftover,
      offer even pending left targets = .ok (shares, leftover) ∧
        Spreads scale targets left.minorUnits shares leftover := by
  induction targets generalizing left with
  | nil =>
      exact ⟨[], left, rfl, .nil left_scale left_nonneg⟩
  | cons target rest inductionHypothesis =>
      have firstOpen := isOpen target List.mem_cons_self
      have firstRoom := room target List.mem_cons_self
      have takesEven : even ≤ target.capacity :=
        (Money.le_iff (firstOpen.scale_eq.trans even_scale.symm)).mpr firstRoom
      have sameScale : left.scale = even.scale :=
        left_scale.trans even_scale.symm
      have amountScale : (min even left).scale = scale :=
        (Money.scale_min sameScale).trans even_scale
      have amountUnits := Money.minorUnits_min sameScale
      obtain ⟨still, subtracted, still_scale, still_units⟩ :=
        Money.subtract_eq (amountScale.trans left_scale.symm)
          (by omega) (by omega) (by omega)
      obtain ⟨shares, leftover, offered, spreads⟩ :=
        inductionHypothesis
          (fun other member => isOpen other (List.mem_cons_of_mem _ member))
          (fun other member => room other (List.mem_cons_of_mem _ member))
          (still_scale.trans left_scale)
          (by omega) (by omega)
      refine ⟨⟨target, min even left⟩ :: shares, leftover, ?_, ?_⟩
      · exact (offer_cons_of_room takesEven).mpr
          ⟨still, shares, subtracted, offered, rfl⟩
      · have fits : Fits scale ⟨target, min even left⟩ :=
          { target := firstOpen
            scale_eq := amountScale
            nonneg := by dsimp only; omega
            within := by dsimp only; omega }
        exact .cons _ fits spreads (by dsimp only; omega)

/-- Offers to targets in the order of their capacities leave nothing owing. -/
theorem offer_spreads
    (isOpen : ∀ target ∈ targets, IsOpenTo scale target)
    (ordered :
      targets.Pairwise fun first second =>
        first.capacity.minorUnits ≤ second.capacity.minorUnits)
    (few : targets.length < twoTo 96)
    (shared : evenShare left targets.length = .ok even)
    (left_scale : left.scale = scale)
    (left_nonneg : 0 ≤ left.minorUnits)
    (left_lt : left.minorUnits < twoTo 96) :
    ∃ shares leftover,
      offer even targets.length left targets = .ok (shares, leftover) ∧
        Spreads scale targets left.minorUnits shares leftover := by
  induction targets generalizing left even with
  | nil =>
      exact ⟨[], left, rfl, .nil left_scale left_nonneg⟩
  | cons target rest inductionHypothesis =>
      have firstOpen := isOpen target List.mem_cons_self
      obtain ⟨firstLeast, restOrdered⟩ := List.pairwise_cons.mp ordered
      obtain ⟨found, foundShared, bounds⟩ :=
        evenShare_between (Money.hasAllDigits_of_lt (by omega)) left_nonneg few
      rw [Except.ok.inj (foundShared.symm.trans shared), left_scale] at bounds
      obtain ⟨even_scale, even_nonneg, even_le⟩ := bounds
      by_cases takesEven : even ≤ target.capacity
      · -- Everyone behind has at least as much room, so all take even shares.
        have firstRoom :=
          (Money.le_iff (firstOpen.scale_eq.trans even_scale.symm)).mp takesEven
        refine offer_of_room _ isOpen ?_ even_scale even_nonneg
          left_scale left_nonneg left_lt
        intro other member
        rcases List.mem_cons.mp member with isFirst | behind
        · rw [isFirst]
          exact firstRoom
        · exact Int.le_trans firstRoom (firstLeast other behind)
      · have firstLess :=
          mt (Money.le_iff (firstOpen.scale_eq.trans even_scale.symm)).mpr
            takesEven
        have positive := firstOpen.positive
        obtain ⟨still, subtracted, still_scale, still_units⟩ :=
          Money.subtract_eq (firstOpen.scale_eq.trans left_scale.symm)
            (by omega) (by omega) (by omega)
        have restFew : rest.length < twoTo 96 := by
          rw [List.length_cons] at few
          omega
        obtain ⟨next, nextShared, _⟩ :=
          evenShare_between
            (Money.hasAllDigits_of_lt
              (show still.minorUnits.natAbs < twoTo 96 by omega))
            (by omega) restFew
        obtain ⟨shares, leftover, offered, spreads⟩ :=
          inductionHypothesis
            (fun other member => isOpen other (List.mem_cons_of_mem _ member))
            restOrdered restFew nextShared
            (still_scale.trans left_scale) (by omega) (by omega)
        refine ⟨⟨target, target.capacity⟩ :: shares, leftover, ?_, ?_⟩
        · exact (offer_cons_of_filled takesEven).mpr
            ⟨still, next, shares, subtracted, nextShared, offered, rfl⟩
        · have fits : Fits scale ⟨target, target.capacity⟩ :=
            { target := firstOpen
              scale_eq := firstOpen.scale_eq
              nonneg := Int.le_of_lt positive
              within := Int.le_refl _ }
          exact .cons _ fits spreads (by dsimp only; omega)

end PatronFees.Allocation
