import PatronFees.Proofs.Allocation.Split
import PatronFees.Proofs.Money.Lifted

namespace PatronFees

/-!
# Targets of coarser scales

A target may have its capacity at a scale coarser than that of the total. It is
offered what the target lifted to that scale would be offered. While no share is
at a coarser scale, units are handed out as they would be to the lifted targets.
-/

def Target.lift
    (scale : Nat)
    (target : Target) : Target :=
  { target with capacity := target.capacity.lift scale }

/-- The share of the lifted target, its amount at the scale. -/
def Share.lift
    (scale : Nat)
    (share : Share) : Share :=
  ⟨share.target.lift scale, share.amount.lift scale⟩

/-- The share with its target alone lifted. -/
def Share.withTargetLifted
    (scale : Nat)
    (share : Share) : Share :=
  { share with target := share.target.lift scale }

namespace Allocation

variable {scale : Nat} {target : Target} {targets : List Target}
  {share : Share} {shares lifted : List Share} {even left leftover : Money}
  {pending : Nat}

/-- The targets of lifted shares are the lifted targets. -/
theorem map_target_lift (shares : List Share) :
    (shares.map (Share.lift scale)).map (·.target) =
      (shares.map (·.target)).map (Target.lift scale) := by
  rw [List.map_map, List.map_map]
  rfl

/-- What is spread is nothing or more. -/
theorem Spreads.total_nonneg
    {total : Int}
    (spreads : Spreads scale targets total shares left) :
    0 ≤ total := by
  have shared := unitsShared_nonneg spreads.fits
  have leftNonneg := spreads.left_nonneg
  have adds := spreads.adds
  omega

/-- A share leaves the rest of a total to those behind it. -/
theorem Spreads.uncons
    {total : Int}
    (spreads : Spreads scale (target :: targets) total (share :: shares) left) :
    Fits scale share ∧
      share.amount.minorUnits ≤ total ∧
      Spreads scale targets (total - share.amount.minorUnits) shares left := by
  have restFits : ∀ other ∈ shares, Fits scale other :=
    fun other member => spreads.fits other (List.mem_cons_of_mem _ member)
  have others := unitsShared_nonneg restFits
  have adds := spreads.adds
  have leftNonneg := spreads.left_nonneg
  rw [unitsShared_cons] at adds
  refine ⟨spreads.fits share List.mem_cons_self, by omega,
    { sameTargets := ?_
      fits := restFits
      left_scale := spreads.left_scale
      left_nonneg := leftNonneg
      adds := by omega }⟩
  exact (List.cons.inj spreads.sameTargets).2

/-- The capacity of a target is held at a scale where the lifted one is open. -/
theorem IsOpenTo.isHeldAt
    (isOpen : IsOpenTo scale (target.lift scale))
    (coarser : target.capacity.scale ≤ scale) :
    target.capacity.IsHeldAt scale := by
  have positive := isOpen.positive
  have bounded := isOpen.bounded
  have double : twoTo 96 = 2 * twoTo 95 := twoTo_succ 95
  refine ⟨coarser, ?_⟩
  change (target.lift scale).capacity.minorUnits.natAbs < _
  omega

section Scales

/-- The even share is at the scale of what is shared. -/
theorem scale_of_evenShare
    (shared : evenShare left pending = .ok even) :
    even.scale = left.scale := by
  rw [evenShare] at shared
  split at shared
  next =>
    obtain rfl := Except.ok.inj shared
    exact Money.scale_zero left.scale_le
  next =>
    split at shared
    next =>
      rw [Money.divideDown, Money.divideBy] at shared
      split at shared
      next =>
        obtain rfl := Except.ok.inj shared
        exact Nat.min_eq_left left.scale_le
      next =>
        cases shared
    next =>
      cases shared

/-- What is left without the first share is spread over the targets behind it. -/
theorem Spreads.of_subtract
    {still : Money}
    (spreads :
      Spreads scale (target :: targets) left.minorUnits (share :: shares)
        leftover)
    (left_scale : left.scale = scale)
    (left_lt : left.minorUnits.natAbs < twoTo 96)
    (subtracted : left.subtract share.amount = .ok still) :
    still.scale = scale ∧
      still.minorUnits.natAbs < twoTo 96 ∧
      Spreads scale targets still.minorUnits shares leftover := by
  obtain ⟨fits, within, restSpreads⟩ := spreads.uncons
  have nonneg := fits.nonneg
  have units :=
    Money.subtract_inv (fits.scale_eq.trans left_scale.symm) left_lt (by omega)
      (by omega) subtracted
  rw [← units] at restSpreads
  have stillNonneg := restSpreads.total_nonneg
  exact ⟨(Money.scale_of_subtract subtracted).trans left_scale, by omega, restSpreads⟩

/-- Where all have room for the even share, all shares are at its scale. -/
theorem scale_of_offer_of_room
    (room : ∀ target ∈ targets, even ≤ target.capacity)
    (even_scale : even.scale = scale)
    (left_scale : left.scale = scale)
    (offered : offer even pending left targets = .ok (shares, leftover)) :
    ∀ share ∈ shares, share.amount.scale = scale := by
  induction targets generalizing left shares leftover with
  | nil =>
      obtain ⟨rfl, -⟩ := Prod.mk.inj (Except.ok.inj offered)
      exact fun share member => (List.not_mem_nil member).elim
  | cons target rest inductionHypothesis =>
      obtain ⟨still, others, subtracted, offeredRest, rfl⟩ :=
        (offer_cons_of_room (room target List.mem_cons_self)).mp offered
      have others := inductionHypothesis
        (fun other member => room other (List.mem_cons_of_mem _ member))
        ((Money.scale_of_subtract subtracted).trans left_scale) offeredRest
      intro share member
      rcases List.mem_cons.mp member with rfl | behind
      · exact (Money.scale_min (left_scale.trans even_scale.symm)).trans even_scale
      · exact others share behind

/--
In the order of capacities, offers first fill targets with their capacities, and
all shares behind those are at the scale of the even share.
-/
theorem offer_prefix
    (ordered :
      targets.Pairwise fun first second =>
        first.capacity.units ≤ second.capacity.units)
    (even_scale : even.scale = scale)
    (left_scale : left.scale = scale)
    (offered : offer even pending left targets = .ok (shares, leftover)) :
    ∃ full others,
      shares = full ++ others ∧
        (∀ share ∈ full, share.amount = share.target.capacity) ∧
        ∀ share ∈ others, share.amount.scale = scale := by
  induction targets generalizing even left pending shares leftover with
  | nil =>
      obtain ⟨rfl, -⟩ := Prod.mk.inj (Except.ok.inj offered)
      exact ⟨[], [], rfl, fun _ member => (List.not_mem_nil member).elim,
        fun _ member => (List.not_mem_nil member).elim⟩
  | cons target rest inductionHypothesis =>
      obtain ⟨firstLeast, restOrdered⟩ := List.pairwise_cons.mp ordered
      by_cases takesEven : even ≤ target.capacity
      · refine ⟨[], shares, rfl, fun _ member => (List.not_mem_nil member).elim,
          scale_of_offer_of_room ?_ even_scale left_scale offered⟩
        intro other member
        rcases List.mem_cons.mp member with rfl | behind
        · exact takesEven
        · exact Int.le_trans takesEven (firstLeast other behind)
      · obtain ⟨still, next, behind, subtracted, nextShared, offeredRest, rfl⟩ :=
          (offer_cons_of_filled takesEven).mp offered
        have stillScale := (Money.scale_of_subtract subtracted).trans left_scale
        obtain ⟨full, others, rfl, filled, atScale⟩ :=
          inductionHypothesis restOrdered
            ((scale_of_evenShare nextShared).trans stillScale) stillScale
            offeredRest
        refine ⟨⟨target, target.capacity⟩ :: full, others, rfl, ?_, atScale⟩
        intro share member
        rcases List.mem_cons.mp member with rfl | among
        · rfl
        · exact filled share among

end Scales

section Simulation

variable (capped : scale ≤ Money.maxScale)

include capped

/-- An amount is compared with a capacity as with the lifted one. -/
theorem le_capacity_lift
    (money : Money)
    (target : Target) :
    money ≤ (target.lift scale).capacity ↔ money ≤ target.capacity := by
  change money.units ≤ (target.capacity.lift scale).units ↔
    money.units ≤ target.capacity.units
  rw [Money.units_lift capped]

/-- Targets are offered what they are offered when lifted. -/
theorem offer_of_lift
    (coarser : ∀ target ∈ targets, target.capacity.scale ≤ scale)
    (isOpen : ∀ target ∈ targets, IsOpenTo scale (target.lift scale))
    (even_scale : even.scale = scale)
    (left_scale : left.scale = scale)
    (left_lt : left.minorUnits.natAbs < twoTo 96)
    (offered :
      offer even pending left (targets.map (Target.lift scale)) =
        .ok (lifted, leftover))
    (spreads :
      Spreads scale (targets.map (Target.lift scale)) left.minorUnits lifted
        leftover) :
    ∃ shares,
      offer even pending left targets = .ok (shares, leftover) ∧
        shares.map (Share.lift scale) = lifted := by
  induction targets generalizing even left pending lifted leftover with
  | nil =>
      obtain ⟨rfl, rfl⟩ := Prod.mk.inj (Except.ok.inj offered)
      exact ⟨[], rfl, rfl⟩
  | cons target rest inductionHypothesis =>
      have restCoarser : ∀ other ∈ rest, other.capacity.scale ≤ scale :=
        fun other member => coarser other (List.mem_cons_of_mem _ member)
      have restOpen : ∀ other ∈ rest, IsOpenTo scale (other.lift scale) :=
        fun other member => isOpen other (List.mem_cons_of_mem _ member)
      have sameRoom := le_capacity_lift capped even target
      rw [List.map_cons] at offered
      by_cases takesEven : even ≤ target.capacity
      · obtain ⟨still, others, subtracted, offeredRest, rfl⟩ :=
          (offer_cons_of_room (sameRoom.mpr takesEven)).mp offered
        have amountScale : (min even left).scale = scale :=
          (spreads.fits _ List.mem_cons_self).scale_eq
        obtain ⟨stillScale, still_lt, restSpreads⟩ :=
          spreads.of_subtract left_scale left_lt subtracted
        obtain ⟨shares, offeredHere, sameRest⟩ :=
          inductionHypothesis restCoarser restOpen even_scale stillScale
            still_lt offeredRest restSpreads
        refine ⟨⟨target, min even left⟩ :: shares, ?_, ?_⟩
        · exact (offer_cons_of_room takesEven).mpr
            ⟨still, shares, subtracted, offeredHere, rfl⟩
        · rw [List.map_cons, sameRest, Share.lift,
            Money.lift_of_scale_eq amountScale]
      · obtain ⟨still, next, others, subtracted, nextShared, offeredRest, rfl⟩ :=
          (offer_cons_of_filled (mt sameRoom.mp takesEven)).mp offered
        obtain ⟨stillScale, still_lt, restSpreads⟩ :=
          spreads.of_subtract left_scale left_lt subtracted
        have held :=
          (isOpen target List.mem_cons_self).isHeldAt
            (coarser target List.mem_cons_self)
        have taken : left.subtract target.capacity = .ok still :=
          (Money.subtract_lift left_scale (Money.hasAllDigits_of_lt left_lt)
            held).trans subtracted
        obtain ⟨shares, offeredHere, sameRest⟩ :=
          inductionHypothesis restCoarser restOpen
            ((scale_of_evenShare nextShared).trans stillScale) stillScale
            still_lt offeredRest restSpreads
        refine ⟨⟨target, target.capacity⟩ :: shares, ?_, ?_⟩
        · exact (offer_cons_of_filled takesEven).mpr
            ⟨still, next, shares, taken, nextShared, offeredHere, rfl⟩
        · rw [List.map_cons, sameRest]
          rfl

/-- A round of units does not depend on whether targets are lifted. -/
theorem handOutOnce_withTargetLifted
    (unit left : Money)
    (shares : List Share) :
    handOutOnce unit left (shares.map (Share.withTargetLifted scale)) =
      (handOutOnce unit left shares).map fun round =>
        { round with
          shares := round.shares.map (Share.withTargetLifted scale) } := by
  induction shares generalizing left with
  | nil =>
      rfl
  | cons share rest inductionHypothesis =>
      rw [List.map_cons, handOutOnce, handOutOnce]
      split
      next =>
        cases added : share.amount.add unit with
        | error halt =>
            simp only [Share.withTargetLifted, added]
            rfl
        | ok raised =>
            simp only [Share.withTargetLifted, added, Outcome.ok_bind,
              le_capacity_lift capped]
            split
            next =>
              cases left.subtract unit with
              | error halt =>
                  rfl
              | ok still =>
                  have others := inductionHypothesis still
                  simp only [Outcome.ok_bind]
                  change (handOutOnce unit still
                    (rest.map (Share.withTargetLifted scale)) >>= _) = _
                  rw [others]
                  cases handOutOnce unit still rest <;> rfl
            next =>
              have others := inductionHypothesis left
              change (handOutOnce unit left
                (rest.map (Share.withTargetLifted scale)) >>= _) = _
              rw [others]
              cases handOutOnce unit left rest <;> rfl
      next =>
        rfl

theorem slack_withTargetLifted
    (left : Money)
    (shares : List Share) :
    slack left (shares.map (Share.withTargetLifted scale)) = slack left shares := by
  induction shares with
  | nil =>
      rfl
  | cons share rest inductionHypothesis =>
      rw [slack] at inductionHypothesis ⊢
      rw [slack] at inductionHypothesis ⊢
      rw [List.map_cons, List.foldr_cons, List.foldr_cons, inductionHypothesis]
      change ((share.target.capacity.lift scale).units - _).toNat + _ = _
      rw [Money.units_lift capped]
      rfl

/-- Units are handed out as they are to lifted targets. -/
theorem handOut_withTargetLifted
    (unit left : Money)
    (shares : List Share) :
    handOut unit left (shares.map (Share.withTargetLifted scale)) =
      (handOut unit left shares).map
        (List.map (Share.withTargetLifted scale)) := by
  fun_induction handOut unit left shares
  case case1 left shares positive halt failed =>
    have once := handOutOnce_withTargetLifted capped unit left shares
    rw [failed] at once
    rw [handOut, if_pos positive, once]
    rfl
  case case2 left shares positive round ran progressed fewer inductionHypothesis =>
    have once := handOutOnce_withTargetLifted capped unit left shares
    rw [ran] at once
    have less := fewer
    rw [← slack_withTargetLifted capped round.left,
      ← slack_withTargetLifted capped left] at less
    rw [handOut, if_pos positive, once]
    simp only [Except.map]
    rw [if_pos progressed, if_pos less]
    exact inductionHypothesis
  case case3 left shares positive round ran progressed notFewer =>
    have once := handOutOnce_withTargetLifted capped unit left shares
    rw [ran] at once
    have notLess := notFewer
    rw [← slack_withTargetLifted capped round.left,
      ← slack_withTargetLifted capped left] at notLess
    rw [handOut, if_pos positive, once]
    simp only [Except.map]
    rw [if_pos progressed, if_neg notLess]
  case case4 left shares positive round ran stuck =>
    have once := handOutOnce_withTargetLifted capped unit left shares
    rw [ran] at once
    rw [handOut, if_pos positive, once]
    simp only [Except.map]
    rw [if_neg stuck]
  case case5 left shares nothing =>
    rw [handOut, if_neg nothing]
    rfl

end Simulation

end Allocation

end PatronFees
