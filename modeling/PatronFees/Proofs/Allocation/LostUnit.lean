import PatronFees.Proofs.Allocation.Lifted

namespace PatronFees.Allocation

/-!
# Lost units

A target that is filled at a scale of its own seems to have room for a unit of a
finer one: with the unit its share is rounded back to what it was, and the unit
is gone from what is left. So rounds of units still end, but they share less
than there was as soon as one such target is met.
-/

/-- A share that fits once lifted, and fills its target if it is coarser. -/
structure IsServed
    (scale : Nat)
    (share : Share) : Prop where
  coarser : share.amount.scale ≤ scale
  fits : Fits scale (share.lift scale)
  full : share.amount.scale < scale → share.amount.units = share.target.capacity.units

/-- The units of a scale that shares of coarser ones come to. -/
def unitsLifted
    (scale : Nat)
    (shares : List Share) : Int :=
  unitsShared (shares.map (Share.lift scale))

/-- Behind targets that are full, a unit meets a share of a coarser scale. -/
def MeetsCoarse
    (scale : Nat) :
    List Share → Prop
  | [] => False
  | share :: rest =>
      share.amount.scale < scale ∨
        share.amount.units = share.target.capacity.units ∧ MeetsCoarse scale rest

variable {scale : Nat} {share : Share} {shares : List Share} {left : Money}

@[simp] theorem unitsLifted_cons
    (share : Share)
    (shares : List Share) :
    unitsLifted scale (share :: shares) =
      (share.amount.lift scale).minorUnits + unitsLifted scale shares := by
  rw [unitsLifted, List.map_cons, unitsShared_cons]
  rfl

/-- Shares that fill their targets up to one of a coarser scale are met by a unit. -/
theorem meetsCoarse_append
    {full others : List Share}
    (filled :
      ∀ share ∈ full, share.amount.units = share.target.capacity.units)
    (coarse : ∃ share ∈ full, share.amount.scale < scale) :
    MeetsCoarse scale (full ++ others) := by
  induction full with
  | nil =>
      obtain ⟨_, member, _⟩ := coarse
      cases member
  | cons first rest inductionHypothesis =>
      obtain ⟨share, member, isCoarse⟩ := coarse
      rcases List.mem_cons.mp member with rfl | behind
      · exact Or.inl isCoarse
      · refine Or.inr ⟨filled first List.mem_cons_self, ?_⟩
        exact inductionHypothesis
          (fun other among => filled other (List.mem_cons_of_mem _ among))
          ⟨share, behind, isCoarse⟩

namespace IsServed

/-- What is served is below `2 ^ 95` units. -/
theorem minorUnits_lt
    (served : IsServed scale share) :
    (share.amount.lift scale).minorUnits < twoTo 95 :=
  Int.lt_of_le_of_lt served.fits.within served.fits.target.bounded

theorem nonneg
    (served : IsServed scale share) :
    0 ≤ (share.amount.lift scale).minorUnits :=
  served.fits.nonneg

/-- An amount that comes to as many units as a capacity fills it. -/
theorem fills_iff
    (capped : scale ≤ Money.maxScale)
    (served : IsServed scale share) :
    share.amount.units = share.target.capacity.units ↔
      (share.amount.lift scale).minorUnits =
        (share.target.lift scale).capacity.minorUnits := by
  have positive := tenTo_pos (Money.maxScale - scale)
  have capacity := Money.units_eq (share.target.lift scale).capacity
  rw [show (share.target.lift scale).capacity.scale = scale from
      served.fits.target.scale_eq] at capacity
  rw [← Money.units_lift capped share.target.capacity]
  change _ = (share.target.lift scale).capacity.units ↔ _
  rw [capacity, Money.units_eq_lift capped served.coarser]
  exact Int.mul_eq_mul_right_iff (by omega)

end IsServed

/-- What is served fits when it is lifted. -/
theorem fits_map_lift
    (served : ∀ share ∈ shares, IsServed scale share) :
    ∀ share ∈ shares.map (Share.lift scale), Fits scale share := by
  intro share member
  obtain ⟨own, among, rfl⟩ := List.mem_map.mp member
  exact (served own among).fits

/--
A round of units never shares more than is taken from what is left, and less
where a unit meets a share of a coarser scale.
-/
structure IsLossyRound
    (scale : Nat)
    (shares : List Share)
    (left : Money)
    (round : HandOut) : Prop where
  sameTargets : round.shares.map (·.target) = shares.map (·.target)
  served : ∀ share ∈ round.shares, IsServed scale share
  left_scale : round.left.scale = scale
  left_nonneg : 0 ≤ round.left.minorUnits
  notMore : round.left.minorUnits ≤ left.minorUnits
  less : round.progressed = true → round.left.minorUnits < left.minorUnits
  grows : unitsLifted scale shares ≤ unitsLifted scale round.shares
  adds :
    unitsLifted scale round.shares + round.left.minorUnits ≤
      unitsLifted scale shares + left.minorUnits
  loses :
    0 < left.minorUnits →
      MeetsCoarse scale shares →
        unitsLifted scale round.shares + round.left.minorUnits <
          unitsLifted scale shares + left.minorUnits

namespace IsLossyRound

variable {raised still : Money} {after : HandOut}

/-- A round in which the first takes a unit, if only to lose it. -/
theorem take
    (capped : scale ≤ Money.maxScale)
    (round : IsLossyRound scale shares still after)
    (served : IsServed scale share)
    (takes : IsServed scale ⟨share.target, raised⟩)
    (raised_units :
      (raised.lift scale).minorUnits =
        (share.amount.lift scale).minorUnits +
          if share.amount.scale < scale then 0 else 1)
    (still_units : still.minorUnits = left.minorUnits - 1) :
    IsLossyRound scale (share :: shares) left
      ⟨⟨share.target, raised⟩ :: after.shares, after.left, true⟩ := by
  have notMore := round.notMore
  have grows := round.grows
  have adds := round.adds
  refine
    { sameTargets := by simp only [List.map_cons, round.sameTargets]
      served := List.forall_mem_cons.mpr ⟨takes, round.served⟩
      left_scale := round.left_scale
      left_nonneg := round.left_nonneg
      notMore := by dsimp only; omega
      less := fun _ => by dsimp only; omega
      grows := ?_
      adds := ?_
      loses := ?_ }
  · simp only [unitsLifted_cons]
    split at raised_units <;> omega
  · simp only [unitsLifted_cons]
    split at raised_units <;> omega
  · rintro - (coarse | ⟨fills, -⟩)
    · rw [if_pos coarse] at raised_units
      simp only [unitsLifted_cons]
      omega
    · -- A full share of the scale itself has no room for the unit.
      have within := takes.fits.within
      have full := (served.fills_iff capped).mp fills
      change (raised.lift scale).minorUnits ≤
        (share.target.lift scale).capacity.minorUnits at within
      split at raised_units
      next =>
        simp only [unitsLifted_cons]
        omega
      next =>
        omega

/-- A round in which the first has no room and the others go on. -/
theorem keep
    (round : IsLossyRound scale shares left after)
    (served : IsServed scale share)
    (fine : ¬ share.amount.scale < scale) :
    IsLossyRound scale (share :: shares) left
      ⟨share :: after.shares, after.left, after.progressed⟩ := by
  have grows := round.grows
  have adds := round.adds
  refine
    { sameTargets := by simp only [List.map_cons, round.sameTargets]
      served := List.forall_mem_cons.mpr ⟨served, round.served⟩
      left_scale := round.left_scale
      left_nonneg := round.left_nonneg
      notMore := round.notMore
      less := round.less
      grows := by simp only [unitsLifted_cons]; omega
      adds := by simp only [unitsLifted_cons]; omega
      loses := ?_ }
  rintro positive (coarse | ⟨-, meets⟩)
  · exact (fine coarse).elim
  · have loses := round.loses positive meets
    simp only [unitsLifted_cons]
    omega

/-- A round without anything left, or without anybody, changes nothing. -/
theorem idle
    (served : ∀ share ∈ shares, IsServed scale share)
    (left_scale : left.scale = scale)
    (left_nonneg : 0 ≤ left.minorUnits)
    (nothing : 0 < left.minorUnits → shares = []) :
    IsLossyRound scale shares left ⟨shares, left, false⟩ where
  sameTargets := rfl
  served := served
  left_scale := left_scale
  left_nonneg := left_nonneg
  notMore := Int.le_refl _
  less := fun progressed => by cases progressed
  grows := Int.le_refl _
  adds := Int.le_refl _
  loses := by
    intro positive meets
    rw [nothing positive] at meets
    exact meets.elim

end IsLossyRound

section Rounds

variable (capped : scale ≤ Money.maxScale)

include capped

/-- An amount is compared with a capacity by the units of a finer scale. -/
theorem le_capacity_iff_lift
    {money : Money}
    {target : Target}
    (coarser : money.scale ≤ scale)
    (isOpen : IsOpenTo scale (target.lift scale)) :
    money ≤ target.capacity ↔
      (money.lift scale).minorUnits ≤ (target.lift scale).capacity.minorUnits := by
  have sameScale :
      (target.lift scale).capacity.scale = (money.lift scale).scale :=
    isOpen.scale_eq.trans (Money.scale_lift capped coarser).symm
  rw [← le_capacity_lift capped, ← Money.le_iff sameScale]
  change money.units ≤ _ ↔ (money.lift scale).units ≤ _
  rw [Money.units_lift capped]

/-- A served share takes a unit if it keeps within the room of its target. -/
theorem IsServed.raised
    {raised : Money}
    (served : IsServed scale share)
    (raised_scale : raised.scale = share.amount.scale)
    (raised_units :
      (raised.lift scale).minorUnits =
        (share.amount.lift scale).minorUnits +
          if share.amount.scale < scale then 0 else 1)
    (takes : raised ≤ share.target.capacity) :
    IsServed scale ⟨share.target, raised⟩ := by
  have coarser : raised.scale ≤ scale := raised_scale.trans_le served.coarser
  have within := (le_capacity_iff_lift capped coarser served.fits.target).mp takes
  have nonneg := served.nonneg
  refine
    { coarser := coarser
      fits :=
        { target := served.fits.target
          scale_eq := Money.scale_lift capped coarser
          nonneg := ?_
          within := within }
      full := ?_ }
  · change 0 ≤ (raised.lift scale).minorUnits
    split at raised_units <;> omega
  · intro finer
    have coarse : share.amount.scale < scale := raised_scale ▸ finer
    rw [if_pos coarse, Int.add_zero] at raised_units
    change raised.units = share.target.capacity.units
    rw [← served.full coarse, Money.units_eq_lift capped coarser, raised_units,
      Money.units_eq_lift capped served.coarser]

/-- Units can always be handed out in rounds, if some of them are lost. -/
theorem handOutOnce_isLossyRound
    (served : ∀ share ∈ shares, IsServed scale share)
    (left_scale : left.scale = scale)
    (left_nonneg : 0 ≤ left.minorUnits)
    (left_lt : left.minorUnits < twoTo 96) :
    ∃ round,
      handOutOnce (Money.smallestUnit scale) left shares = .ok round ∧
        IsLossyRound scale shares left round := by
  have unitScale := Money.scale_smallestUnit capped
  have unitUnits := Money.minorUnits_smallestUnit capped
  have bound : twoTo 96 = 2 * twoTo 95 := twoTo_succ 95
  induction shares generalizing left with
  | nil =>
      exact ⟨⟨[], left, false⟩, rfl,
        .idle served left_scale left_nonneg fun _ => rfl⟩
  | cons share rest inductionHypothesis =>
      have first := served share List.mem_cons_self
      have firstNonneg := first.nonneg
      have firstLt := first.minorUnits_lt
      have restServed : ∀ other ∈ rest, IsServed scale other :=
        fun other member => served other (List.mem_cons_of_mem _ member)
      rw [handOutOnce]
      by_cases remains : left.isPositive = true
      · have leftPositive := left.isPositive_iff.mp remains
        rw [if_pos remains]
        obtain ⟨raised, added, raised_scale, raised_units⟩ :=
          Money.add_smallestUnit capped ⟨first.coarser, by omega⟩ (by omega)
        simp only [added, Outcome.ok_bind]
        by_cases takes : raised ≤ share.target.capacity
        · have raisedServed := first.raised capped raised_scale raised_units takes
          obtain ⟨still, subtracted, still_scale, still_units⟩ :=
            Money.subtract_eq (unitScale.trans left_scale.symm)
              (by omega) (by omega) (by omega)
          rw [unitUnits] at still_units
          obtain ⟨after, ran, round⟩ :=
            inductionHypothesis restServed (still_scale.trans left_scale)
              (by omega) (by omega)
          refine ⟨_, ?_,
            round.take capped first raisedServed raised_units still_units⟩
          rw [if_pos takes]
          simp only [subtracted, Outcome.ok_bind, ran, Outcome.pure_eq]
        · have fine : ¬ share.amount.scale < scale := by
            intro coarse
            rw [if_pos coarse, Int.add_zero] at raised_units
            apply takes
            rw [le_capacity_iff_lift capped (raised_scale.trans_le first.coarser)
              first.fits.target, raised_units]
            exact first.fits.within
          obtain ⟨after, ran, round⟩ :=
            inductionHypothesis restServed left_scale left_nonneg left_lt
          refine ⟨_, ?_, round.keep first fine⟩
          rw [if_neg takes]
          simp only [ran, Outcome.ok_bind, Outcome.pure_eq]
      · have nothing := mt left.isPositive_iff.mpr remains
        rw [if_neg remains]
        exact ⟨_, rfl,
          .idle served left_scale left_nonneg fun positive =>
            (nothing positive).elim⟩

/-- Lifting shares does not change the slack. -/
theorem slack_map_lift
    (left : Money)
    (shares : List Share) :
    slack left (shares.map (Share.lift scale)) = slack left shares := by
  induction shares with
  | nil =>
      rfl
  | cons share rest inductionHypothesis =>
      change ((share.target.capacity.lift scale).units -
          (share.amount.lift scale).units).toNat +
        slack left (rest.map (Share.lift scale)) = _
      rw [inductionHypothesis, Money.units_lift capped, Money.units_lift capped]
      rfl

/-- A lossy round in which somebody progresses leaves less slack. -/
theorem IsLossyRound.slack_lt
    {round : HandOut}
    (isRound : IsLossyRound scale shares left round)
    (served : ∀ share ∈ shares, IsServed scale share)
    (left_scale : left.scale = scale)
    (left_nonneg : 0 ≤ left.minorUnits)
    (progressed : round.progressed = true) :
    slack round.left round.shares < slack left shares := by
  have sameTargets :
      (round.shares.map (Share.lift scale)).map (·.target) =
        (shares.map (Share.lift scale)).map (·.target) := by
    rw [map_target_lift, map_target_lift, isRound.sameTargets]
  have fewer := isRound.less progressed
  have grows := isRound.grows
  have before := slack_eq (fits_map_lift served) left_scale left_nonneg
  have after :=
    slack_eq (fits_map_lift isRound.served) isRound.left_scale
      isRound.left_nonneg
  rw [sameTargets] at after
  rw [slack_map_lift capped] at before after
  rw [unitsLifted, unitsLifted] at grows
  have positive := tenTo_pos (Money.maxScale - scale)
  have scaled :=
    Int.mul_lt_mul_of_pos_right
      (show round.left.minorUnits +
          (unitsOfRoom ((shares.map (Share.lift scale)).map (·.target)) -
            unitsShared (round.shares.map (Share.lift scale))) <
        left.minorUnits +
          (unitsOfRoom ((shares.map (Share.lift scale)).map (·.target)) -
            unitsShared (shares.map (Share.lift scale))) by omega)
      (show (0 : Int) < tenTo (Money.maxScale - scale) by omega)
  omega

/-- Handing out units ends, with less shared if a unit meets a coarser share. -/
theorem handOut_lossy
    (served : ∀ share ∈ shares, IsServed scale share)
    (left_scale : left.scale = scale)
    (left_nonneg : 0 ≤ left.minorUnits)
    (left_lt : left.minorUnits < twoTo 96) :
    ∃ final,
      handOut (Money.smallestUnit scale) left shares = .ok final ∧
        (∀ share ∈ final, IsServed scale share) ∧
        unitsLifted scale final ≤ unitsLifted scale shares + left.minorUnits ∧
        (0 < left.minorUnits →
          MeetsCoarse scale shares →
            unitsLifted scale final <
              unitsLifted scale shares + left.minorUnits) := by
  -- The units that are left fall with each round that is not the last.
  induction rounds : left.minorUnits.toNat using Nat.strongRecOn
      generalizing left shares with
  | ind _ inductionHypothesis =>
      rw [handOut]
      by_cases remains : left.isPositive = true
      · have leftPositive := left.isPositive_iff.mp remains
        obtain ⟨round, ran, isRound⟩ :=
          handOutOnce_isLossyRound capped served left_scale left_nonneg left_lt
        have adds := isRound.adds
        have nonneg := isRound.left_nonneg
        rw [if_pos remains, ran]
        dsimp only
        by_cases progressed : round.progressed = true
        · have fewer := isRound.less progressed
          have slackFalls :=
            isRound.slack_lt capped served left_scale left_nonneg progressed
          obtain ⟨final, handed, finalServed, atMost, -⟩ :=
            inductionHypothesis round.left.minorUnits.toNat (by omega)
              isRound.served isRound.left_scale nonneg (by omega) rfl
          rw [if_pos progressed, if_pos slackFalls]
          refine ⟨final, handed, finalServed, by omega, fun positive meets => ?_⟩
          have loses := isRound.loses positive meets
          omega
        · rw [if_neg progressed]
          refine ⟨round.shares, rfl, isRound.served, by omega,
            fun positive meets => ?_⟩
          have loses := isRound.loses positive meets
          omega
      · have nothing := mt left.isPositive_iff.mpr remains
        rw [if_neg remains]
        exact ⟨shares, rfl, served, by omega,
          fun positive => (nothing positive).elim⟩

end Rounds

end PatronFees.Allocation
