import PatronFees.Proofs.Allocation.Shares
import PatronFees.Proofs.Outcome

namespace PatronFees.Allocation

/-!
# Handing out

Units are handed out in rounds until nothing is left or everybody is full. A
round in which somebody progresses takes from what is left, so the rounds end.
-/

variable {scale : Nat} {shares : List Share} {left : Money}

/-- What a round of units does, target by target. -/
inductive HandsOut (unit : Money) : Money → List Share → HandOut → Prop where
  | nobody (left : Money) :
      HandsOut unit left [] ⟨[], left, false⟩
  | nothing
      {left : Money}
      (share : Share)
      (rest : List Share)
      (none : ¬ left.isPositive = true) :
      HandsOut unit left (share :: rest) ⟨share :: rest, left, false⟩
  | takes
      {left raised still : Money}
      {share : Share}
      {rest : List Share}
      {after : HandOut}
      (remains : left.isPositive = true)
      (added : share.amount.add unit = .ok raised)
      (room : raised ≤ share.target.capacity)
      (subtracted : left.subtract unit = .ok still)
      (others : HandsOut unit still rest after) :
      HandsOut unit left (share :: rest)
        ⟨⟨share.target, raised⟩ :: after.shares, after.left, true⟩
  | full
      {left raised : Money}
      {share : Share}
      {rest : List Share}
      {after : HandOut}
      (remains : left.isPositive = true)
      (added : share.amount.add unit = .ok raised)
      (noRoom : ¬ raised ≤ share.target.capacity)
      (others : HandsOut unit left rest after) :
      HandsOut unit left (share :: rest)
        ⟨share :: after.shares, after.left, after.progressed⟩

/-- A round that runs does that. -/
theorem handsOut_of_handOutOnce
    {unit : Money}
    {round : HandOut}
    (handed : handOutOnce unit left shares = .ok round) :
    HandsOut unit left shares round := by
  induction shares generalizing left round with
  | nil =>
      obtain rfl := Except.ok.inj handed
      exact .nobody left
  | cons share rest inductionHypothesis =>
      rw [handOutOnce] at handed
      split at handed
      next remains =>
        obtain ⟨raised, added, onward⟩ := Outcome.bind_eq_ok_iff.mp handed
        split at onward
        next room =>
          obtain ⟨still, subtracted, further⟩ := Outcome.bind_eq_ok_iff.mp onward
          obtain ⟨after, handedRest, same⟩ := Outcome.bind_eq_ok_iff.mp further
          obtain rfl := Except.ok.inj same
          exact .takes remains added room subtracted (inductionHypothesis handedRest)
        next noRoom =>
          obtain ⟨after, handedRest, same⟩ := Outcome.bind_eq_ok_iff.mp onward
          obtain rfl := Except.ok.inj same
          exact .full remains added noRoom (inductionHypothesis handedRest)
      next none =>
        obtain rfl := Except.ok.inj handed
        exact .nothing share rest none

section Units

variable {raised still : Money} {share : Share} (capped : scale ≤ Money.maxScale)

include capped

/-- A unit makes a share that fits one unit more. -/
theorem Fits.units_of_added
    (fits : Fits scale share)
    (added : share.amount.add (Money.smallestUnit scale) = .ok raised) :
    raised.scale = scale ∧ raised.minorUnits = share.amount.minorUnits + 1 := by
  have unitUnits := Money.minorUnits_smallestUnit capped
  have bound : twoTo 96 = 2 * twoTo 95 := twoTo_succ 95
  obtain ⟨⟨-, -, bounded⟩, share_scale, nonneg, within⟩ := fits
  obtain ⟨sum, alsoAdded, sum_scale, sum_units⟩ :=
    Money.add_eq ((Money.scale_smallestUnit capped).trans share_scale.symm)
      (by omega) (by omega) (by omega)
  obtain rfl := Except.ok.inj (alsoAdded.symm.trans added)
  exact ⟨sum_scale.trans share_scale, by omega⟩

/-- A unit is taken from what is left, below `2 ^ 96` units. -/
theorem units_of_subtracted
    (left_scale : left.scale = scale)
    (left_lt : left.minorUnits < twoTo 96)
    (remains : left.isPositive = true)
    (subtracted : left.subtract (Money.smallestUnit scale) = .ok still) :
    still.scale = scale ∧ still.minorUnits = left.minorUnits - 1 := by
  have unitUnits := Money.minorUnits_smallestUnit capped
  have positive := left.isPositive_iff.mp remains
  have still_units :=
    Money.subtract_inv ((Money.scale_smallestUnit capped).trans left_scale.symm)
      (by omega) (by omega) (by omega) subtracted
  exact ⟨(Money.scale_of_subtract subtracted).trans left_scale, by omega⟩

end Units

/-- Slack is what is left and what is not yet filled of the targets' room. -/
theorem slack_eq
    (fits : ∀ share ∈ shares, Fits scale share)
    (left_scale : left.scale = scale)
    (left_nonneg : 0 ≤ left.minorUnits) :
    (slack left shares : Int) =
      (left.minorUnits +
          (unitsOfRoom (shares.map (·.target)) - unitsShared shares)) *
        tenTo (Money.maxScale - scale) := by
  have positive := tenTo_pos (Money.maxScale - scale)
  induction shares with
  | nil =>
      change ((left.units.toNat : Nat) : Int) = _
      have nonneg :=
        Int.mul_nonneg left_nonneg
          (show (0 : Int) ≤ tenTo (Money.maxScale - scale) by omega)
      rw [Money.units_eq, left_scale, Int.toNat_of_nonneg nonneg]
      simp
  | cons share rest inductionHypothesis =>
      have first := fits share List.mem_cons_self
      have others := inductionHypothesis
        fun other member => fits other (List.mem_cons_of_mem _ member)
      have within := first.within
      have unfilled :=
        Int.mul_nonneg
          (show 0 ≤ share.target.capacity.minorUnits -
            share.amount.minorUnits by omega)
          (show (0 : Int) ≤ tenTo (Money.maxScale - scale) by omega)
      change (((share.target.capacity.units - share.amount.units).toNat +
        slack left rest : Nat) : Int) = _
      rw [Int.natCast_add, others, Money.units_eq, Money.units_eq,
        first.target.scale_eq, first.scale_eq, ← Int.sub_mul,
        Int.toNat_of_nonneg unfilled, ← Int.add_mul, List.map_cons,
        unitsOfRoom_cons, unitsShared_cons]
      congr 1
      omega

/--
A round of units keeps the total; it takes from what is left where somebody
progresses, and finds everybody full where nobody does.
-/
structure IsRound
    (scale : Nat)
    (shares : List Share)
    (left : Money)
    (round : HandOut) : Prop where
  spreads :
    Spreads scale (shares.map (·.target))
      (unitsShared shares + left.minorUnits) round.shares round.left
  notMore : round.left.minorUnits ≤ left.minorUnits
  less : round.progressed = true → round.left.minorUnits < left.minorUnits
  allFull :
    round.progressed = false →
      0 < left.minorUnits →
        unitsShared round.shares = unitsOfRoom (shares.map (·.target))

namespace IsRound

variable {share : Share} {raised still : Money} {after : HandOut}

/-- A round in which the first takes a unit and the others go on. -/
theorem raise
    (round : IsRound scale shares still after)
    (fits : Fits scale ⟨share.target, raised⟩)
    (raised_units : raised.minorUnits = share.amount.minorUnits + 1)
    (still_units : still.minorUnits = left.minorUnits - 1) :
    IsRound scale (share :: shares) left
      ⟨⟨share.target, raised⟩ :: after.shares, after.left, true⟩ where
  spreads := by
    refine .cons _ fits round.spreads ?_
    rw [unitsShared_cons]
    dsimp only
    omega
  notMore := by
    have notMore := round.notMore
    dsimp only
    omega
  less := by
    have notMore := round.notMore
    dsimp only
    omega
  allFull := fun progressed => by cases progressed

/-- A round in which the first is full and the others go on. -/
theorem keep
    (round : IsRound scale shares left after)
    (fits : Fits scale share)
    (full : share.target.capacity.minorUnits < share.amount.minorUnits + 1) :
    IsRound scale (share :: shares) left
      ⟨share :: after.shares, after.left, after.progressed⟩ where
  spreads := by
    refine .cons share fits round.spreads ?_
    rw [unitsShared_cons]
    omega
  notMore := round.notMore
  less := round.less
  allFull := by
    intro stuck positive
    have others := round.allFull stuck positive
    have within := fits.within
    simp only [List.map_cons, unitsShared_cons, unitsOfRoom_cons]
    omega

/-- A round without anything left, or without anybody, changes nothing. -/
theorem idle
    (fits : ∀ share ∈ shares, Fits scale share)
    (left_scale : left.scale = scale)
    (left_nonneg : 0 ≤ left.minorUnits)
    (nothing : 0 < left.minorUnits → shares = []) :
    IsRound scale shares left ⟨shares, left, false⟩ where
  spreads := ⟨rfl, fits, left_scale, left_nonneg, rfl⟩
  notMore := Int.le_refl _
  less := fun progressed => by cases progressed
  allFull := by
    intro _ positive
    rw [nothing positive]
    rfl

end IsRound

/-- Units can always be handed out in rounds. -/
theorem handOutOnce_isRound
    (capped : scale ≤ Money.maxScale)
    (fits : ∀ share ∈ shares, Fits scale share)
    (left_scale : left.scale = scale)
    (left_nonneg : 0 ≤ left.minorUnits)
    (left_lt : left.minorUnits < twoTo 96) :
    ∃ round,
      handOutOnce (Money.smallestUnit scale) left shares = .ok round ∧
        IsRound scale shares left round := by
  have unitScale := Money.scale_smallestUnit capped
  have unitUnits := Money.minorUnits_smallestUnit capped
  have bound : twoTo 96 = 2 * twoTo 95 := twoTo_succ 95
  induction shares generalizing left with
  | nil =>
      exact ⟨⟨[], left, false⟩, rfl,
        .idle fits left_scale left_nonneg fun _ => rfl⟩
  | cons share rest inductionHypothesis =>
      have first := fits share List.mem_cons_self
      obtain ⟨firstTarget, firstScale, firstNonneg, firstWithin⟩ := first
      obtain ⟨capacityScale, capacityPositive, capacityLt⟩ := firstTarget
      have restFits : ∀ other ∈ rest, Fits scale other :=
        fun other member => fits other (List.mem_cons_of_mem _ member)
      rw [handOutOnce]
      by_cases remains : left.isPositive = true
      · have leftPositive := left.isPositive_iff.mp remains
        rw [if_pos remains]
        obtain ⟨raised, added, raised_scale, raised_units⟩ :=
          Money.add_eq (unitScale.trans firstScale.symm)
            (by omega) (by omega) (by omega)
        rw [firstScale] at raised_scale
        rw [unitUnits] at raised_units
        simp only [added, Outcome.ok_bind]
        have sameScale : share.target.capacity.scale = raised.scale :=
          capacityScale.trans raised_scale.symm
        by_cases takes : raised ≤ share.target.capacity
        · have raisedFits : Fits scale ⟨share.target, raised⟩ :=
            { target := ⟨capacityScale, capacityPositive, capacityLt⟩
              scale_eq := raised_scale
              nonneg := by dsimp only; omega
              within := (Money.le_iff sameScale).mp takes }
          obtain ⟨still, subtracted, still_scale, still_units⟩ :=
            Money.subtract_eq (unitScale.trans left_scale.symm)
              (by omega) (by omega) (by omega)
          rw [unitUnits] at still_units
          obtain ⟨after, ran, round⟩ :=
            inductionHypothesis restFits (still_scale.trans left_scale)
              (by omega) (by omega)
          refine ⟨_, ?_, round.raise raisedFits raised_units still_units⟩
          rw [if_pos takes]
          simp only [subtracted, Outcome.ok_bind, ran, Outcome.pure_eq]
        · have full := mt (Money.le_iff sameScale).mpr takes
          obtain ⟨after, ran, round⟩ :=
            inductionHypothesis restFits left_scale left_nonneg left_lt
          refine ⟨_, ?_,
            round.keep (fits share List.mem_cons_self) (by omega)⟩
          rw [if_neg takes]
          simp only [ran, Outcome.ok_bind, Outcome.pure_eq]
      · have nothing := mt left.isPositive_iff.mpr remains
        rw [if_neg remains]
        exact ⟨_, rfl,
          .idle fits left_scale left_nonneg fun positive =>
            (nothing positive).elim⟩

/-- A round in which somebody progresses leaves less slack. -/
theorem IsRound.slack_lt
    {round : HandOut}
    (isRound : IsRound scale shares left round)
    (fits : ∀ share ∈ shares, Fits scale share)
    (left_scale : left.scale = scale)
    (left_nonneg : 0 ≤ left.minorUnits)
    (progressed : round.progressed = true) :
    slack round.left round.shares < slack left shares := by
  have spreads := isRound.spreads
  have adds := spreads.adds
  have fewer := isRound.less progressed
  have before := slack_eq fits left_scale left_nonneg
  have after := slack_eq spreads.fits spreads.left_scale spreads.left_nonneg
  rw [spreads.sameTargets] at after
  have positive := tenTo_pos (Money.maxScale - scale)
  -- What was left fell by what was shared, so it counts twice.
  have falls :
      round.left.minorUnits +
          (unitsOfRoom (shares.map (·.target)) - unitsShared round.shares) <
        left.minorUnits +
          (unitsOfRoom (shares.map (·.target)) - unitsShared shares) := by
    omega
  have scaled :=
    Int.mul_lt_mul_of_pos_right falls
      (show (0 : Int) < tenTo (Money.maxScale - scale) by omega)
  omega

/-- Units are handed out until nothing is left or everybody is full. -/
theorem handOut_spreads
    (capped : scale ≤ Money.maxScale)
    (fits : ∀ share ∈ shares, Fits scale share)
    (left_scale : left.scale = scale)
    (left_nonneg : 0 ≤ left.minorUnits)
    (left_lt : left.minorUnits < twoTo 96) :
    ∃ final,
      handOut (Money.smallestUnit scale) left shares = .ok final ∧
        final.map (·.target) = shares.map (·.target) ∧
        (∀ share ∈ final, Fits scale share) ∧
        unitsShared final =
          min (unitsShared shares + left.minorUnits)
            (unitsOfRoom (shares.map (·.target))) := by
  -- The units that are left fall with each round that is not the last.
  induction rounds : left.minorUnits.toNat using Nat.strongRecOn
      generalizing left shares with
  | ind _ inductionHypothesis =>
      have shared := unitsShared_le fits
      rw [handOut]
      by_cases remains : left.isPositive = true
      · have leftPositive := left.isPositive_iff.mp remains
        obtain ⟨round, ran, isRound⟩ :=
          handOutOnce_isRound capped fits left_scale left_nonneg left_lt
        have spreads := isRound.spreads
        have adds := spreads.adds
        have nonneg := spreads.left_nonneg
        rw [if_pos remains, ran]
        dsimp only
        by_cases progressed : round.progressed = true
        · have fewer := isRound.less progressed
          have slackFalls :=
            isRound.slack_lt fits left_scale left_nonneg progressed
          obtain ⟨final, handed, targets, finalFits, units⟩ :=
            inductionHypothesis round.left.minorUnits.toNat (by omega)
              spreads.fits spreads.left_scale nonneg (by omega) rfl
          rw [if_pos progressed, if_pos slackFalls]
          refine ⟨final, handed, targets.trans spreads.sameTargets,
            finalFits, ?_⟩
          rw [units, spreads.sameTargets, adds]
        · have full := isRound.allFull (by simpa using progressed) leftPositive
          rw [if_neg progressed]
          refine ⟨round.shares, rfl, spreads.sameTargets, spreads.fits, ?_⟩
          omega
      · have nothing := mt left.isPositive_iff.mpr remains
        rw [if_neg remains]
        refine ⟨shares, rfl, rfl, fits, ?_⟩
        omega

/-- One round is enough where it hands out all that is left. -/
theorem handOut_of_round
    {unit left rest : Money}
    {shares after : List Share}
    (positive : left.isPositive = true)
    (handed : handOutOnce unit left shares = .ok ⟨after, rest, true⟩)
    (less : slack rest after < slack left shares)
    (nothing : rest.isPositive = false) :
    handOut unit left shares = .ok after := by
  rw [handOut, if_pos positive, handed]
  simp only [if_true, if_pos less]
  rw [handOut, nothing]
  rfl

end PatronFees.Allocation
