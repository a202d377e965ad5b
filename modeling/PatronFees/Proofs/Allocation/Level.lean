import PatronFees.Proofs.Allocation.HandOut
import PatronFees.Proofs.Allocation.Offer

namespace PatronFees.Allocation

/-!
# Levels

Shares are at a level if each is the level, or the capacity of its target where
that is less. Even shares only grow as targets with less room are filled, so
offers are at the level of the last of them. A round of units raises shares to
the next level one after another, all of them or until nothing is left.
-/

/-- Every share is what its target receives at a level. -/
def AreAtLevel
    (level : Int)
    (shares : List Share) : Prop :=
  ∀ share ∈ shares,
    share.amount.minorUnits = min share.target.capacity.minorUnits level

/-- The first shares are one level up, and the others still at the level. -/
def AreNearLevel
    (level : Int)
    (shares : List Share) : Prop :=
  ∃ raised waiting,
    shares = raised ++ waiting ∧
      AreAtLevel (level + 1) raised ∧
      AreAtLevel level waiting

/-- A round raised all shares by a level, or the first of them with all that was left. -/
def Raised
    (level : Int)
    (shares : List Share)
    (left : Money) : Prop :=
  AreAtLevel (level + 1) shares ∨
    AreNearLevel level shares ∧ ¬ left.isPositive = true

namespace AreAtLevel

variable {level : Int} {shares : List Share} {share : Share}

theorem nil : AreAtLevel level [] :=
  fun _ member => by cases member

theorem cons
    (first :
      share.amount.minorUnits = min share.target.capacity.minorUnits level)
    (others : AreAtLevel level shares) :
    AreAtLevel level (share :: shares) :=
  List.forall_mem_cons.mpr ⟨first, others⟩

/-- Shares at a level have none raised. -/
theorem areNearLevel
    (atLevel : AreAtLevel level shares) :
    AreNearLevel level shares :=
  ⟨[], shares, rfl, nil, atLevel⟩

end AreAtLevel

/-- A share one level up in front of raised ones. -/
theorem Raised.cons
    {level : Int}
    {share : Share}
    {shares : List Share}
    {left : Money}
    (first :
      share.amount.minorUnits = min share.target.capacity.minorUnits (level + 1))
    (others : Raised level shares left) :
    Raised level (share :: shares) left := by
  rcases others with all | ⟨⟨raised, waiting, rfl, up, still⟩, nothing⟩
  · exact .inl (.cons first all)
  · exact .inr ⟨⟨share :: raised, waiting, rfl, .cons first up, still⟩, nothing⟩

section Offers

variable {scale spare : Nat} {targets : List Target} {even left leftover : Money}
  {shares : List Share}

/-- Targets with room for the even share receive it where there is enough for all. -/
theorem areAtLevel_of_room
    {pending : Nat}
    (isOpen : ∀ target ∈ targets, IsOpenTo scale target)
    (takes :
      ∀ target ∈ targets, even.minorUnits ≤ target.capacity.minorUnits)
    (even_scale : even.scale = scale)
    (even_nonneg : 0 ≤ even.minorUnits)
    (left_scale : left.scale = scale)
    (left_lt : left.minorUnits < twoTo 96)
    (enough : targets.length * even.minorUnits ≤ left.minorUnits)
    (offered : offer even pending left targets = .ok (shares, leftover)) :
    AreAtLevel even.minorUnits shares := by
  induction targets generalizing left shares leftover with
  | nil =>
      obtain ⟨rfl, -⟩ := Prod.mk.inj (Except.ok.inj offered)
      exact .nil
  | cons target rest inductionHypothesis =>
      have firstOpen := isOpen target List.mem_cons_self
      have firstTakes := takes target List.mem_cons_self
      have takesEven : even ≤ target.capacity :=
        (Money.le_iff (firstOpen.scale_eq.trans even_scale.symm)).mpr firstTakes
      have sameScale : left.scale = even.scale :=
        left_scale.trans even_scale.symm
      have othersEnough : (0 : Int) ≤ rest.length * even.minorUnits :=
        Int.mul_nonneg (by omega) even_nonneg
      rw [List.length_cons, Int.natCast_succ, Int.add_mul, Int.one_mul] at enough
      have amountUnits := Money.minorUnits_min sameScale
      obtain ⟨still, others, subtracted, offeredRest, rfl⟩ :=
        (offer_cons_of_room takesEven).mp offered
      have still_scale := Money.scale_of_subtract subtracted
      have still_units :=
        Money.subtract_inv ((Money.scale_min sameScale).trans sameScale.symm)
          (by omega) (by omega) (by omega) subtracted
      refine .cons (by dsimp only; omega) ?_
      exact inductionHypothesis
        (fun other member => isOpen other (List.mem_cons_of_mem _ member))
        (fun other member => takes other (List.mem_cons_of_mem _ member))
        (still_scale.trans left_scale) (by omega) (by omega) offeredRest

/-- A part that takes less than the even share leaves no less for each of the others. -/
theorem le_ediv_sub
    {total part : Int}
    {count : Nat}
    (positive : 0 < count)
    (less : part < total / (count + 1 : Nat)) :
    total / (count + 1 : Nat) ≤ (total - part) / count := by
  apply (Int.le_ediv_iff_mul_le (by omega)).mpr
  have whole := Int.mul_ediv_add_emod total (count + 1 : Nat)
  have remainder := Int.emod_nonneg total
    (show ((count + 1 : Nat) : Int) ≠ 0 by omega)
  rw [Int.natCast_succ, Int.add_mul, Int.one_mul] at whole
  rw [Int.natCast_succ] at less remainder ⊢
  rw [Int.mul_comm]
  omega

/-- With digits to spare for the count, an even share is a floor. -/
theorem floor_of_evenShare
    {count : Nat}
    (few : count ≤ tenTo spare)
    (within : scale + spare ≤ 28)
    (roomy : left.minorUnits * tenTo spare < twoTo 96)
    (left_scale : left.scale = scale)
    (left_nonneg : 0 ≤ left.minorUnits)
    (shared : evenShare left count = .ok even) :
    even.scale = scale ∧ even.minorUnits = left.minorUnits / count := by
  obtain ⟨same, alsoShared, even_scale, even_units⟩ :=
    evenShare_floor left_nonneg few (left_scale ▸ within) roomy
  obtain rfl := Except.ok.inj (alsoShared.symm.trans shared)
  exact ⟨even_scale.trans left_scale, even_units⟩

/-- What is left behind a target that was filled has digits to spare as well. -/
theorem still_of_filled
    {target : Target}
    {still : Money}
    (isOpen : IsOpenTo scale target)
    (less : target.capacity.minorUnits ≤ left.minorUnits)
    (roomy : left.minorUnits * tenTo spare < twoTo 96)
    (left_scale : left.scale = scale)
    (subtracted : left.subtract target.capacity = .ok still) :
    still.scale = scale ∧
      still.minorUnits = left.minorUnits - target.capacity.minorUnits ∧
      still.minorUnits * tenTo spare < twoTo 96 := by
  have positive := isOpen.positive
  have left_lt := le_mul_tenTo (show 0 ≤ left.minorUnits by omega) spare
  have still_units :=
    Money.subtract_inv (isOpen.scale_eq.trans left_scale.symm)
      (by omega) (by omega) (by omega) subtracted
  have stillRoomy := Int.mul_le_mul_of_nonneg_right
    (show still.minorUnits ≤ left.minorUnits by omega)
    (show (0 : Int) ≤ tenTo spare by omega)
  exact ⟨(Money.scale_of_subtract subtracted).trans left_scale, still_units, by omega⟩

/-- Offers of floors to targets in the order of their capacities are at a level. -/
theorem exists_areAtLevel_of_offer
    (isOpen : ∀ target ∈ targets, IsOpenTo scale target)
    (ordered :
      targets.Pairwise fun first second =>
        first.capacity.minorUnits ≤ second.capacity.minorUnits)
    (few : targets.length ≤ tenTo spare)
    (within : scale + spare ≤ 28)
    (roomy : left.minorUnits * tenTo spare < twoTo 96)
    (shared : evenShare left targets.length = .ok even)
    (left_scale : left.scale = scale)
    (left_nonneg : 0 ≤ left.minorUnits)
    (offered : offer even targets.length left targets = .ok (shares, leftover)) :
    ∃ level, even.minorUnits ≤ level ∧ AreAtLevel level shares := by
  induction targets generalizing left even shares leftover with
  | nil =>
      obtain ⟨rfl, -⟩ := Prod.mk.inj (Except.ok.inj offered)
      exact ⟨even.minorUnits, Int.le_refl _, .nil⟩
  | cons target rest inductionHypothesis =>
      obtain ⟨firstOpen, restOpen⟩ := List.forall_mem_cons.mp isOpen
      obtain ⟨firstLeast, restOrdered⟩ := List.pairwise_cons.mp ordered
      obtain ⟨even_scale, even_units⟩ :=
        floor_of_evenShare few within roomy left_scale left_nonneg shared
      rw [List.length_cons] at few even_units
      have leIff := Money.le_iff (firstOpen.scale_eq.trans even_scale.symm)
      by_cases takesEven : even ≤ target.capacity
      · -- Everyone behind has at least as much room, so all take even shares.
        have firstTakes := leIff.mp takesEven
        have left_lt := le_mul_tenTo left_nonneg spare
        have even_nonneg : 0 ≤ even.minorUnits :=
          even_units ▸ Int.ediv_nonneg left_nonneg (by omega)
        have enough : (rest.length + 1 : Nat) * even.minorUnits ≤ left.minorUnits :=
          even_units ▸ Int.mul_ediv_self_le (by omega)
        refine ⟨even.minorUnits, Int.le_refl _,
          areAtLevel_of_room isOpen (List.forall_mem_cons.mpr ⟨firstTakes, ?_⟩)
            even_scale even_nonneg left_scale (by omega) enough offered⟩
        exact fun other member => Int.le_trans firstTakes (firstLeast other member)
      · have firstLess := Int.not_le.mp (mt leIff.mpr takesEven)
        have even_le : even.minorUnits ≤ left.minorUnits :=
          even_units ▸ Int.ediv_le_self _ left_nonneg
        obtain ⟨still, next, others, subtracted, nextShared, offeredRest, rfl⟩ :=
          (offer_cons_of_filled takesEven).mp offered
        obtain ⟨still_scale, still_units, stillRoomy⟩ :=
          still_of_filled firstOpen (by omega) roomy left_scale subtracted
        rcases Nat.eq_zero_or_pos rest.length with none | some
        · -- The last target has less room than all that is left for it.
          obtain rfl := List.eq_nil_of_length_eq_zero none
          obtain ⟨rfl, -⟩ := Prod.mk.inj (Except.ok.inj offeredRest)
          exact ⟨even.minorUnits, Int.le_refl _, .cons (by dsimp only; omega) .nil⟩
        · obtain ⟨level, above, atLevel⟩ :=
            inductionHypothesis restOpen restOrdered (by omega) stillRoomy nextShared
              still_scale (by omega) offeredRest
          obtain ⟨-, next_units⟩ :=
            floor_of_evenShare (show rest.length ≤ tenTo spare by omega) within
              stillRoomy still_scale (by omega) nextShared
          have grows := le_ediv_sub some (even_units ▸ firstLess)
          rw [← still_units, ← next_units, ← even_units] at grows
          exact ⟨level, by omega, .cons (by dsimp only; omega) atLevel⟩

end Offers

section HandingOut

variable {scale : Nat} {level : Int} {left : Money} {shares : List Share}

/-- A round of units over shares at a level raises them one after another. -/
theorem raised_of_handsOut
    {round : HandOut}
    (capped : scale ≤ Money.maxScale)
    (fits : ∀ share ∈ shares, Fits scale share)
    (atLevel : AreAtLevel level shares)
    (left_scale : left.scale = scale)
    (left_lt : left.minorUnits < twoTo 96)
    (handed : HandsOut (Money.smallestUnit scale) left shares round) :
    Raised level round.shares round.left := by
  induction handed with
  | nobody =>
      exact .inl .nil
  | nothing _ _ none =>
      exact .inr ⟨atLevel.areNearLevel, none⟩
  | @takes left raised still share rest after remains added room subtracted others
      inductionHypothesis =>
      obtain ⟨first, restFits⟩ := List.forall_mem_cons.mp fits
      obtain ⟨firstAt, restAt⟩ := List.forall_mem_cons.mp atLevel
      obtain ⟨raised_scale, raised_units⟩ := first.units_of_added capped added
      obtain ⟨still_scale, still_units⟩ :=
        units_of_subtracted capped left_scale left_lt remains subtracted
      have hasRoom :=
        (Money.le_iff (first.target.scale_eq.trans raised_scale.symm)).mp room
      exact .cons (by dsimp only; omega)
        (inductionHypothesis restFits restAt still_scale (by omega))
  | @full left raised share rest after remains added noRoom others
      inductionHypothesis =>
      obtain ⟨first, restFits⟩ := List.forall_mem_cons.mp fits
      obtain ⟨firstAt, restAt⟩ := List.forall_mem_cons.mp atLevel
      obtain ⟨raised_scale, raised_units⟩ := first.units_of_added capped added
      have within := first.within
      have isFull := mt
        (Money.le_iff (first.target.scale_eq.trans raised_scale.symm)).mpr noRoom
      exact .cons (by omega) (inductionHypothesis restFits restAt left_scale left_lt)

/-- Units handed out over shares at a level bring them near some level. -/
theorem exists_areNearLevel_of_handOut
    {final : List Share}
    (capped : scale ≤ Money.maxScale)
    (fits : ∀ share ∈ shares, Fits scale share)
    (atLevel : AreAtLevel level shares)
    (level_nonneg : 0 ≤ level)
    (left_scale : left.scale = scale)
    (left_nonneg : 0 ≤ left.minorUnits)
    (left_lt : left.minorUnits < twoTo 96)
    (handed :
      handOut (Money.smallestUnit scale) left shares = .ok final) :
    ∃ level, 0 ≤ level ∧ AreNearLevel level final := by
  fun_induction handOut (Money.smallestUnit scale) left shares
    generalizing level with
  | case1 left shares positive halt failed =>
      cases handed
  | case2 left shares positive round once progressed less inductionHypothesis =>
      obtain ⟨same, alsoOnce, isRound⟩ :=
        handOutOnce_isRound capped fits left_scale left_nonneg left_lt
      obtain rfl := Except.ok.inj (alsoOnce.symm.trans once)
      have notMore := isRound.notMore
      rcases raised_of_handsOut capped fits atLevel left_scale left_lt
          (handsOut_of_handOutOnce once) with all | ⟨near, nothing⟩
      · exact inductionHypothesis isRound.spreads.fits all (by omega)
          isRound.spreads.left_scale isRound.spreads.left_nonneg (by omega) handed
      · rw [handOut, if_neg nothing] at handed
        obtain rfl := Except.ok.inj handed
        exact ⟨level, level_nonneg, near⟩
  | case3 left shares positive round once progressed notLess =>
      cases handed
  | case4 left shares positive round once idle =>
      obtain rfl := Except.ok.inj handed
      rcases raised_of_handsOut capped fits atLevel left_scale left_lt
          (handsOut_of_handOutOnce once) with all | ⟨near, -⟩
      · exact ⟨level + 1, by omega, all.areNearLevel⟩
      · exact ⟨level, level_nonneg, near⟩
  | case5 left shares nothing =>
      obtain rfl := Except.ok.inj handed
      exact ⟨level, level_nonneg, atLevel.areNearLevel⟩

end HandingOut

end PatronFees.Allocation
