import PatronFees.Proofs.Allocation.Rounds

namespace PatronFees

/-!
# Splits that never end

Rounds of units end where every round takes from what is left. From `2 ^ 96` units
on, what is left has no digit for a unit and stays as it is. Targets still take
units, and one on which units are lost takes them forever.
-/

namespace Money

theorem ends_add (first second : Money) :
    (first.add second).Ends := by
  rw [add]
  split
  · exact Outcome.ends_ok _
  · exact Outcome.ends_overflow _

theorem ends_subtract (first second : Money) :
    (first.subtract second).Ends := by
  rw [subtract]
  split
  · exact Outcome.ends_ok _
  · exact Outcome.ends_overflow _

theorem ends_foldlM_add
    (amounts : List Money)
    (start : Money) :
    (amounts.foldlM add start).Ends := by
  induction amounts generalizing start with
  | nil =>
      exact Outcome.ends_ok _
  | cons amount rest inductionHypothesis =>
      rw [List.foldlM_cons]
      exact (ends_add _ _).bind fun next => inductionHypothesis next

end Money

namespace Allocation

variable {scale : Nat} {left : Money} {shares : List Share} {round : HandOut}

theorem ends_evenShare
    (left : Money)
    (pending : Nat) :
    (evenShare left pending).Ends := by
  rw [evenShare]
  split
  · exact Outcome.ends_ok _
  · split
    · rw [Money.divideDown, Money.divideBy]
      split
      · exact Outcome.ends_ok _
      · exact Outcome.ends_fail _
    · exact Outcome.ends_fail _

theorem ends_offer
    (even : Money)
    (pending : Nat)
    (left : Money)
    (targets : List Target) :
    (offer even pending left targets).Ends := by
  induction targets generalizing even pending left with
  | nil =>
      exact Outcome.ends_ok _
  | cons target rest inductionHypothesis =>
      rw [offer]
      split
      · exact (Money.ends_subtract _ _).bind fun still =>
          (inductionHypothesis _ _ _).bind fun _ => Outcome.ends_ok _
      · exact (Money.ends_subtract _ _).bind fun still =>
          (ends_evenShare _ _).bind fun next =>
            (inductionHypothesis _ _ _).bind fun _ => Outcome.ends_ok _

/-- A round of units ends. -/
theorem ends_handOutOnce
    (unit left : Money)
    (shares : List Share) :
    (handOutOnce unit left shares).Ends := by
  induction shares generalizing left with
  | nil =>
      exact Outcome.ends_ok _
  | cons share rest inductionHypothesis =>
      rw [handOutOnce]
      split
      · refine (Money.ends_add _ _).bind fun raised => ?_
        split
        · exact (Money.ends_subtract _ _).bind fun still =>
            (inductionHypothesis _).bind fun _ => Outcome.ends_ok _
        · exact (inductionHypothesis _).bind fun _ => Outcome.ends_ok _
      · exact Outcome.ends_ok _

/-- Units are lost on what is left, and somebody takes them forever. -/
structure NeverEnds
    (scale : Nat)
    (left : Money)
    (shares : List Share) : Prop where
  remains : left.isPositive = true
  lost : left.amount.digits < scale
  bottomless : ∃ share ∈ shares, IsBottomless scale share

section Unit

variable (capped : scale ≤ Money.maxScale)

include capped

/-- Whatever never ends runs for another round, and never ends after it. -/
theorem NeverEnds.next
    (neverEnds : NeverEnds scale left shares)
    (left_scale : left.scale = scale)
    (within : ∀ share ∈ shares, IsWithin share) :
    ∃ round,
      handOutOnce (Money.smallestUnit scale) left shares = .ok round ∧
        round.progressed = true ∧
        NeverEnds scale round.left round.shares := by
  obtain ⟨round, ran, progresses⟩ :=
    exists_handOutOnce_of_lost capped within neverEnds.remains neverEnds.lost
  have handed := handsOut_of_handOutOnce ran
  have amount := amount_left_of_handsOut capped left_scale handed neverEnds.lost
  refine ⟨round, ran, progresses neverEnds.bottomless, ?_, ?_, ?_⟩
  · rw [Money.isPositive, Money.units, amount]
    exact neverEnds.remains
  · rw [amount]
    exact neverEnds.lost
  · exact (exists_isBottomless_iff capped handed).mpr neverEnds.bottomless

/-- What never ends after a round that progressed never ended before it. -/
theorem NeverEnds.of_next
    (neverEnds : NeverEnds scale round.left round.shares)
    (left_scale : left.scale = scale)
    (remains : left.isPositive = true)
    (handed : HandsOut (Money.smallestUnit scale) left shares round) :
    NeverEnds scale left shares where
  remains := remains
  lost := by
    refine (hasAllDigits_or_lost left_scale).resolve_left fun allDigits => ?_
    have roundDigits := (left_of_handsOut capped left_scale handed allDigits).1
    have round_scale := scale_of_handsOut capped left_scale handed
    have lost := neverEnds.lost
    rw [Money.HasAllDigits] at roundDigits
    omega
  bottomless := (exists_isBottomless_iff capped handed).mp neverEnds.bottomless

/-- A round that progresses without using slack up is the first of rounds without end. -/
theorem neverEnds_of_slack_le
    (left_scale : left.scale = scale)
    (remains : left.isPositive = true)
    (handed : HandsOut (Money.smallestUnit scale) left shares round)
    (progressed : round.progressed = true)
    (notLess : ¬ slack round.left round.shares < slack left shares) :
    NeverEnds scale left shares where
  remains := remains
  lost :=
    (hasAllDigits_or_lost left_scale).resolve_left fun allDigits =>
      notLess (slack_lt_of_handsOut capped left_scale handed progressed (.inl allDigits))
  bottomless := by
    by_contra none
    refine notLess
      (slack_lt_of_handsOut capped left_scale handed progressed (.inr ?_))
    exact fun share member bottomless => none ⟨share, member, bottomless⟩

/-- Handing out never ends exactly where that is seen at its start. -/
theorem handOut_endless_iff
    (left_scale : left.scale = scale)
    (within : ∀ share ∈ shares, IsWithin share) :
    handOut (Money.smallestUnit scale) left shares = .error .endless ↔
      NeverEnds scale left shares := by
  fun_induction handOut (Money.smallestUnit scale) left shares with
  | case1 left shares remains halt failed =>
      constructor
      · intro endless
        rw [Except.error.inj endless] at failed
        exact (ends_handOutOnce _ _ _ failed).elim
      · intro neverEnds
        obtain ⟨_, ran, -⟩ := neverEnds.next capped left_scale within
        cases failed.symm.trans ran
  | case2 left shares remains round ran progressed less inductionHypothesis =>
      have handed := handsOut_of_handOutOnce ran
      rw [inductionHypothesis (scale_of_handsOut capped left_scale handed)
        (isWithin_of_handsOut within handed)]
      constructor
      · exact fun neverEnds => neverEnds.of_next capped left_scale remains handed
      · intro neverEnds
        obtain ⟨same, alsoRan, -, later⟩ := neverEnds.next capped left_scale within
        rwa [Except.ok.inj (alsoRan.symm.trans ran)] at later
  | case3 left shares remains round ran progressed notLess =>
      exact iff_of_true rfl
        (neverEnds_of_slack_le capped left_scale remains (handsOut_of_handOutOnce ran)
          progressed notLess)
  | case4 left shares remains round ran idle =>
      refine iff_of_false (fun ended => by cases ended) fun neverEnds => ?_
      obtain ⟨same, alsoRan, progressed, -⟩ := neverEnds.next capped left_scale within
      rw [Except.ok.inj (alsoRan.symm.trans ran)] at progressed
      exact idle progressed
  | case5 left shares none =>
      exact iff_of_false (fun ended => by cases ended)
        fun neverEnds => none neverEnds.remains

end Unit

/-- What is left, and the shares, after some rounds that all progressed. -/
def afterRounds
    (unit : Money) :
    Nat → Money → List Share → Option (Money × List Share)
  | 0, left, shares => some (left, shares)
  | rounds + 1, left, shares =>
      if left.isPositive then
        match handOutOnce unit left shares with
        | .error _ => none
        | .ok round =>
            if round.progressed then
              afterRounds unit rounds round.left round.shares
            else
              none
      else
        none

section Rounds

variable {unit : Money}

theorem afterRounds_succ
    (rounds : Nat)
    (remains : left.isPositive = true)
    (ran : handOutOnce unit left shares = .ok round)
    (progressed : round.progressed = true) :
    afterRounds unit (rounds + 1) left shares =
      afterRounds unit rounds round.left round.shares := by
  rw [afterRounds, if_pos remains, ran]
  exact if_pos progressed

/-- Handing out that ends has a round that does not progress. -/
theorem exists_afterRounds_eq_none
    (ends : handOut unit left shares ≠ .error .endless) :
    ∃ rounds, afterRounds unit rounds left shares = none := by
  fun_induction handOut unit left shares with
  | case1 left shares remains halt failed =>
      refine ⟨1, ?_⟩
      rw [afterRounds, if_pos remains, failed]
  | case2 left shares remains round ran progressed less inductionHypothesis =>
      obtain ⟨rounds, none⟩ := inductionHypothesis ends
      exact ⟨rounds + 1, (afterRounds_succ rounds remains ran progressed).trans none⟩
  | case3 left shares remains round ran progressed notLess =>
      exact (ends rfl).elim
  | case4 left shares remains round ran idle =>
      refine ⟨1, ?_⟩
      rw [afterRounds, if_pos remains, ran]
      exact if_neg idle
  | case5 left shares none =>
      exact ⟨1, by rw [afterRounds, if_neg none]⟩

/-- Rounds run without end exactly where handing out never ends. -/
theorem neverEnds_iff_forall_rounds
    (capped : scale ≤ Money.maxScale)
    (left_scale : left.scale = scale)
    (within : ∀ share ∈ shares, IsWithin share) :
    NeverEnds scale left shares ↔
      ∀ rounds,
        (afterRounds (Money.smallestUnit scale) rounds left shares).isSome = true := by
  constructor
  · intro neverEnds rounds
    induction rounds generalizing left shares with
    | zero =>
        rfl
    | succ rounds inductionHypothesis =>
        obtain ⟨round, ran, progressed, later⟩ :=
          neverEnds.next capped left_scale within
        have handed := handsOut_of_handOutOnce ran
        rw [afterRounds_succ rounds neverEnds.remains ran progressed]
        exact inductionHypothesis (scale_of_handsOut capped left_scale handed)
          (isWithin_of_handsOut within handed) later
  · intro always
    rw [← handOut_endless_iff capped left_scale within]
    by_contra ends
    obtain ⟨rounds, none⟩ := exists_afterRounds_eq_none ends
    have some := always rounds
    rw [none] at some
    cases some

/-- Rounds keep the scale of what is left. -/
theorem scale_of_afterRounds
    (capped : scale ≤ Money.maxScale)
    (left_scale : left.scale = scale)
    {rounds : Nat}
    {before : Money}
    {reached : List Share}
    (ran :
      afterRounds (Money.smallestUnit scale) rounds left shares =
        some (before, reached)) :
    before.scale = scale := by
  induction rounds generalizing left shares with
  | zero =>
      obtain ⟨rfl, -⟩ := Prod.mk.inj (Option.some.inj ran)
      exact left_scale
  | succ rounds inductionHypothesis =>
      rw [afterRounds] at ran
      split at ran
      next =>
        split at ran
        next =>
          cases ran
        next round once =>
          split at ran
          next =>
            exact inductionHypothesis
              (scale_of_handsOut capped left_scale (handsOut_of_handOutOnce once)) ran
          next =>
            cases ran
      next =>
        cases ran

end Rounds

section Split

variable {total even leftover : Money} {pending : Nat} {targets served : List Target}

/-- Nobody is offered more than its capacity, and what is left keeps its scale. -/
theorem isWithin_of_offer
    (offered : offer even pending left targets = .ok (shares, leftover)) :
    (∀ share ∈ shares, IsWithin share) ∧ leftover.scale = left.scale := by
  induction targets generalizing even pending left shares leftover with
  | nil =>
      obtain ⟨rfl, rfl⟩ := Prod.mk.inj (Except.ok.inj offered)
      exact ⟨List.forall_mem_nil _, rfl⟩
  | cons target rest inductionHypothesis =>
      by_cases takesEven : even ≤ target.capacity
      · obtain ⟨still, others, subtracted, offeredRest, rfl⟩ :=
          (offer_cons_of_room takesEven).mp offered
        obtain ⟨within, scale⟩ := inductionHypothesis offeredRest
        refine ⟨List.forall_mem_cons.mpr ⟨?_, within⟩,
          scale.trans (Money.scale_of_subtract subtracted)⟩
        exact Int.le_trans (Money.units_min_le even left) takesEven
      · obtain ⟨still, next, others, subtracted, -, offeredRest, rfl⟩ :=
          (offer_cons_of_filled takesEven).mp offered
        obtain ⟨within, scale⟩ := inductionHypothesis offeredRest
        exact ⟨List.forall_mem_cons.mpr ⟨Int.le_refl _, within⟩,
          scale.trans (Money.scale_of_subtract subtracted)⟩

theorem isWithin_of_offersOf
    (offered : offersOf total served = .ok (shares, left)) :
    (∀ share ∈ shares, IsWithin share) ∧ left.scale = total.scale := by
  obtain ⟨even, -, onward⟩ := Outcome.bind_eq_ok_iff.mp offered
  exact isWithin_of_offer onward

theorem ends_offersOf
    (total : Money)
    (served : List Target) :
    (offersOf total served).Ends :=
  (ends_evenShare _ _).bind fun _ => ends_offer _ _ _ _

/-- Sharing never ends where handing out what the offers leave over does not. -/
theorem sharesAmong_endless_iff :
    sharesAmong total served = .error .endless ↔
      ∃ offers left,
        offersOf total served = .ok (offers, left) ∧
          NeverEnds total.scale left offers := by
  rw [sharesAmong_eq, Outcome.bind_endless_iff]
  constructor
  · rintro (endless | ⟨⟨offers, left⟩, offered, endless⟩)
    · exact (ends_offersOf _ _ endless).elim
    · obtain ⟨within, left_scale⟩ := isWithin_of_offersOf offered
      exact ⟨offers, left, offered,
        (handOut_endless_iff total.scale_le left_scale within).mp endless⟩
  · rintro ⟨offers, left, offered, neverEnds⟩
    obtain ⟨within, left_scale⟩ := isWithin_of_offersOf offered
    exact .inr ⟨(offers, left), offered,
      (handOut_endless_iff total.scale_le left_scale within).mpr neverEnds⟩

/-- A split never ends exactly where sharing does not. -/
theorem split_endless_iff :
    split total targets = .error .endless ↔
      ∃ offers left,
        offersOf total (serviceOrder targets) = .ok (offers, left) ∧
          NeverEnds total.scale left offers := by
  rw [← sharesAmong_endless_iff, split]
  split
  next isEmpty =>
    refine iff_of_false (fun ended => by cases ended) fun endless => ?_
    rw [List.isEmpty_iff.mp isEmpty, sharesAmong_endless_iff] at endless
    obtain ⟨offers, left, offered, neverEnds⟩ := endless
    obtain ⟨even, -, onward⟩ := Outcome.bind_eq_ok_iff.mp offered
    obtain ⟨share, member, -⟩ := neverEnds.bottomless
    have served := List.mem_map_of_mem (f := (·.target)) member
    rw [map_target_of_offer onward, serviceOrder, List.filter_nil, List.mergeSort_nil]
      at served
    cases served
  next =>
    rw [Outcome.bind_endless_iff]
    refine ⟨fun endless => endless.resolve_right ?_, .inl⟩
    rintro ⟨shares, -, endless⟩
    refine Outcome.Ends.bind (Money.ends_foldlM_add _ _) (fun allocated => ?_) endless
    split
    · exact Outcome.ends_ok _
    · exact Outcome.ends_fail _

end Split

section InRange

variable {even left leftover : Money} {pending : Nat} {targets : List Target}
  {shares : List Share}

/-- An even share of what is not negative is between nothing and all of it. -/
theorem units_of_evenShare
    (allDigits : left.HasAllDigits)
    (nonneg : 0 ≤ left.minorUnits)
    (shared : evenShare left pending = .ok even) :
    0 ≤ even.units ∧ even.units ≤ left.units := by
  rcases Nat.lt_or_ge pending (twoTo 96) with few | many
  · obtain ⟨same, alsoShared, scale, atLeast, atMost⟩ :=
      evenShare_between allDigits nonneg few
    obtain rfl := Except.ok.inj (alsoShared.symm.trans shared)
    exact ⟨Money.units_nonneg atLeast, (Money.le_iff scale.symm).mpr atMost⟩
  · have positive := twoTo_pos 96
    rw [evenShare, if_neg (by omega), Decimal.make?, dif_neg (by omega)] at shared
    cases shared

/-- Offers to targets with room leave no less than nothing. -/
theorem hasAllDigits_of_room
    (even_nonneg : 0 ≤ even.units)
    (room : ∀ target ∈ targets, even ≤ target.capacity)
    (allDigits : left.HasAllDigits)
    (nonneg : 0 ≤ left.minorUnits)
    (offered : offer even pending left targets = .ok (shares, leftover)) :
    leftover.HasAllDigits := by
  induction targets generalizing left shares leftover with
  | nil =>
      obtain ⟨-, rfl⟩ := Prod.mk.inj (Except.ok.inj offered)
      exact allDigits
  | cons target rest inductionHypothesis =>
      obtain ⟨firstRoom, restRoom⟩ := List.forall_mem_cons.mp room
      obtain ⟨still, others, subtracted, offeredRest, -⟩ :=
        (offer_cons_of_room firstRoom).mp offered
      have left_lt := Money.minorUnits_lt allDigits
      obtain ⟨amountNonneg, within⟩ :=
        Money.units_min_between even_nonneg (Money.units_nonneg nonneg)
      obtain ⟨atLeast, atMost⟩ :=
        Money.minorUnits_of_subtract allDigits amountNonneg within subtracted
      exact inductionHypothesis restRoom (Money.hasAllDigits_of_lt (by omega)) atLeast
        offeredRest

/-- Offers in the order of capacities leave no less than nothing. -/
theorem hasAllDigits_of_offer
    (positive : ∀ target ∈ targets, 0 ≤ target.capacity.units)
    (ordered :
      targets.Pairwise fun first second =>
        first.capacity.units ≤ second.capacity.units)
    (allDigits : left.HasAllDigits)
    (nonneg : 0 ≤ left.minorUnits)
    (shared : evenShare left targets.length = .ok even)
    (offered : offer even targets.length left targets = .ok (shares, leftover)) :
    leftover.HasAllDigits := by
  induction targets generalizing even left shares leftover with
  | nil =>
      obtain ⟨-, rfl⟩ := Prod.mk.inj (Except.ok.inj offered)
      exact allDigits
  | cons target rest inductionHypothesis =>
      obtain ⟨firstLeast, restOrdered⟩ := List.pairwise_cons.mp ordered
      obtain ⟨firstPositive, restPositive⟩ := List.forall_mem_cons.mp positive
      obtain ⟨even_nonneg, even_le⟩ := units_of_evenShare allDigits nonneg shared
      by_cases takesEven : even ≤ target.capacity
      · refine hasAllDigits_of_room even_nonneg ?_ allDigits nonneg offered
        exact List.forall_mem_cons.mpr
          ⟨takesEven, fun other member =>
            Int.le_trans takesEven (firstLeast other member)⟩
      · have firstLess : target.capacity.units < even.units := Int.not_le.mp takesEven
        obtain ⟨still, next, others, subtracted, nextShared, offeredRest, -⟩ :=
          (offer_cons_of_filled takesEven).mp offered
        have left_lt := Money.minorUnits_lt allDigits
        obtain ⟨atLeast, atMost⟩ :=
          Money.minorUnits_of_subtract allDigits firstPositive (by omega) subtracted
        exact inductionHypothesis restPositive restOrdered
          (Money.hasAllDigits_of_lt (by omega)) atLeast nextShared offeredRest

/-- A total from nothing to below `2 ^ 96` units is never shared without end. -/
theorem split_ends_of_hasAllDigits
    {total : Money}
    (allDigits : total.HasAllDigits)
    (nonneg : 0 ≤ total.minorUnits)
    (targets : List Target) :
    (split total targets).Ends := by
  rw [Outcome.Ends, Ne, split_endless_iff]
  rintro ⟨offers, left, offered, neverEnds⟩
  obtain ⟨-, left_scale⟩ := isWithin_of_offersOf offered
  obtain ⟨even, shared, onward⟩ := Outcome.bind_eq_ok_iff.mp offered
  have positive :
      ∀ target ∈ serviceOrder targets, 0 ≤ target.capacity.units :=
    fun target member =>
      Money.units_nonneg (Int.le_of_lt (mem_serviceOrder.mp member).2)
  have leftDigits :=
    hasAllDigits_of_offer positive
      ((serviceOrder_pairwise targets).imp Target.units_le_of_precedes) allDigits
      nonneg shared onward
  have lost := neverEnds.lost
  rw [Money.HasAllDigits] at leftDigits
  omega

end InRange

/--
A split comes to a result, a failure or an overflow unless the offers leave at least
`2 ^ 96` units over and a target takes units forever. Rounds then progress without
end: a round that progresses takes from what is left exactly if that has all digits.
-/
theorem split_ends
    (total : Money)
    (targets : List Target) :
    ((split total targets).Ends ↔
        ¬ ∃ offers left,
          offersOf total (serviceOrder targets) = .ok (offers, left) ∧
            NeverEnds total.scale left offers) ∧
      ∀ offers left,
        offersOf total (serviceOrder targets) = .ok (offers, left) →
          (NeverEnds total.scale left offers ↔
              ∀ rounds,
                (afterRounds (Money.smallestUnit total.scale) rounds left
                  offers).isSome = true) ∧
            ∀ rounds before shares round,
              afterRounds (Money.smallestUnit total.scale) rounds left offers =
                  some (before, shares) →
                handOutOnce (Money.smallestUnit total.scale) before shares =
                    .ok round →
                  round.progressed = true →
                    (round.left < before ↔ before.HasAllDigits) := by
  refine ⟨not_congr split_endless_iff, ?_⟩
  intro offers left offered
  obtain ⟨within, left_scale⟩ := isWithin_of_offersOf offered
  refine ⟨neverEnds_iff_forall_rounds total.scale_le left_scale within, ?_⟩
  intro rounds before shares round ran once progressed
  exact left_lt_iff_of_progressed total.scale_le
    (scale_of_afterRounds total.scale_le left_scale ran)
    (handsOut_of_handOutOnce once) progressed

/-- So many times `10 ^ 28`, with room for no digit of its scale. -/
def hugeAmount (times : Int) : Money :=
  .ofDecimal ((Decimal.make? (times * tenTo 28) 0).getD .zero) 2

/--
A target takes a seventh of a huge total, and then a unit in every round, which
changes neither its share nor what is left.
-/
theorem split_never_ends_hugeTotal :
    let target : Target := ⟨"a", hugeAmount 1, .epoch⟩
    let offers : List Share := [⟨target, hugeAmount 1⟩]
    split (hugeAmount 7) [target] = .error .endless ∧
      offersOf (hugeAmount 7) (serviceOrder [target]) =
        .ok (offers, hugeAmount 6) ∧
      handOutOnce (Money.smallestUnit 2) (hugeAmount 6) offers =
        .ok ⟨offers, hugeAmount 6, true⟩ := by
  intro target offers
  have inOrder : serviceOrder [target] = [target] :=
    serviceOrder_of_ordered (by decide +kernel) (List.pairwise_singleton _ _)
  have offered :
      offersOf (hugeAmount 7) (serviceOrder [target]) =
        .ok (offers, hugeAmount 6) := by
    rw [inOrder]
    decide +kernel
  refine ⟨split_endless_iff.mpr ⟨offers, hugeAmount 6, offered, ?_⟩, offered,
    by decide +kernel⟩
  exact ⟨by decide +kernel, by decide +kernel, by decide +kernel⟩

end Allocation

end PatronFees
