import PatronFees.Proofs.Money.Exact
import PatronFees.Proofs.Money.Rendering

namespace PatronFees.Money

open List

/-!
# Arithmetic at one scale

Amounts that have all digits of a scale are whole numbers of its smallest units.
As long as there are less than `2 ^ 96` of them, sums and differences are those of
the numbers: nothing is rounded, no digit is lost and a zero has no sign. Amounts
that are summed up need that of each partial sum; the order in which they are
taken then makes no difference. Comparisons are those of the numbers in any case.
-/

/--
A result is a whole number of the units of a scale, with all digits of it, and is
written with a minus sign exactly below zero.
-/
def IsCount
    (scale : Nat)
    (units : Int)
    (result : Outcome Money) : Prop :=
  ∃ money,
    result = .ok money ∧
      money.IsFullAt scale ∧
      money.minorUnits = units ∧
      (money.text.toList.head? = some '-' ↔ units < 0)

/-- Two amounts compare as their numbers of units do. -/
structure CompareAsCounts (first second : Money) : Prop where
  equal : first.equals second = true ↔ first.minorUnits = second.minorUnits
  ordering :
    first.compare second = Ord.compare first.minorUnits second.minorUnits
  less : first < second ↔ first.minorUnits < second.minorUnits
  atMost : first ≤ second ↔ first.minorUnits ≤ second.minorUnits
  least :
    min first second =
      if first.minorUnits ≤ second.minorUnits then first else second

/-- An amount has the sign of its number of units. -/
structure HasSignOfCount (money : Money) : Prop where
  zero : money.isZero = true ↔ money.minorUnits = 0
  positive : money.isPositive = true ↔ 0 < money.minorUnits
  negative : money.isNegative = true ↔ money.minorUnits < 0

section Pair

variable {scale : Nat} {first second : Money}

theorem compareAsCounts
    (same : second.scale = first.scale) :
    CompareAsCounts first second where
  equal := equals_iff same
  ordering := by
    have less : first.units < second.units ↔ _ := lt_iff same
    change compareOfLessAndEq first.units second.units =
      compareOfLessAndEq first.minorUnits second.minorUnits
    simp only [compareOfLessAndEq, less, units_eq_iff same]
  less := lt_iff same
  atMost := le_iff same
  least := by
    change (if first ≤ second then first else second) = _
    simp only [le_iff same]

theorem hasSignOfCount (money : Money) :
    HasSignOfCount money :=
  ⟨isZero_iff money, isPositive_iff money, isNegative_iff money⟩

/-- An amount of less than `2 ^ 96` units at a scale is a count of them. -/
theorem isCount_of_lt
    {money : Money}
    {units : Int}
    (atScale : money.scale = scale)
    (counted : money.minorUnits = units)
    (inRange : units.natAbs < twoTo 96) :
    IsCount scale units (.ok money) := by
  have allDigits : money.HasAllDigits :=
    hasAllDigits_of_lt (counted.symm ▸ inRange)
  have sign := money.head?_text_eq_minus_iff.trans (isNegative_iff money)
  rw [counted] at sign
  exact ⟨money, rfl, ⟨atScale, allDigits⟩, counted, sign⟩

namespace IsFullAt

variable (firstFull : first.IsFullAt scale) (secondFull : second.IsFullAt scale)

include firstFull secondFull

theorem same : second.scale = first.scale :=
  secondFull.atScale.trans firstFull.atScale.symm

theorem add_isCount
    (inRange : (first.minorUnits + second.minorUnits).natAbs < twoTo 96) :
    IsCount scale (first.minorUnits + second.minorUnits) (first.add second) := by
  obtain ⟨sum, added, sumScale, units⟩ :=
    add_eq (firstFull.same secondFull) (minorUnits_lt firstFull.allDigits)
      (minorUnits_lt secondFull.allDigits) inRange
  rw [added]
  exact isCount_of_lt (sumScale.trans firstFull.atScale) units inRange

theorem subtract_isCount
    (inRange : (first.minorUnits - second.minorUnits).natAbs < twoTo 96) :
    IsCount scale (first.minorUnits - second.minorUnits)
      (first.subtract second) := by
  obtain ⟨difference, subtracted, differenceScale, units⟩ :=
    subtract_eq (firstFull.same secondFull) (minorUnits_lt firstFull.allDigits)
      (minorUnits_lt secondFull.allDigits) inRange
  rw [subtracted]
  exact isCount_of_lt (differenceScale.trans firstFull.atScale) units inRange

end IsFullAt

end Pair

/--
At one scale, amounts with all digits are added, subtracted and compared as their
whole numbers of units are, where the result is below `2 ^ 96`. They are summed up so
where each partial sum is, and in all orders that stay in range to the very same sum.
-/
theorem exact_at_one_scale
    {scale : Nat}
    (capped : scale ≤ maxScale) :
    (∀ first second : Money,
      first.IsFullAt scale →
        second.IsFullAt scale →
          ((first.minorUnits + second.minorUnits).natAbs < twoTo 96 →
              IsCount scale (first.minorUnits + second.minorUnits)
                (first.add second)) ∧
            ((first.minorUnits - second.minorUnits).natAbs < twoTo 96 →
              IsCount scale (first.minorUnits - second.minorUnits)
                (first.subtract second)) ∧
            CompareAsCounts first second ∧
            HasSignOfCount first) ∧
      ∀ amounts : List Money,
        (∀ money ∈ amounts, money.IsFullAt scale) →
          StayInRange amounts →
            IsCount scale (unitsOf amounts) (Money.sum amounts scale) ∧
              ∀ others,
                amounts ~ others →
                  StayInRange others →
                    Money.sum others scale = Money.sum amounts scale := by
  constructor
  · intro first second firstFull secondFull
    exact ⟨firstFull.add_isCount secondFull, firstFull.subtract_isCount secondFull,
      compareAsCounts (firstFull.same secondFull), hasSignOfCount first⟩
  · intro amounts full stay
    obtain ⟨sum, summed, sumScale, units⟩ :=
      exists_sum stay capped fun money member => (full money member).atScale
    constructor
    · rw [summed]
      exact isCount_of_lt sumScale units stay.unitsOf_lt
    · intro others same othersStay
      exact sum_eq_of_perm same stay othersStay capped full

/-- As many thousandths as there are below `2 ^ 95`. -/
def vast : Money :=
  .ofDecimal ⟨39614081257132168796771975167, 3, by decide, by decide⟩ 3

/-- A debt of as many thousandths. -/
def vastDebt : Money :=
  .ofDecimal ⟨-39614081257132168796771975167, 3, by decide, by decide⟩ 3

/-- Twice the vast amount is just in range, and a zero comes from amounts of both signs. -/
theorem exact_at_one_scale_vast :
    (3 ≤ maxScale ∧
        vast.IsFullAt 3 ∧
        vastDebt.IsFullAt 3 ∧
        (vast.minorUnits + vastDebt.minorUnits).natAbs < twoTo 96 ∧
        StayInRange [vast, vast, vastDebt, smallestUnit 3] ∧
        StayInRange [smallestUnit 3, vastDebt, vast, vast]) ∧
      IsCount 3 0 (vast.add vastDebt) ∧
      CompareAsCounts vast vastDebt ∧
      IsCount 3 (vast.minorUnits + 1)
        (Money.sum [vast, vast, vastDebt, smallestUnit 3] 3) ∧
      Money.sum [smallestUnit 3, vastDebt, vast, vast] 3 =
        Money.sum [vast, vast, vastDebt, smallestUnit 3] 3 := by
  have capped : 3 ≤ maxScale := by decide
  have vastFull : vast.IsFullAt 3 := ⟨rfl, rfl⟩
  have debtFull : vastDebt.IsFullAt 3 := ⟨rfl, rfl⟩
  have inRange : (vast.minorUnits + vastDebt.minorUnits).natAbs < twoTo 96 := by
    decide
  have stay : StayInRange [vast, vast, vastDebt, smallestUnit 3] := by
    decide +kernel
  have backwardsStay : StayInRange [smallestUnit 3, vastDebt, vast, vast] := by
    decide +kernel
  have full :
      ∀ money ∈ [vast, vast, vastDebt, smallestUnit 3], money.IsFullAt 3 := by
    simp only [forall_mem_cons, not_mem_nil, false_implies, implies_true, and_true]
    exact ⟨vastFull, vastFull, debtFull, ⟨rfl, rfl⟩⟩
  obtain ⟨pairs, sums⟩ := exact_at_one_scale capped
  obtain ⟨added, -, compared, -⟩ := pairs vast vastDebt vastFull debtFull
  obtain ⟨summed, reordered⟩ := sums _ full stay
  exact ⟨⟨capped, vastFull, debtFull, inRange, stay, backwardsStay⟩, added inRange,
    compared, summed, reordered _ (reverse_perm _).symm backwardsStay⟩

/-- An order whose partial sums leave the range may lose a thousandth on the way. -/
example :
    Money.sum [vast, vast, vast, vastDebt, vastDebt] 3 ≠
      Money.sum [vast, vastDebt, vast, vastDebt, vast] 3 := by
  decide +kernel

end PatronFees.Money
