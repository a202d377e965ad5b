import PatronFees.Proofs.Allocation.EvenShare
import Mathlib.Order.Bounds.Basic

namespace PatronFees

/-!
# Where the even share is the floor

The quotient behind an even share is rounded to nearest at all the digits that it
has room for, and only then rounded down. It is told from the next whole unit or
it is not; the more digits it has, the better. If it is not, the even share is one
unit too many, and even shares for all targets come to more than there is.
-/

namespace Rounding

/-- What a nearest quotient tells from a whole number, it tells at finer digits too. -/
theorem halfEven_quotient_lt_of_coarser
    {numerator whole : Int}
    {denominator fewer more : Nat}
    (positive : 0 < denominator)
    (finer : fewer ≤ more)
    (below :
      halfEven.quotient (numerator * tenTo fewer) denominator <
        whole * tenTo fewer) :
    halfEven.quotient (numerator * tenTo more) denominator <
      whole * tenTo more := by
  obtain ⟨spare, rfl⟩ := Nat.exists_eq_add_of_le finer
  rcases Nat.eq_zero_or_pos spare with rfl | finerPositive
  · exact below
  · have nearest : halfEven ≠ .down := by decide
    have near := quotient_within nearest (numerator * tenTo fewer) positive
    have nearer :=
      quotient_within nearest (numerator * tenTo (fewer + spare)) positive
    generalize halfEven.quotient (numerator * tenTo fewer) denominator = coarse
      at near below
    generalize
      halfEven.quotient (numerator * tenTo (fewer + spare)) denominator = fine
      at nearer ⊢
    rw [tenTo_add, Int.natCast_mul, ← Int.mul_assoc] at nearer ⊢
    by_contra reached
    -- The coarse quotient keeps half a part away, which is several of the finer parts.
    have apart :
        2 * (numerator * tenTo fewer) + denominator ≤
          2 * (whole * tenTo fewer * denominator) := by
      have atMost := Int.mul_le_mul_of_nonneg_right (Int.add_one_le_of_lt below)
        (show (0 : Int) ≤ denominator by omega)
      rw [Int.add_mul, Int.one_mul] at atMost
      omega
    have apartFiner := Int.mul_le_mul_of_nonneg_right apart
      (show (0 : Int) ≤ tenTo spare by omega)
    rw [Int.add_mul, Int.mul_assoc 2, Int.mul_assoc 2,
      Int.mul_right_comm (whole * tenTo fewer)] at apartFiner
    have atLeast := Int.mul_le_mul_of_nonneg_right (Int.not_lt.mp reached)
      (show (0 : Int) ≤ denominator by omega)
    have several :
        (denominator : Int) * 10 ≤ denominator * tenTo spare := by
      have tens : tenTo 1 ≤ tenTo spare := tenTo_le_tenTo finerPositive
      have ten : tenTo 1 = 10 := rfl
      exact Int.mul_le_mul_of_nonneg_left (by omega) (by omega)
    omega

end Rounding

namespace Allocation

/-- The quotient of what is left by the targets, at digits behind its scale. -/
def quotientAt
    (left : Money)
    (pending further : Nat) : Int :=
  Rounding.halfEven.quotient (left.minorUnits * tenTo further) pending

/-- So many further digits fit, and tell the quotient from the next whole unit. -/
structure TellsApart
    (left : Money)
    (pending further : Nat) : Prop where
  within : left.scale + further ≤ 28
  fits : (quotientAt left pending further).natAbs < twoTo 96
  below :
    quotientAt left pending further <
      (left.minorUnits / pending + 1) * tenTo further

section EvenShare

variable {left : Money} {pending : Nat}

/-- At the scale itself the quotient fits. -/
theorem natAbs_quotientAt_zero_lt
    (allDigits : left.HasAllDigits)
    (nonneg : 0 ≤ left.minorUnits)
    (positive : 0 < pending) :
    (quotientAt left pending 0).natAbs < twoTo 96 := by
  have unit : ((tenTo 0 : Nat) : Int) = 1 := rfl
  have inRange := Money.minorUnits_lt allDigits
  have atLeast : 0 ≤ quotientAt left pending 0 := by
    apply Rounding.halfEven.le_quotient positive
    rw [unit]
    omega
  have atMost : quotientAt left pending 0 ≤ left.minorUnits := by
    apply Rounding.halfEven.quotient_le positive
    rw [unit]
    exact Int.mul_le_mul_of_nonneg_left (by omega) nonneg
  omega

/-- At any digits the quotient is between the floor and the next whole unit. -/
theorem quotientAt_between
    (positive : 0 < pending)
    (further : Nat) :
    left.minorUnits / pending * tenTo further ≤ quotientAt left pending further ∧
      quotientAt left pending further ≤
        (left.minorUnits / pending + 1) * tenTo further := by
  have tensPositive := tenTo_pos further
  have countPositive : (0 : Int) < pending := by omega
  constructor
  · apply Rounding.halfEven.le_quotient positive
    rw [Int.mul_right_comm]
    exact Int.mul_le_mul_of_nonneg_right (Int.ediv_mul_le _ (by omega)) (by omega)
  · apply Rounding.halfEven.quotient_le positive
    rw [Int.mul_right_comm]
    have above := Int.lt_ediv_add_one_mul_self left.minorUnits countPositive
    exact Int.mul_le_mul_of_nonneg_right (by omega) (by omega)

/-- Rounded down, the quotient is the floor if it is told from the next whole unit. -/
theorem quotientAt_ediv_eq_iff
    (positive : 0 < pending)
    (further : Nat) :
    quotientAt left pending further / tenTo further = left.minorUnits / pending ↔
      quotientAt left pending further <
        (left.minorUnits / pending + 1) * tenTo further := by
  have tensPositive := tenTo_pos further
  obtain ⟨atLeast, -⟩ := @quotientAt_between left pending positive further
  constructor
  · intro same
    have above := Int.lt_ediv_add_one_mul_self (quotientAt left pending further)
      (show (0 : Int) < tenTo further by omega)
    rwa [same] at above
  · intro below
    apply Int.le_antisymm
    · exact Int.lt_add_one_iff.mp (Int.ediv_lt_of_lt_mul (by omega) below)
    · exact (Int.le_ediv_iff_mul_le (by omega)).mpr atLeast

/-- The quotient has all digits that fit before it is rounded down. -/
theorem exists_evenShare_quotientAt
    (allDigits : left.HasAllDigits)
    (nonneg : 0 ≤ left.minorUnits)
    (positive : 0 < pending)
    (few : pending < twoTo 96) :
    ∃ even further,
      evenShare left pending = .ok even ∧
        even.scale = left.scale ∧
        left.scale + further ≤ 28 ∧
        (quotientAt left pending further).natAbs < twoTo 96 ∧
        even.minorUnits = quotientAt left pending further / tenTo further ∧
        ∀ spare,
          left.scale + spare ≤ 28 →
            (quotientAt left pending spare).natAbs < twoTo 96 → spare ≤ further := by
  obtain ⟨count, whole, shared⟩ := exists_evenShare_eq left positive few
  have coefficient := Money.coefficient_eq allDigits
  have divided :
      ∀ spare,
        left.scale + spare ≤ 28 →
          (quotientAt left pending spare).natAbs < twoTo 96 →
          ∃ value further,
            left.amount.divide? count.amount = some value ∧
              spare ≤ further ∧
              value.digits = left.scale + further ∧
              value.coefficient = quotientAt left pending further := by
    intro spare within fits
    rw [quotientAt, ← coefficient] at fits
    obtain ⟨value, further, found, reaches, digits, chosen⟩ :=
      Decimal.divide?_digits positive whole (allDigits.symm ▸ within) fits
    rw [allDigits] at digits
    rw [coefficient] at chosen
    exact ⟨value, further, found, reaches, digits, chosen⟩
  obtain ⟨value, further, found, -, digits, chosen⟩ :=
    divided 0 left.scale_le (natAbs_quotientAt_zero_lt allDigits nonneg positive)
  have units :=
    Money.minorUnits_roundedBy_of_further .down left.scale_le digits
  rw [chosen] at units
  refine ⟨Money.roundedBy .down value left.scale, further, ?_,
    Nat.min_eq_left left.scale_le, digits ▸ value.digits_le,
    chosen ▸ value.coefficient_lt, units, ?_⟩
  · rw [shared, Money.divideDown, Money.divideBy, found]
  · intro spare within fits
    obtain ⟨other, others, alsoFound, reaches, otherDigits, -⟩ :=
      divided spare within fits
    obtain rfl := Option.some.inj (found.symm.trans alsoFound)
    omega

/-- The floor of the quotient is the most whole units that all targets can have. -/
theorem isGreatest_floor
    (units : Int)
    (positive : 0 < pending) :
    IsGreatest {whole : Int | whole * pending ≤ units} (units / pending) := by
  have countPositive : (0 : Int) < pending := by omega
  constructor
  · exact Int.ediv_mul_le units (by omega)
  · exact fun whole below => (Int.le_ediv_iff_mul_le countPositive).mpr below

/--
The even share of what is left is the floor exactly if at some digits that fit the
quotient is told from the next whole unit; otherwise it is that unit.
-/
theorem evenShare_isGreatest_iff
    (allDigits : left.HasAllDigits)
    (nonneg : 0 ≤ left.minorUnits)
    (positive : 0 < pending)
    (few : pending < twoTo 96) :
    ∃ even,
      evenShare left pending = .ok even ∧
        even.scale = left.scale ∧
        (IsGreatest {units : Int | units * pending ≤ left.minorUnits}
            even.minorUnits ↔
          ∃ further, TellsApart left pending further) ∧
        even.minorUnits ≤ left.minorUnits / pending + 1 := by
  obtain ⟨even, further, shared, scale, within, fits, units, widest⟩ :=
    exists_evenShare_quotientAt allDigits nonneg positive few
  have floor := isGreatest_floor left.minorUnits positive
  have isFloor_iff := @quotientAt_ediv_eq_iff left pending positive further
  rw [← units] at isFloor_iff
  refine ⟨even, shared, scale, ?_, ?_⟩
  · constructor
    · intro greatest
      exact ⟨further, within, fits, isFloor_iff.mp (greatest.unique floor)⟩
    · rintro ⟨spare, alsoWithin, alsoFits, below⟩
      have told : even.minorUnits = left.minorUnits / pending :=
        isFloor_iff.mpr
          (Rounding.halfEven_quotient_lt_of_coarser positive
            (widest spare alsoWithin alsoFits) below)
      rw [told]
      exact floor
  · have tensPositive := tenTo_pos further
    rw [units]
    exact Int.ediv_le_of_le_mul (by omega) (quotientAt_between positive further).2

end EvenShare

/-- A hundred, in cents. -/
def hundred : Money :=
  .ofDecimal ⟨10000, 2, by decide, by decide⟩ 2

/-- A hundred among seven: the tenths of a cent tell 14.2857 from 14.29. -/
theorem evenShare_isGreatest_iff_amongSeven :
    (hundred.HasAllDigits ∧ 0 ≤ hundred.minorUnits ∧ 0 < 7 ∧ 7 < twoTo 96) ∧
      TellsApart hundred 7 1 ∧
      ∃ even,
        evenShare hundred 7 = .ok even ∧
          even.scale = 2 ∧
          (IsGreatest {units : Int | units * (7 : Nat) ≤ hundred.minorUnits}
              even.minorUnits ↔
            ∃ further, TellsApart hundred 7 further) ∧
          even.minorUnits ≤ hundred.minorUnits / (7 : Nat) + 1 := by
  have allDigits : hundred.HasAllDigits := rfl
  exact ⟨⟨allDigits, by decide, by decide, by decide⟩,
    ⟨by decide, by decide, by decide⟩,
    evenShare_isGreatest_iff allDigits (by decide) (by decide) (by decide)⟩

/-- A cent less than the most that has cents. -/
def almostMost : Money :=
  .ofDecimal ⟨79228162514264337593543950334, 2, by decide, by decide⟩ 2

/--
There is no room for a digit behind the cents of a third of nearly the most that
has cents: it is rounded up, and three even shares come to more than there is.
-/
theorem evenShare_above_floor :
    almostMost.HasAllDigits ∧
      ∃ even,
        evenShare almostMost 3 = .ok even ∧
          almostMost.minorUnits < even.minorUnits * (3 : Nat) ∧
          ¬ IsGreatest {units : Int | units * (3 : Nat) ≤ almostMost.minorUnits}
            even.minorUnits := by
  have above :
      almostMost.minorUnits <
        (Money.roundedBy .down
          ⟨26409387504754779197847983445, 2, by decide, by decide⟩ 2).minorUnits *
            (3 : Nat) := by
    decide +kernel
  refine ⟨rfl, _, ?_, above, fun greatest => ?_⟩
  · decide +kernel
  · exact absurd greatest.1 (Int.not_le.mpr above)

end Allocation

end PatronFees
