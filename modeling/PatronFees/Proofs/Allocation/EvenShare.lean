import PatronFees.Allocation
import PatronFees.Proofs.Money.Arithmetic

namespace PatronFees

/-!
# The even share

The quotient behind an even share is rounded to nearest at all the digits that
fit before it is rounded down to the scale. It may therefore lie above the
floor of the exact quotient, but never above a whole number of units that the
exact quotient does not pass, and never below one that it reaches. With so many
further digits that no fewer parts than targets make up a unit, it is the floor.
-/

/-- Divided by a whole count, what is not negative comes to no more than itself. -/
theorem Rounding.halfEven_quotient_count
    {value : Int}
    {count : Nat}
    (nonneg : 0 ≤ value)
    (positive : 0 < count) :
    0 ≤ halfEven.quotient (value * tenTo 28) (count * tenTo 28) ∧
      halfEven.quotient (value * tenTo 28) (count * tenTo 28) ≤ value := by
  have tenPositive : 0 < tenTo 28 := tenTo_pos 28
  have denominatorPositive : 0 < count * tenTo 28 :=
    Nat.mul_pos positive tenPositive
  constructor
  · apply halfEven.le_quotient denominatorPositive
    rw [Int.zero_mul]
    exact Int.mul_nonneg nonneg (by omega)
  · apply halfEven.quotient_le denominatorPositive
    have atLeast := Nat.le_mul_of_pos_left (tenTo 28) positive
    exact Int.mul_le_mul_of_nonneg_left (by omega) nonneg

namespace Decimal

/--
A quotient by a whole count has the digits of the dividend and at least as many more
as are known to fit, and is rounded once at all of them.
-/
theorem divide?_digits
    {dividend divisor : Decimal}
    {count spare : Nat}
    (positive : 0 < count)
    (whole : divisor.finestUnits = count * tenTo 28)
    (within : dividend.digits + spare ≤ 28)
    (fits :
      (Rounding.halfEven.quotient
        (dividend.coefficient * tenTo spare) count).natAbs < twoTo 96) :
    ∃ quotient further,
      dividend.divide? divisor = some quotient ∧
        spare ≤ further ∧
        quotient.digits = dividend.digits + further ∧
        quotient.coefficient =
          Rounding.halfEven.quotient
            (dividend.coefficient * tenTo further) count := by
  have denominatorPositive := Nat.mul_pos positive (tenTo_pos 28)
  have nonzero : divisor.coefficient ≠ 0 := by
    intro zero
    rw [finestUnits, zero, Int.zero_mul] at whole
    omega
  have sign : divisor.finestUnits.sign = 1 :=
    Int.sign_eq_one_of_pos (by omega)
  have denominator : divisor.finestUnits.natAbs = count * tenTo 28 := by
    omega
  have rounded :
      ∀ further,
        Rounding.halfEven.quotient
            (dividend.finestUnits * tenTo (dividend.digits + further))
            (count * tenTo 28) =
          Rounding.halfEven.quotient
            (dividend.coefficient * tenTo further) count := by
    intro further
    rw [tenTo_add, Int.natCast_mul, ← Int.mul_assoc, finestUnits,
      Int.mul_assoc dividend.coefficient, tenTo_digits_rest, Int.mul_right_comm,
      Rounding.quotient_mul_mul _ _ _ (tenTo_pos 28)]
  rw [← rounded] at fits
  obtain ⟨quotient, found, reaches, chosen⟩ :=
    ofQuotient?_digits within (Nat.le_refl 28) fits
  obtain ⟨further, digits⟩ := Nat.exists_eq_add_of_le reaches
  rw [Nat.add_assoc] at digits
  refine ⟨quotient, spare + further, ?_, Nat.le_add_right _ _, digits, ?_⟩
  · rw [divide?, if_neg nonzero, sign, Int.mul_one, denominator]
    exact found
  · rw [chosen, digits, rounded]

/--
A quotient by a whole count has the digits of the dividend, as many more as the
dividend has room for and perhaps others, and is rounded once at all of them.
-/
theorem divide?_whole
    {dividend divisor : Decimal}
    {count spare : Nat}
    (nonneg : 0 ≤ dividend.coefficient)
    (positive : 0 < count)
    (whole : divisor.finestUnits = count * tenTo 28)
    (within : dividend.digits + spare ≤ 28)
    (roomy : dividend.coefficient * tenTo spare < twoTo 96) :
    ∃ quotient further,
      dividend.divide? divisor = some quotient ∧
        spare ≤ further ∧
        quotient.digits = dividend.digits + further ∧
        quotient.coefficient =
          Rounding.halfEven.quotient
            (dividend.coefficient * tenTo 28 * tenTo further)
            (count * tenTo 28) := by
  have scaled :
      ∀ further,
        Rounding.halfEven.quotient
            (dividend.coefficient * tenTo 28 * tenTo further) (count * tenTo 28) =
          Rounding.halfEven.quotient
            (dividend.coefficient * tenTo further) count := by
    intro further
    rw [Int.mul_right_comm, Rounding.quotient_mul_mul _ _ _ (tenTo_pos 28)]
  -- With so many zeros behind it the dividend is still no less than the quotient.
  have fits :
      (Rounding.halfEven.quotient
        (dividend.coefficient * tenTo spare) count).natAbs < twoTo 96 := by
    obtain ⟨atLeast, atMost⟩ :=
      Rounding.halfEven_quotient_count
        (show 0 ≤ dividend.coefficient * tenTo spare from
          Int.mul_nonneg nonneg (by omega)) positive
    rw [Rounding.quotient_mul_mul _ _ _ (tenTo_pos 28)] at atLeast atMost
    omega
  obtain ⟨quotient, further, divided, reaches, digits, chosen⟩ :=
    divide?_digits positive whole within fits
  exact ⟨quotient, further, divided, reaches, digits,
    chosen.trans (scaled further).symm⟩

end Decimal

namespace Money

/--
Divided by a whole count and rounded down, an amount is rounded to nearest at
all the digits that fit before it is rounded down to the scale.
-/
theorem divideDown_twice
    {dividend divisor : Money}
    {count spare : Nat}
    (allDigits : dividend.HasAllDigits)
    (nonneg : 0 ≤ dividend.minorUnits)
    (positive : 0 < count)
    (whole : divisor.units = count * tenTo 28)
    (within : dividend.scale + spare ≤ 28)
    (roomy : dividend.minorUnits * tenTo spare < twoTo 96) :
    ∃ quotient further,
      dividend.divideDown divisor = .ok quotient ∧
        quotient.scale = dividend.scale ∧
        spare ≤ further ∧
        quotient.minorUnits =
          Rounding.down.quotient
            (Rounding.halfEven.quotient
              (dividend.minorUnits * tenTo 28 * tenTo further)
              (count * tenTo 28))
            (tenTo further) := by
  have coefficient := coefficient_eq allDigits
  rw [← coefficient] at roomy
  obtain ⟨value, further, divided, reaches, digits, chosen⟩ :=
    Decimal.divide?_whole (by rw [coefficient]; exact nonneg) positive whole
      (by rw [allDigits]; exact within) roomy
  rw [allDigits] at digits
  rw [coefficient] at chosen
  have units :=
    minorUnits_roundedBy_of_further .down dividend.scale_le digits
  rw [chosen] at units
  refine ⟨roundedBy .down value dividend.scale, further, ?_,
    Nat.min_eq_left dividend.scale_le, reaches, units⟩
  rw [divideDown, divideBy, divided]

/--
Divided by a whole count and rounded down, an amount is between the whole
numbers of units around the exact quotient.
-/
theorem divideDown_whole
    {dividend divisor : Money}
    {count : Nat}
    (allDigits : dividend.HasAllDigits)
    (nonneg : 0 ≤ dividend.minorUnits)
    (positive : 0 < count)
    (whole : divisor.units = count * tenTo 28) :
    ∃ quotient,
      dividend.divideDown divisor = .ok quotient ∧
        quotient.scale = dividend.scale ∧
        (∀ lower : Int,
          lower * count ≤ dividend.minorUnits →
            lower ≤ quotient.minorUnits) ∧
        (∀ upper : Int,
          dividend.minorUnits ≤ upper * count →
            quotient.minorUnits ≤ upper) := by
  have inRange := minorUnits_lt allDigits
  have unit : ((tenTo 0 : Nat) : Int) = 1 := rfl
  obtain ⟨quotient, further, divided, scale, -, units⟩ :=
    divideDown_twice allDigits nonneg positive whole
      (show dividend.scale + 0 ≤ 28 from dividend.scale_le) (by rw [unit]; omega)
  have denominatorPositive : 0 < count * tenTo 28 :=
    Nat.mul_pos positive (tenTo_pos 28)
  refine ⟨quotient, divided, scale, ?_, ?_⟩
  · intro lower below
    rw [units]
    apply Rounding.le_quotient_quotient _ _ denominatorPositive (tenTo_pos _)
    rw [Int.natCast_mul, ← Int.mul_assoc]
    exact Int.mul_le_mul_of_nonneg_right below (by omega)
  · intro upper above
    rw [units]
    apply Rounding.quotient_quotient_le _ _ denominatorPositive (tenTo_pos _)
    rw [Int.natCast_mul, ← Int.mul_assoc]
    exact Int.mul_le_mul_of_nonneg_right above (by omega)

end Money

namespace Allocation

/-- An even share among some is a quotient by their count, rounded down. -/
theorem exists_evenShare_eq
    (left : Money)
    {pending : Nat}
    (positive : 0 < pending)
    (few : pending < twoTo 96) :
    ∃ count : Money,
      count.units = pending * tenTo 28 ∧
        evenShare left pending = left.divideDown count := by
  have inRange : (pending : Int).natAbs < twoTo 96 ∧ 0 ≤ 28 := by omega
  refine ⟨Money.ofDecimal ⟨pending, 0, inRange.1, inRange.2⟩ left.scale,
    Decimal.finestUnits_atScale .halfEven (Nat.zero_le _), ?_⟩
  rw [evenShare, if_neg (by omega), Decimal.make?, dif_pos inRange]

/--
The even share is between the whole numbers of units around the exact quotient
of what is left by the number of targets.
-/
theorem evenShare_near
    {left : Money}
    {pending : Nat}
    (allDigits : left.HasAllDigits)
    (nonneg : 0 ≤ left.minorUnits)
    (positive : 0 < pending)
    (few : pending < twoTo 96) :
    ∃ even,
      evenShare left pending = .ok even ∧
        even.scale = left.scale ∧
        (∀ lower : Int,
          lower * pending ≤ left.minorUnits → lower ≤ even.minorUnits) ∧
        (∀ upper : Int,
          left.minorUnits ≤ upper * pending → even.minorUnits ≤ upper) := by
  obtain ⟨count, whole, shared⟩ := exists_evenShare_eq left positive few
  rw [shared]
  exact Money.divideDown_whole allDigits nonneg positive whole

/--
The even share is the floor where there is room for as many further digits as
the number of targets has.
-/
theorem evenShare_floor
    {left : Money}
    {pending spare : Nat}
    (nonneg : 0 ≤ left.minorUnits)
    (few : pending ≤ tenTo spare)
    (within : left.scale + spare ≤ 28)
    (roomy : left.minorUnits * tenTo spare < twoTo 96) :
    ∃ even,
      evenShare left pending = .ok even ∧
        even.scale = left.scale ∧
        even.minorUnits = left.minorUnits / pending := by
  have left_lt := le_mul_tenTo nonneg spare
  rcases Nat.eq_zero_or_pos pending with rfl | positive
  · refine ⟨Money.zero left.scale, ?_, Money.scale_zero left.scale_le, ?_⟩
    · rw [evenShare, if_pos rfl]
    · rw [Money.minorUnits_zero, Int.natCast_zero, Int.ediv_zero]
  · have capped : tenTo spare < twoTo 96 := tenTo_lt_twoTo (by omega)
    obtain ⟨count, whole, shared⟩ :=
      exists_evenShare_eq left positive (by omega)
    obtain ⟨even, further, divided, scale, reaches, units⟩ :=
      Money.divideDown_twice (Money.hasAllDigits_of_lt (by omega)) nonneg positive
        whole within roomy
    refine ⟨even, shared.trans divided, scale, ?_⟩
    have enough := Nat.le_trans few (tenTo_le_tenTo reaches)
    rw [units, Rounding.down_quotient_quotient .halfEven _ positive (tenTo_pos 28)
      enough]

/-- The even share is neither below nothing nor above what is left. -/
theorem evenShare_between
    {left : Money}
    {pending : Nat}
    (allDigits : left.HasAllDigits)
    (nonneg : 0 ≤ left.minorUnits)
    (few : pending < twoTo 96) :
    ∃ even,
      evenShare left pending = .ok even ∧
        even.scale = left.scale ∧
        0 ≤ even.minorUnits ∧
        even.minorUnits ≤ left.minorUnits := by
  rcases Nat.eq_zero_or_pos pending with none | positive
  · have nothing := Money.minorUnits_zero left.scale
    refine ⟨Money.zero left.scale, ?_, Money.scale_zero left.scale_le,
      by omega, by omega⟩
    rw [evenShare, if_pos none]
  · obtain ⟨even, shared, scale, below, above⟩ :=
      evenShare_near allDigits nonneg positive few
    refine ⟨even, shared, scale, below 0 (by omega), above left.minorUnits ?_⟩
    have atLeastOne :=
      Int.mul_le_mul_of_nonneg_left
        (show (1 : Int) ≤ pending by omega) nonneg
    omega

end Allocation

end PatronFees
