import PatronFees.Money
import PatronFees.Proofs.Decimal.Value
import Mathlib.Tactic.ByContra

namespace PatronFees

/-!
# Money in minor units

At its scale every amount is a whole number of smallest units. Below `2 ^ 96`
of them an amount has all digits of its scale, and arithmetic of amounts at one
scale is arithmetic of whole numbers, as long as its results stay below too.
-/

/-- Each power of two is twice the one before. -/
theorem twoTo_succ (exponent : Nat) :
    twoTo (exponent + 1) = 2 * twoTo exponent := by
  simp only [twoTo, Nat.pow_eq, Nat.pow_succ]
  omega

theorem twoTo_pos (exponent : Nat) :
    0 < twoTo exponent :=
  Nat.pow_pos (by decide)

theorem twoTo_96 : twoTo 96 = 79228162514264337593543950336 :=
  rfl

theorem tenTo_lt_twoTo
    {exponent : Nat}
    (capped : exponent ≤ 28) :
    tenTo exponent < twoTo 96 :=
  Nat.lt_of_le_of_lt (tenTo_le_tenTo capped) (by decide)

/-- Tens only make more of what is not negative. -/
theorem le_mul_tenTo
    {number : Int}
    (nonneg : 0 ≤ number)
    (exponent : Nat) :
    number ≤ number * tenTo exponent := by
  have positive := tenTo_pos exponent
  have atLeast := Int.mul_le_mul_of_nonneg_left
    (show (1 : Int) ≤ tenTo exponent by omega) nonneg
  omega

namespace Money

/-- The value as a whole number of the scale's smallest units. -/
def minorUnits (money : Money) : Int :=
  money.amount.coefficient * tenTo (money.scale - money.amount.digits)

/-- The amount has all digits of its scale. -/
def HasAllDigits (money : Money) : Prop :=
  money.amount.digits = money.scale

/-- Units of a coarser scale are powers of ten of those of a finer one. -/
theorem tenTo_rest
    {scale coarse : Nat}
    (capped : scale ≤ maxScale)
    (coarser : coarse ≤ scale) :
    tenTo (maxScale - coarse) =
      tenTo (scale - coarse) * tenTo (maxScale - scale) := by
  rw [← tenTo_add]
  congr 1
  omega

/-- Smallest units are powers of ten of the finest ones. -/
theorem units_eq (money : Money) :
    money.units = money.minorUnits * tenTo (maxScale - money.scale) := by
  change money.amount.coefficient * tenTo (maxScale - money.amount.digits) = _
  rw [minorUnits, tenTo_rest money.scale_le money.digits_le, Int.natCast_mul,
    Int.mul_assoc]

/-- With all its digits an amount counts its units in its coefficient. -/
theorem coefficient_eq
    {money : Money}
    (allDigits : money.HasAllDigits) :
    money.amount.coefficient = money.minorUnits := by
  rw [minorUnits, allDigits, Nat.sub_self]
  simp [tenTo]

/-- With all its digits an amount is below `2 ^ 96` units. -/
theorem minorUnits_lt
    {money : Money}
    (allDigits : money.HasAllDigits) :
    money.minorUnits.natAbs < twoTo 96 := by
  rw [← coefficient_eq allDigits]
  exact money.amount.coefficient_lt

/-- Below `2 ^ 96` units an amount has all its digits. -/
theorem hasAllDigits_of_lt
    {money : Money}
    (inRange : money.minorUnits.natAbs < twoTo 96) :
    money.HasAllDigits := by
  rcases money.filled with reached | full
  · exact reached
  · -- A digit short, the coefficient would be within a digit of the bound.
    by_contra short
    have fewer : money.amount.digits < money.scale := by
      have := money.digits_le
      simp only [HasAllDigits] at short
      omega
    have tenfold :
        10 ≤ tenTo (money.scale - money.amount.digits) :=
      tenTo_le_tenTo (show 1 ≤ money.scale - money.amount.digits by omega)
    have larger :=
      Nat.mul_le_mul_left money.amount.coefficient.natAbs tenfold
    rw [minorUnits, Int.natAbs_mul, Int.natAbs_natCast] at inRange
    omega

section Comparison

variable {first second : Money}

/-- Amounts at one scale are ordered as their units are. -/
theorem le_iff
    (same : second.scale = first.scale) :
    first ≤ second ↔ first.minorUnits ≤ second.minorUnits := by
  change first.units ≤ second.units ↔ _
  rw [units_eq, units_eq, same]
  have positive := tenTo_pos (maxScale - first.scale)
  exact Int.mul_le_mul_right (by omega)

theorem lt_iff
    (same : second.scale = first.scale) :
    first < second ↔ first.minorUnits < second.minorUnits := by
  change first.units < second.units ↔ _
  rw [units_eq, units_eq, same]
  have positive := tenTo_pos (maxScale - first.scale)
  exact Int.mul_lt_mul_right (by omega)

theorem units_eq_iff
    (same : second.scale = first.scale) :
    first.units = second.units ↔ first.minorUnits = second.minorUnits := by
  rw [units_eq, units_eq, same]
  have positive := tenTo_pos (maxScale - first.scale)
  exact Int.mul_eq_mul_right_iff (by omega)

/-- Amounts at one scale are equal when their units are. -/
theorem equals_iff
    (same : second.scale = first.scale) :
    first.equals second = true ↔ first.minorUnits = second.minorUnits := by
  simp only [equals, beq_iff_eq]
  exact units_eq_iff same

/-- Amounts at a scale with as many units are equal. -/
theorem equals_of_units
    {scale : Nat}
    (firstScale : first.scale = scale)
    (secondScale : second.scale = scale)
    (units : first.minorUnits = second.minorUnits) :
    first.equals second = true :=
  (equals_iff (secondScale.trans firstScale.symm)).mpr units

/-- Amounts at one scale compare as their units do. -/
theorem compare_isLE_iff
    (same : second.scale = first.scale) :
    (first.compare second).isLE = true ↔
      first.minorUnits ≤ second.minorUnits := by
  rw [← le_iff same, compare, Int.isLE_compare]
  rfl

theorem scale_min
    (same : second.scale = first.scale) :
    (min first second).scale = first.scale := by
  change (if first ≤ second then first else second).scale = _
  split
  · rfl
  · exact same

/-- The lesser of two amounts at one scale has the fewer units. -/
theorem minorUnits_min
    (same : second.scale = first.scale) :
    (min first second).minorUnits =
      min first.minorUnits second.minorUnits := by
  change (if first ≤ second then first else second).minorUnits = _
  split
  next ordered =>
    have := (le_iff same).mp ordered
    omega
  next greater =>
    have := mt (le_iff same).mpr greater
    omega

end Comparison

/-- The lesser of two amounts is no more than the first. -/
theorem units_min_le (first second : Money) :
    (min first second).units ≤ first.units := by
  change (if first ≤ second then first else second).units ≤ _
  split
  next =>
    exact Int.le_refl _
  next greater =>
    exact Int.le_of_lt (Int.not_le.mp greater)

/-- The lesser of two amounts is between nothing and the second, if both are no less. -/
theorem units_min_between
    {first second : Money}
    (firstNonneg : 0 ≤ first.units)
    (secondNonneg : 0 ≤ second.units) :
    0 ≤ (min first second).units ∧ (min first second).units ≤ second.units := by
  change 0 ≤ (if first ≤ second then first else second).units ∧
    (if first ≤ second then first else second).units ≤ _
  split
  next less =>
    exact ⟨firstNonneg, less⟩
  next =>
    exact ⟨secondNonneg, Int.le_refl _⟩

theorem units_nonneg
    {money : Money}
    (nonneg : 0 ≤ money.minorUnits) :
    0 ≤ money.units := by
  rw [units_eq]
  exact Int.mul_nonneg nonneg (by omega)

/-- An amount is positive when its units are. -/
theorem isPositive_iff (money : Money) :
    money.isPositive = true ↔ 0 < money.minorUnits := by
  simp only [isPositive, decide_eq_true_eq]
  rw [units_eq]
  have positive := tenTo_pos (maxScale - money.scale)
  have order :
      0 * (tenTo (maxScale - money.scale) : Int) <
          money.minorUnits * tenTo (maxScale - money.scale) ↔
        0 < money.minorUnits :=
    Int.mul_lt_mul_right (by omega)
  rwa [Int.zero_mul] at order

theorem isZero_iff (money : Money) :
    money.isZero = true ↔ money.minorUnits = 0 := by
  simp only [isZero, beq_iff_eq]
  rw [units_eq]
  have positive := tenTo_pos (maxScale - money.scale)
  rw [Int.mul_eq_zero]
  omega

theorem isNegative_iff (money : Money) :
    money.isNegative = true ↔ money.minorUnits < 0 := by
  simp only [isNegative, decide_eq_true_eq]
  rw [units_eq]
  have positive := tenTo_pos (maxScale - money.scale)
  have order :
      money.minorUnits * tenTo (maxScale - money.scale) <
          0 * (tenTo (maxScale - money.scale) : Int) ↔
        money.minorUnits < 0 :=
    Int.mul_lt_mul_right (by omega)
  rwa [Int.zero_mul] at order

end Money

end PatronFees
