import PatronFees.Powers
import PatronFees.Rounding

namespace PatronFees

/-!
# Decimals

A decimal is a whole coefficient with a count of fraction digits. Coefficients
are magnitudes below `2 ^ 96` and there are at most 28 fraction digits, so every
decimal is a whole number of `10 ^ -28` parts: its `finestUnits`. Comparison is
comparison of those numbers.

Arithmetic has one rule: the exact result is rounded half to even at the most
fraction digits, up to a cap, at which the coefficient still fits. When not even
the whole number fits there is no result.
-/

/-- A coefficient over a power of ten, within 96 bits and 28 fraction digits. -/
structure Decimal where
  coefficient : Int
  digits : Nat
  coefficient_lt : coefficient.natAbs < twoTo 96
  digits_le : digits ≤ 28
  deriving Repr, DecidableEq

namespace Decimal

/-- The decimal with this coefficient and digit count, if both are in range. -/
def make?
    (coefficient : Int)
    (digits : Nat) :
    Option Decimal :=
  if inRange : coefficient.natAbs < twoTo 96 ∧ digits ≤ 28 then
    some ⟨coefficient, digits, inRange.1, inRange.2⟩
  else
    none

def zero : Decimal :=
  ⟨0, 0, by decide, by decide⟩

/-- The value as a whole number of `10 ^ -28` parts. -/
def finestUnits (value : Decimal) : Int :=
  value.coefficient * tenTo (28 - value.digits)

/-- Decimals are ordered by value, whatever their digit counts. -/
instance : LT Decimal where
  lt first second := first.finestUnits < second.finestUnits

/-- Decimals are ordered by value, whatever their digit counts. -/
instance : LE Decimal where
  le first second := first.finestUnits ≤ second.finestUnits

instance (first second : Decimal) : Decidable (first < second) :=
  inferInstanceAs (Decidable (first.finestUnits < second.finestUnits))

instance (first second : Decimal) : Decidable (first ≤ second) :=
  inferInstanceAs (Decidable (first.finestUnits ≤ second.finestUnits))

def compare (first second : Decimal) : Ordering :=
  Ord.compare first.finestUnits second.finestUnits

/-- The value rounded to at most `digits` fraction digits. -/
def rounded
    (rounding : Rounding)
    (digits : Nat)
    (value : Decimal) : Decimal where
  coefficient :=
    rounding.quotient value.coefficient (tenTo (value.digits - digits))
  digits := min digits value.digits
  coefficient_lt :=
    Nat.lt_of_le_of_lt
      (rounding.natAbs_quotient_le value.coefficient
        (tenTo_pos _))
      value.coefficient_lt
  digits_le := Nat.le_trans (Nat.min_le_right _ _) value.digits_le

/-- The value with up to `count` further zeros, as many as its range allows. -/
def padded (value : Decimal) : Nat → Decimal
  | 0 => value
  | count + 1 =>
      if fits :
          (value.coefficient * 10).natAbs < twoTo 96 ∧
            value.digits + 1 ≤ 28 then
        padded
          ⟨value.coefficient * 10, value.digits + 1, fits.1, fits.2⟩
          count
      else
        value

/-- Zeros add fraction digits, at most as many as were asked for. -/
theorem digits_padded_le
    (value : Decimal)
    (count : Nat) :
    (value.padded count).digits ≤ value.digits + count := by
  induction count generalizing value with
  | zero => exact Nat.le_refl _
  | succ count inductionHypothesis =>
      rw [padded]
      split
      next fits =>
        have shorter := inductionHypothesis
          ⟨value.coefficient * 10, value.digits + 1, fits.1, fits.2⟩
        simp only at shorter
        omega
      next => omega

/--
Zeros stop short only where the coefficient has no room for another: padding
reaches the digits asked for or leaves a coefficient within a digit of the bound.
-/
theorem padded_filled
    (value : Decimal)
    (count : Nat)
    (within : value.digits + count ≤ 28) :
    (value.padded count).digits = value.digits + count ∨
      twoTo 96 ≤ (value.padded count).coefficient.natAbs * 10 := by
  induction count generalizing value with
  | zero => exact Or.inl rfl
  | succ count inductionHypothesis =>
      rw [padded]
      split
      next fits =>
        rcases inductionHypothesis
            ⟨value.coefficient * 10, value.digits + 1, fits.1, fits.2⟩
            (by simp only; omega) with reached | full
        · exact Or.inl (by rw [reached]; simp only; omega)
        · exact Or.inr full
      next tight =>
        refine Or.inr ?_
        have noRoom : ¬ (value.coefficient * 10).natAbs < twoTo 96 :=
          fun fits => tight ⟨fits, by omega⟩
        rw [Int.natAbs_mul] at noRoom
        exact Nat.le_of_not_lt noRoom

/--
The value at a scale: rounded where it has more fraction digits, and filled up
with zeros, as far as the coefficient stays in range, where it has fewer.
-/
def atScale
    (rounding : Rounding)
    (scale : Nat)
    (value : Decimal) : Decimal :=
  (value.rounded rounding scale).padded (scale - value.digits)

/-- A value at a scale has no more fraction digits than the scale. -/
theorem digits_atScale_le
    (rounding : Rounding)
    (scale : Nat)
    (value : Decimal) :
    (value.atScale rounding scale).digits ≤ scale := by
  have bound :=
    digits_padded_le (value.rounded rounding scale) (scale - value.digits)
  simp only [rounded] at bound
  exact Nat.le_trans bound (by omega)

/-- A value at a scale has all its digits, or as many as its coefficient allows. -/
theorem atScale_filled
    (rounding : Rounding)
    {scale : Nat}
    (value : Decimal)
    (within : scale ≤ 28) :
    (value.atScale rounding scale).digits = scale ∨
      twoTo 96 ≤ (value.atScale rounding scale).coefficient.natAbs * 10 := by
  have digits : (value.rounded rounding scale).digits + (scale - value.digits) = scale := by
    simp only [rounded]
    omega
  rcases padded_filled (value.rounded rounding scale) (scale - value.digits)
      (by omega) with reached | full
  · exact Or.inl (reached.trans digits)
  · exact Or.inr full

/-- The value without up to `count` trailing zeros of its fraction. -/
def dropZeros (value : Decimal) : Nat → Decimal
  | 0 => value
  | count + 1 =>
      if value.coefficient % 10 = 0 then
        dropZeros
          { coefficient := value.coefficient / 10
            digits := value.digits - 1
            coefficient_lt :=
              Nat.lt_of_le_of_lt
                (Rounding.down.natAbs_quotient_le value.coefficient
                  (show 0 < 10 by decide))
                value.coefficient_lt
            digits_le := Nat.le_trans (Nat.sub_le _ _) value.digits_le }
          count
      else
        value

/-- The value without any trailing zero in its fraction. -/
def stripped (value : Decimal) : Decimal :=
  value.dropZeros value.digits

/--
The quotient rounded half to even at the most fraction digits, at most `cap`,
at which the coefficient fits.
-/
def ofQuotient?
    (numerator : Int)
    (denominator : Nat) :
    (cap : Nat) → Option Decimal
  | 0 => make? (Rounding.halfEven.quotient numerator denominator) 0
  | cap + 1 =>
      match make?
          (Rounding.halfEven.quotient (numerator * tenTo (cap + 1)) denominator)
          (cap + 1) with
      | some value => some value
      | none => ofQuotient? numerator denominator cap

/-- The sum, with as many fraction digits as the finer operand. -/
def add? (first second : Decimal) : Option Decimal :=
  ofQuotient? (first.finestUnits + second.finestUnits) (tenTo 28)
    (max first.digits second.digits)

/-- The difference, with as many fraction digits as the finer operand. -/
def subtract? (first second : Decimal) : Option Decimal :=
  ofQuotient? (first.finestUnits - second.finestUnits) (tenTo 28)
    (max first.digits second.digits)

/-- The product, with the fraction digits of both operands together. -/
def multiply? (first second : Decimal) : Option Decimal :=
  ofQuotient? (first.finestUnits * second.finestUnits) (tenTo 56)
    (min 28 (first.digits + second.digits))

/-- The quotient to 28 fraction digits; there is none by zero. -/
def divide? (dividend divisor : Decimal) : Option Decimal :=
  if divisor.coefficient = 0 then
    none
  else
    ofQuotient? (dividend.finestUnits * divisor.finestUnits.sign)
      divisor.finestUnits.natAbs 28

end Decimal

end PatronFees
