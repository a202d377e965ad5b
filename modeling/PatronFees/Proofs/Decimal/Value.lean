import PatronFees.Decimal.Basic

namespace PatronFees

/-!
# The value of a decimal

Zeros that fill a decimal up leave its value alone, and a value at a scale with
room for its digits is the same value. A sum or a difference of decimals with
equally many digits is the sum or difference of their coefficients wherever
that fits. A quotient carries at least as many digits as are known to fit.
-/

namespace Rounding

/-- A whole number below the exact quotient is below the chosen one. -/
theorem le_quotient
    (rounding : Rounding)
    {lower numerator : Int}
    {denominator : Nat}
    (positive : 0 < denominator)
    (below : lower * denominator ≤ numerator) :
    lower ≤ rounding.quotient numerator denominator := by
  have floor : lower ≤ numerator / denominator :=
    (Int.le_ediv_iff_mul_le (by omega)).mpr below
  rcases rounding.quotient_eq_or numerator denominator with
      same | ⟨above, _⟩ | zero
  · rw [same]
    exact floor
  · rw [above]
    omega
  · omega

/-- A whole number above the exact quotient is above the chosen one. -/
theorem quotient_le
    (rounding : Rounding)
    {upper numerator : Int}
    {denominator : Nat}
    (positive : 0 < denominator)
    (above : numerator ≤ upper * denominator) :
    rounding.quotient numerator denominator ≤ upper := by
  have whole := Int.mul_ediv_add_emod numerator denominator
  have floor : numerator / (denominator : Int) ≤ upper := by
    have := Int.ediv_le_ediv (show (0 : Int) < denominator by omega) above
    rwa [Int.mul_ediv_cancel _ (by omega)] at this
  rcases rounding.quotient_eq_or numerator denominator with
      same | ⟨next, remains⟩ | zero
  · rw [same]
    exact floor
  · -- A remainder keeps the floor away from the bound, so one more still fits.
    rw [next]
    rcases Int.lt_or_eq_of_le floor with below | equal
    · omega
    · rw [equal, Int.mul_comm] at whole
      omega
  · omega

/-- Rounding at finer digits first keeps whole numbers below the quotient below. -/
theorem le_quotient_quotient
    (outer inner : Rounding)
    {lower numerator : Int}
    {denominator finer : Nat}
    (positive : 0 < denominator)
    (finerPositive : 0 < finer)
    (below : lower * denominator ≤ numerator) :
    lower ≤
      outer.quotient (inner.quotient (numerator * finer) denominator) finer := by
  apply outer.le_quotient finerPositive
  apply inner.le_quotient positive
  have scaled := Int.mul_le_mul_of_nonneg_right below
    (show (0 : Int) ≤ finer by omega)
  rwa [Int.mul_right_comm] at scaled

/-- Rounding at finer digits first keeps whole numbers above the quotient above. -/
theorem quotient_quotient_le
    (outer inner : Rounding)
    {upper numerator : Int}
    {denominator finer : Nat}
    (positive : 0 < denominator)
    (finerPositive : 0 < finer)
    (above : numerator ≤ upper * denominator) :
    outer.quotient (inner.quotient (numerator * finer) denominator) finer ≤
      upper := by
  apply outer.quotient_le finerPositive
  apply inner.quotient_le positive
  have scaled := Int.mul_le_mul_of_nonneg_right above
    (show (0 : Int) ≤ finer by omega)
  rwa [Int.mul_right_comm upper] at scaled

/--
A quotient that is rounded at no fewer parts than its divisor counts, and then
rounded down, is the floor.
-/
theorem down_quotient_quotient
    (inner : Rounding)
    (numerator : Int)
    {count unit parts : Nat}
    (positive : 0 < count)
    (unitPositive : 0 < unit)
    (enough : count ≤ parts) :
    Rounding.down.quotient
        (inner.quotient (numerator * unit * parts) (count * unit)) parts =
      numerator / count := by
  have whole := Int.mul_ediv_add_emod numerator count
  have remainder : numerator % (count : Int) < count :=
    Int.emod_lt_of_pos _ (by omega)
  have unscaled := Int.mul_comm (count : Int) (numerator / count)
  have denominatorPositive : 0 < count * unit :=
    Nat.mul_pos positive unitPositive
  apply Int.le_antisymm
  · -- The remainder keeps a part away from the next unit.
    have below :
        inner.quotient (numerator * unit * parts) (count * unit) ≤
          (numerator / count + 1) * parts - 1 := by
      apply inner.quotient_le denominatorPositive
      have atMost :
          numerator * parts ≤ ((numerator / count + 1) * parts - 1) * count := by
        have less : numerator ≤ (numerator / count + 1) * count - 1 := by
          rw [Int.add_mul, Int.one_mul]
          have := Int.emod_nonneg numerator (show (count : Int) ≠ 0 by omega)
          omega
        have scaled := Int.mul_le_mul_of_nonneg_right less
          (show (0 : Int) ≤ parts by omega)
        rw [Int.sub_mul, Int.one_mul] at scaled ⊢
        rw [Int.mul_right_comm (numerator / count + 1)]
        omega
      have scaled := Int.mul_le_mul_of_nonneg_right atMost
        (show (0 : Int) ≤ unit by omega)
      rw [Int.mul_right_comm numerator, Int.natCast_mul, ← Int.mul_assoc]
      exact scaled
    change inner.quotient _ _ / (parts : Int) ≤ _
    have next := Int.ediv_lt_of_lt_mul (show (0 : Int) < parts by omega)
      (show inner.quotient (numerator * unit * parts) (count * unit) <
        (numerator / count + 1) * parts by omega)
    omega
  · apply Rounding.le_quotient_quotient _ _ denominatorPositive (by omega)
    rw [Int.natCast_mul, ← Int.mul_assoc]
    apply Int.mul_le_mul_of_nonneg_right _ (by omega)
    have := Int.emod_nonneg numerator (show (count : Int) ≠ 0 by omega)
    omega

/-- A factor of both numbers takes no part in their rounded quotient. -/
theorem quotient_mul_mul
    (rounding : Rounding)
    (numerator : Int)
    (denominator : Nat)
    {factor : Nat}
    (positive : 0 < factor) :
    rounding.quotient (numerator * factor) (denominator * factor : Nat) =
      rounding.quotient numerator denominator := by
  have factorPositive : (0 : Int) < factor := by omega
  have scaled : ((denominator * factor : Nat) : Int) = denominator * factor :=
    Int.natCast_mul _ _
  have below :
      numerator * (factor : Int) / ((denominator : Int) * factor) =
        numerator / denominator :=
    Int.mul_ediv_mul_of_pos_left _ _ factorPositive
  have twiceOver :
      2 * (numerator * (factor : Int) % ((denominator : Int) * factor)) =
        2 * (numerator % denominator) * factor := by
    rw [Int.mul_comm numerator, Int.mul_comm (denominator : Int),
      Int.mul_emod_mul_of_pos _ _ factorPositive, Int.mul_assoc,
      Int.mul_comm (factor : Int)]
  have negative : numerator * (factor : Int) < 0 ↔ numerator < 0 := by
    have order : numerator * (factor : Int) < 0 * factor ↔ numerator < 0 :=
      Int.mul_lt_mul_right factorPositive
    rwa [Int.zero_mul] at order
  cases rounding with
  | down =>
      simp only [quotient, scaled, below]
  | halfEven | halfUp =>
      simp only [quotient, scaled, below, twiceOver, negative,
        Int.mul_lt_mul_right factorPositive]

/-- A quotient that is less than half off a whole number is that number. -/
theorem halfEven_quotient_near
    (whole : Int)
    {small : Int}
    {denominator : Nat}
    (near : 2 * small.natAbs < denominator) :
    Rounding.halfEven.quotient (whole * denominator + small) denominator =
      whole := by
  have nonzero : (denominator : Int) ≠ 0 := by omega
  rcases Int.lt_or_le small 0 with negative | nonnegative
  · have shifted :
        whole * (denominator : Int) + small =
          (denominator + small) + (whole - 1) * denominator := by
      rw [Int.sub_mul, Int.one_mul]
      omega
    have below : (whole * (denominator : Int) + small) / denominator = whole - 1 := by
      rw [shifted, Int.add_mul_ediv_right _ _ nonzero,
        Int.ediv_eq_zero_of_lt (by omega) (by omega), Int.zero_add]
    have remainder :
        (whole * (denominator : Int) + small) % denominator = denominator + small := by
      rw [shifted, Int.add_mul_emod_self_right]
      exact Int.emod_eq_of_lt (by omega) (by omega)
    simp only [quotient, below, remainder]
    rw [if_neg (by omega), if_pos (by omega)]
    omega
  · have below : (whole * (denominator : Int) + small) / denominator = whole := by
      rw [Int.add_comm, Int.add_mul_ediv_right _ _ nonzero,
        Int.ediv_eq_zero_of_lt nonnegative (by omega), Int.zero_add]
    have remainder :
        (whole * (denominator : Int) + small) % denominator = small := by
      rw [Int.add_comm, Int.add_mul_emod_self_right]
      exact Int.emod_eq_of_lt nonnegative (by omega)
    simp only [quotient, below, remainder]
    rw [if_pos (by omega)]

/-- The whole number below a quotient, and what remains beside it. -/
theorem floor_add_remainder
    (numerator : Int)
    {denominator : Nat}
    (positive : 0 < denominator) :
    numerator / denominator * denominator + numerator % denominator = numerator ∧
      0 ≤ numerator % (denominator : Int) ∧
      numerator % (denominator : Int) < denominator :=
  ⟨Int.ediv_mul_add_emod numerator denominator,
    Int.emod_nonneg numerator (by omega),
    Int.emod_lt_of_pos numerator (by omega)⟩

/-- A quotient rounded to nearest is at most half off. -/
theorem quotient_within
    {rounding : Rounding}
    (nearest : rounding ≠ .down)
    (numerator : Int)
    {denominator : Nat}
    (positive : 0 < denominator) :
    2 * (rounding.quotient numerator denominator * denominator -
        numerator).natAbs ≤
      denominator := by
  obtain ⟨whole, nonneg, less⟩ := floor_add_remainder numerator positive
  have next := Int.add_mul (numerator / denominator) 1 denominator
  cases rounding with
  | down =>
      exact absurd rfl nearest
  | halfEven | halfUp =>
      simp only [quotient]
      split
      · omega
      · split
        · omega
        · split <;> omega

/-- A quotient midway between two whole numbers is rounded to the even one. -/
theorem halfEven_quotient_midway
    {numerator : Int}
    {denominator : Nat}
    (positive : 0 < denominator)
    (midway :
      2 * (Rounding.halfEven.quotient numerator denominator * denominator -
          numerator).natAbs =
        denominator) :
    Rounding.halfEven.quotient numerator denominator % 2 = 0 := by
  obtain ⟨whole, nonneg, less⟩ := floor_add_remainder numerator positive
  have next := Int.add_mul (numerator / denominator) 1 denominator
  simp only [quotient] at midway ⊢
  split at midway
  · omega
  · split at midway
    · omega
    · split at midway <;> omega

end Rounding

namespace Decimal

/-- Zeros that fill a decimal up leave its value alone. -/
theorem finestUnits_padded
    (value : Decimal)
    (count : Nat) :
    (value.padded count).finestUnits = value.finestUnits := by
  induction count generalizing value with
  | zero => rfl
  | succ count inductionHypothesis =>
      rw [padded]
      split
      next fits =>
        rw [inductionHypothesis]
        have shift : 28 - value.digits = (28 - (value.digits + 1)) + 1 := by
          omega
        simp only [finestUnits]
        rw [shift, tenTo_add, Int.natCast_mul, Int.mul_assoc,
          Int.mul_comm 10]
        rfl
      next => rfl

/-- Rounding to a scale with room for all digits changes nothing. -/
theorem rounded_of_digits_le
    (rounding : Rounding)
    {scale : Nat}
    {value : Decimal}
    (room : value.digits ≤ scale) :
    value.rounded rounding scale = value := by
  have whole :
      rounding.quotient value.coefficient (tenTo (value.digits - scale)) =
        value.coefficient := by
    have same := rounding.quotient_mul_self value.coefficient
      (show 0 < tenTo (value.digits - scale) from tenTo_pos _)
    rw [Nat.sub_eq_zero_of_le room] at same ⊢
    simpa [tenTo] using same
  rcases value with ⟨coefficient, digits, coefficient_lt, digits_le⟩
  simp only at room whole
  simp only [rounded, Decimal.mk.injEq]
  exact ⟨whole, Nat.min_eq_right room⟩

/-- At a scale with room for all digits the value stays the same. -/
theorem finestUnits_atScale
    (rounding : Rounding)
    {scale : Nat}
    {value : Decimal}
    (room : value.digits ≤ scale) :
    (value.atScale rounding scale).finestUnits = value.finestUnits := by
  rw [atScale, finestUnits_padded, rounded_of_digits_le rounding room]

/-- At a scale that has no more digits than the value there is nothing to fill up. -/
theorem atScale_of_le_digits
    (rounding : Rounding)
    {scale : Nat}
    {value : Decimal}
    (fewer : scale ≤ value.digits) :
    value.atScale rounding scale = value.rounded rounding scale := by
  rw [atScale, Nat.sub_eq_zero_of_le fewer]
  rfl

/-- A quotient has at least as many digits as are known to fit. -/
theorem ofQuotient?_digits
    {numerator : Int}
    {denominator digits cap : Nat}
    (within : digits ≤ cap)
    (capped : cap ≤ 28)
    (fits :
      (Rounding.halfEven.quotient
        (numerator * tenTo digits) denominator).natAbs < twoTo 96) :
    ∃ value,
      ofQuotient? numerator denominator cap = some value ∧
        digits ≤ value.digits ∧
        value.coefficient =
          Rounding.halfEven.quotient
            (numerator * tenTo value.digits) denominator := by
  induction cap with
  | zero =>
      obtain rfl : digits = 0 := Nat.le_zero.mp within
      have unit : numerator * (tenTo 0 : Nat) = numerator := by
        simp [tenTo]
      rw [unit] at fits
      refine ⟨⟨_, 0, fits, by decide⟩, ?_, Nat.le_refl _, ?_⟩
      · simp only [ofQuotient?, make?]
        rw [dif_pos ⟨fits, by decide⟩]
      · rw [unit]
  | succ cap inductionHypothesis =>
      rw [ofQuotient?, make?]
      split
      next value found =>
        split at found
        next inRange =>
          obtain rfl := Option.some.inj found
          exact ⟨_, rfl, within, rfl⟩
        next => cases found
      next missing =>
        have shorter : digits ≤ cap := by
          rcases Nat.lt_or_eq_of_le within with less | equal
          · omega
          · subst equal
            rw [dif_pos ⟨fits, capped⟩] at missing
            cases missing
        exact inductionHypothesis shorter (by omega)

/-- A quotient that is whole at the greatest digit count is exact there. -/
theorem ofQuotient?_exact
    {numerator whole : Int}
    {denominator cap : Nat}
    (positive : 0 < denominator)
    (capped : cap ≤ 28)
    (equal : numerator * tenTo cap = whole * denominator)
    (fits : whole.natAbs < twoTo 96) :
    ofQuotient? numerator denominator cap =
      some ⟨whole, cap, fits, capped⟩ := by
  have chosen :
      Rounding.halfEven.quotient (numerator * tenTo cap) denominator = whole := by
    rw [equal]
    exact Rounding.halfEven.quotient_mul_self whole positive
  cases cap with
  | zero =>
      have unit : numerator * (tenTo 0 : Nat) = numerator := by
        simp [tenTo]
      rw [unit] at chosen
      simp only [ofQuotient?, make?, chosen]
      rw [dif_pos ⟨fits, capped⟩]
  | succ cap =>
      simp only [ofQuotient?, make?, chosen]
      rw [dif_pos ⟨fits, capped⟩]

/-- Twenty-eight digits are those of a decimal and those that it leaves. -/
theorem tenTo_digits_rest (value : Decimal) :
    ((tenTo (28 - value.digits) : Nat) : Int) * (tenTo value.digits : Nat) =
      (tenTo 28 : Nat) := by
  rw [← Int.natCast_mul, ← tenTo_add, Nat.sub_add_cancel value.digits_le]

/-- The sum of decimals with equally many digits, where it fits, is exact. -/
theorem add?_of_digits_eq
    {first second : Decimal}
    (same : second.digits = first.digits)
    (fits : (first.coefficient + second.coefficient).natAbs < twoTo 96) :
    first.add? second =
      some ⟨first.coefficient + second.coefficient, first.digits,
        fits, first.digits_le⟩ := by
  rw [add?, same, Nat.max_self]
  apply ofQuotient?_exact (tenTo_pos 28)
  rw [finestUnits, finestUnits, same, ← Int.add_mul, Int.mul_assoc,
    tenTo_digits_rest]

/-- The difference of decimals with equally many digits, where it fits, is exact. -/
theorem subtract?_of_digits_eq
    {first second : Decimal}
    (same : second.digits = first.digits)
    (fits : (first.coefficient - second.coefficient).natAbs < twoTo 96) :
    first.subtract? second =
      some ⟨first.coefficient - second.coefficient, first.digits,
        fits, first.digits_le⟩ := by
  rw [subtract?, same, Nat.max_self]
  apply ofQuotient?_exact (tenTo_pos 28)
  rw [finestUnits, finestUnits, same, ← Int.sub_mul, Int.mul_assoc,
    tenTo_digits_rest]

/-- Decimals with the same coefficient and digits are the same. -/
theorem eq_of_digits
    {first second : Decimal}
    (coefficient : first.coefficient = second.coefficient)
    (digits : first.digits = second.digits) :
    first = second := by
  rcases first with ⟨_, _, _, _⟩
  rcases second with ⟨_, _, _, _⟩
  simp only at coefficient digits
  simp only [coefficient, digits]

/-- No zeros fill up a coefficient that is within a digit of the bound. -/
theorem padded_of_full
    {value : Decimal}
    (full : twoTo 96 ≤ value.coefficient.natAbs * 10)
    (count : Nat) :
    value.padded count = value := by
  cases count with
  | zero =>
      rfl
  | succ count =>
      have noRoom : ¬ (value.coefficient * 10).natAbs < twoTo 96 := by
        rw [Int.natAbs_mul]
        exact Nat.not_lt.mpr full
      rw [padded, dif_neg fun fits => noRoom fits.1]

/-- Zeros take no digits away. -/
theorem digits_le_padded
    (value : Decimal)
    (count : Nat) :
    value.digits ≤ (value.padded count).digits := by
  induction count generalizing value with
  | zero =>
      exact Nat.le_refl _
  | succ count inductionHypothesis =>
      rw [padded]
      split
      next fits =>
        exact Nat.le_trans (Nat.le_succ _)
          (inductionHypothesis
            ⟨value.coefficient * 10, value.digits + 1, fits.1, fits.2⟩)
      next =>
        exact Nat.le_refl _

/-- A quotient has no more digits than it may have. -/
theorem digits_of_ofQuotient?
    {numerator : Int}
    {denominator cap : Nat}
    {result : Decimal}
    (found : ofQuotient? numerator denominator cap = some result) :
    result.digits ≤ cap := by
  induction cap with
  | zero =>
      rw [ofQuotient?, make?] at found
      split at found
      next =>
        obtain rfl := Option.some.inj found
        exact Nat.le_refl _
      next =>
        cases found
  | succ cap inductionHypothesis =>
      rw [ofQuotient?, make?] at found
      split at found
      next value made =>
        split at made
        next =>
          obtain rfl := Option.some.inj made
          obtain rfl := Option.some.inj found
          exact Nat.le_refl _
        next =>
          cases made
      next =>
        exact Nat.le_succ_of_le (inductionHypothesis found)

end Decimal

end PatronFees
