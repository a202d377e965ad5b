namespace PatronFees

/-!
# Rounding a quotient

Every rounding of the library is the choice of a whole number for an exact
quotient of whole numbers. The rules differ only in that choice.
-/

/-- How a quotient that is not whole is made whole. -/
inductive Rounding where
  /-- To the nearest whole number, a half to the even neighbour. -/
  | halfEven
  /-- To the nearest whole number, a half away from zero. -/
  | halfUp
  /-- To the whole number below, toward negative infinity. -/
  | down
  deriving Repr, DecidableEq

namespace Rounding

/-- The whole number chosen for `numerator / denominator`. -/
def quotient
    (rounding : Rounding)
    (numerator : Int)
    (denominator : Nat) : Int :=
  let below := numerator / denominator
  let twiceOver := 2 * (numerator % denominator)
  match rounding with
  | .down => below
  | .halfEven =>
      if twiceOver < denominator then below
      else if denominator < twiceOver then below + 1
      else if below % 2 = 0 then below
      else below + 1
  | .halfUp =>
      if twiceOver < denominator then below
      else if denominator < twiceOver then below + 1
      else if numerator < 0 then below
      else below + 1

/-- A whole quotient is left as it is. -/
theorem quotient_mul_self
    (rounding : Rounding)
    (whole : Int)
    {denominator : Nat}
    (positive : 0 < denominator) :
    rounding.quotient (whole * denominator) denominator = whole := by
  have nonzero : (denominator : Int) ≠ 0 := by omega
  have remainder : whole * (denominator : Int) % denominator = 0 :=
    Int.mul_emod_left whole denominator
  have below : whole * (denominator : Int) / denominator = whole :=
    Int.mul_ediv_cancel whole nonzero
  have small : (2 : Int) * 0 < denominator := by omega
  cases rounding with
  | down => exact below
  | halfEven => simp only [quotient, remainder, below, if_pos small]
  | halfUp => simp only [quotient, remainder, below, if_pos small]

/-- The chosen number is the whole number below or the one above. -/
theorem quotient_eq_or
    (rounding : Rounding)
    (numerator : Int)
    (denominator : Nat) :
    rounding.quotient numerator denominator = numerator / denominator ∨
      rounding.quotient numerator denominator = numerator / denominator + 1 ∧
        0 < numerator % denominator ∨
      denominator = 0 := by
  rcases Nat.eq_zero_or_pos denominator with zero | positive
  · exact Or.inr (Or.inr zero)
  · have remainder : 0 ≤ numerator % (denominator : Int) :=
      Int.emod_nonneg _ (by omega)
    cases rounding with
    | down => exact Or.inl rfl
    | halfEven =>
        simp only [quotient]
        split
        · exact Or.inl rfl
        · split
          · exact Or.inr (Or.inl ⟨rfl, by omega⟩)
          · split
            · exact Or.inl rfl
            · exact Or.inr (Or.inl ⟨rfl, by omega⟩)
    | halfUp =>
        simp only [quotient]
        split
        · exact Or.inl rfl
        · split
          · exact Or.inr (Or.inl ⟨rfl, by omega⟩)
          · split
            · exact Or.inl rfl
            · exact Or.inr (Or.inl ⟨rfl, by omega⟩)

/-- Rounding a quotient by a positive number does not enlarge the magnitude. -/
theorem natAbs_quotient_le
    (rounding : Rounding)
    (numerator : Int)
    {denominator : Nat}
    (positive : 0 < denominator) :
    (rounding.quotient numerator denominator).natAbs ≤ numerator.natAbs := by
  have whole := Int.mul_ediv_add_emod numerator denominator
  have remainderNonneg : 0 ≤ numerator % (denominator : Int) :=
    Int.emod_nonneg _ (by omega)
  have remainderLt : numerator % (denominator : Int) < denominator :=
    Int.emod_lt_of_pos _ (by omega)
  rcases Int.lt_or_le numerator 0 with negative | nonnegative
  · have belowNegative : numerator / (denominator : Int) ≤ -1 := by
      have := Int.ediv_neg_of_neg_of_pos negative
        (show (0 : Int) < denominator by omega)
      omega
    have product :
        ((denominator : Int) - 1) * (numerator / (denominator : Int)) ≤
          ((denominator : Int) - 1) * (-1) :=
      Int.mul_le_mul_of_nonneg_left belowNegative (by omega)
    have expanded :
        ((denominator : Int) - 1) * (numerator / (denominator : Int)) =
          (denominator : Int) * (numerator / (denominator : Int)) -
            numerator / (denominator : Int) := by
      rw [Int.sub_mul, Int.one_mul]
    rcases quotient_eq_or rounding numerator denominator with same | ⟨above, _⟩ | zero
    · omega
    · omega
    · omega
  · have belowNonneg : 0 ≤ numerator / (denominator : Int) :=
      Int.ediv_nonneg nonnegative (by omega)
    have product :
        0 ≤ ((denominator : Int) - 1) * (numerator / (denominator : Int)) :=
      Int.mul_nonneg (by omega) belowNonneg
    have expanded :
        ((denominator : Int) - 1) * (numerator / (denominator : Int)) =
          (denominator : Int) * (numerator / (denominator : Int)) -
            numerator / (denominator : Int) := by
      rw [Int.sub_mul, Int.one_mul]
    rcases quotient_eq_or rounding numerator denominator with same | ⟨above, _⟩ | zero
    · omega
    · omega
    · omega

end Rounding

end PatronFees
