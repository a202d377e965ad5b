import PatronFees.Proofs.Decimal.Kept
import PatronFees.Proofs.Money.Arithmetic

namespace PatronFees

/-!
# Amounts that are rounded once

An entered amount is rounded twice: where its digits are cut to a decimal, and
half to even at its scale. The amount is the one nearest to the number entered
exactly if the decimal still decides the rounding. A decimal decides it wrongly
if it was moved to midway between two amounts from the side of the other one, or
if it has no further digits to round.
-/

/-- A whole number nearest to a number; of two that are equally near, the even one. -/
structure IsNearestEven
    (whole : Int)
    (number : ℚ) : Prop where
  within : |(whole : ℚ) - number| ≤ 1 / 2
  even : |(whole : ℚ) - number| = 1 / 2 → Even whole

namespace IsNearestEven

variable {whole other coefficient : Int} {number : ℚ}

/-- There is one nearest whole number. -/
theorem unique
    (first : IsNearestEven whole number)
    (second : IsNearestEven other number) :
    whole = other := by
  have firstWithin := abs_le.mp first.within
  have secondWithin := abs_le.mp second.within
  have atMost : whole ≤ other + 1 := by
    have : (whole : ℚ) ≤ other + 1 := by linarith
    exact_mod_cast this
  have atLeast : other ≤ whole + 1 := by
    have : (other : ℚ) ≤ whole + 1 := by linarith
    exact_mod_cast this
  by_contra different
  -- Neighbours are equally near only from midway, and not both of them are even.
  have midway :
      |(whole : ℚ) - number| = 1 / 2 ∧ |(other : ℚ) - number| = 1 / 2 := by
    rcases (show whole = other + 1 ∨ other = whole + 1 by omega) with next | next
    · have apart : (whole : ℚ) = other + 1 := by exact_mod_cast next
      constructor <;> rw [abs_eq (by norm_num)]
      · left; linarith
      · right; linarith
    · have apart : (other : ℚ) = whole + 1 := by exact_mod_cast next
      constructor <;> rw [abs_eq (by norm_num)]
      · right; linarith
      · left; linarith
  have firstEven := Int.even_iff.mp (first.even midway.1)
  have secondEven := Int.even_iff.mp (second.even midway.2)
  omega

theorem intCast (whole : Int) :
    IsNearestEven whole whole := by
  constructor
  · rw [sub_self, abs_zero]
    norm_num
  · intro midway
    rw [sub_self, abs_zero] at midway
    norm_num at midway

/-- Rounding half to even chooses the nearest whole number. -/
theorem halfEven_quotient
    (numerator : Int)
    {denominator : Nat}
    (positive : 0 < denominator) :
    IsNearestEven (Rounding.halfEven.quotient numerator denominator)
      (numerator / denominator) := by
  refine ⟨Rounding.abs_quotient_sub_le (by decide) numerator positive, ?_⟩
  intro midway
  have parts := Rounding.abs_sub_div_mul
    (Rounding.halfEven.quotient numerator denominator) numerator positive
  rw [midway] at parts
  rw [Int.even_iff]
  apply Rounding.halfEven_quotient_midway positive
  have twice :
      (2 : ℚ) * (Rounding.halfEven.quotient numerator denominator * denominator -
        numerator : Int).natAbs = denominator := by
    rw [← parts]
    ring
  exact_mod_cast twice

/-- Short of midway, a decimal is at least one last place short of it. -/
theorem within_of_lt
    {further : Nat}
    (short :
      |(whole : ℚ) - coefficient / 10 ^ (further + 1)| < 1 / 2) :
    |(whole : ℚ) - coefficient / 10 ^ (further + 1)| ≤
      1 / 2 - 1 / 10 ^ (further + 1) := by
  have parts := Rounding.abs_sub_div_mul whole coefficient (tenTo_pos (further + 1))
  have positive : (0 : ℚ) < 10 ^ (further + 1) := by positivity
  have tens : (10 : ℚ) ^ (further + 1) = 10 * (tenTo further : Nat) := by
    rw [Decimal.cast_tenTo, pow_succ, mul_comm]
  rw [Decimal.cast_tenTo] at parts
  have scaled := mul_lt_mul_of_pos_right short positive
  rw [parts, tens] at scaled
  have fewer :
      (whole * tenTo (further + 1) - coefficient : Int).natAbs <
        5 * tenTo further := by
    have : ((whole * tenTo (further + 1) - coefficient : Int).natAbs : ℚ) <
        5 * (tenTo further : Nat) := by
      linarith
    exact_mod_cast this
  have atMost :
      ((whole * tenTo (further + 1) - coefficient : Int).natAbs : ℚ) + 1 ≤
        5 * (tenTo further : Nat) := by
    exact_mod_cast fewer
  rw [← mul_le_mul_iff_of_pos_right positive, parts, sub_mul,
    one_div_mul_cancel positive.ne', tens]
  linarith

/-- Midway between two whole numbers the nearest is the even one of them. -/
theorem eq_of_midway
    {lower : Int}
    (nearest : IsNearestEven whole number)
    (midway : number = lower + 1 / 2) :
    whole = if Even lower then lower else lower + 1 := by
  obtain ⟨atLeast, atMost⟩ := abs_le.mp nearest.within
  have least : lower ≤ whole := by
    have : (lower : ℚ) ≤ whole := by linarith
    exact_mod_cast this
  have most : whole ≤ lower + 1 := by
    have : (whole : ℚ) ≤ lower + 1 := by linarith
    exact_mod_cast this
  have equallyNear : |(whole : ℚ) - number| = 1 / 2 := by
    rw [abs_eq (by norm_num)]
    rcases (show whole = lower ∨ whole = lower + 1 by omega) with same | next
    · right
      rw [midway, same]
      ring
    · left
      rw [midway, next]
      push_cast
      ring
  have even := Int.even_iff.mp (nearest.even equallyNear)
  simp only [Int.even_iff]
  split <;> omega

/-- Half off a whole number is midway between two. -/
theorem exists_midway
    (equallyNear : |(whole : ℚ) - number| = 1 / 2) :
    ∃ lower : Int, number = lower + 1 / 2 := by
  rcases (abs_eq (by norm_num)).mp equallyNear with above | below
  · refine ⟨whole - 1, ?_⟩
    push_cast
    linarith
  · exact ⟨whole, by linarith⟩

/--
The number nearest to a decimal is nearest to a number close to the decimal too,
unless the decimal is midway and the number is beyond it, seen from the even side.
-/
theorem iff_of_near
    {further : Nat}
    {kept : ℚ}
    (decimal : kept = coefficient / 10 ^ (further + 1))
    (nearest : IsNearestEven whole kept)
    (near : |kept - number| < 1 / 10 ^ (further + 1)) :
    IsNearestEven whole number ↔
      ∀ lower : Int, kept = lower + 1 / 2 →
        if Even lower then number ≤ kept else kept ≤ number := by
  constructor
  · intro nearestToNumber lower midway
    have chosen := nearest.eq_of_midway midway
    obtain ⟨atLeast, atMost⟩ := abs_le.mp nearestToNumber.within
    split
    next even =>
      rw [chosen, if_pos even] at atLeast
      linarith
    next odd =>
      rw [chosen, if_neg odd] at atMost
      push_cast at atMost
      linarith
  · intro side
    rcases nearest.within.lt_or_eq with short | equallyNear
    · -- Off midway the decimal is a last place short of it, and the number less than that off.
      have close : |(whole : ℚ) - number| < 1 / 2 := by
        rw [decimal] at short
        have apart := within_of_lt short
        rw [← decimal] at apart
        have triangle := abs_sub_le (whole : ℚ) kept number
        linarith
      exact ⟨close.le, fun midway => absurd midway close.ne⟩
    · have place : (1 : ℚ) / 10 ^ (further + 1) ≤ 1 := by
        rw [div_le_one (by positivity)]
        exact one_le_pow₀ (by norm_num)
      obtain ⟨below, above⟩ := abs_lt.mp near
      obtain ⟨lower, midway⟩ := exists_midway equallyNear
      have chosen := nearest.eq_of_midway midway
      have beside := side lower midway
      refine ⟨?_, fun _ => nearest.even equallyNear⟩
      rw [abs_le, chosen]
      split at beside
      next even =>
        rw [if_pos even]
        constructor <;> linarith
      next odd =>
        rw [if_neg odd]
        push_cast
        constructor <;> linarith

end IsNearestEven

namespace Money

/--
The decimal kept of a number still decides which amount at a scale is the nearest.

With further digits than the scale it is not midway between two amounts, or else
the number is not beyond it, seen from the even one. With no further digits it is
an amount already, and is the nearest one.
-/
structure KeepsRounding
    (kept : Decimal)
    (number : ℚ)
    (scale : Nat) : Prop where
  midway :
    scale < kept.digits → ∀ lower : Int,
      kept.number * 10 ^ scale = lower + 1 / 2 →
        if Even lower then number ≤ kept.number else kept.number ≤ number
  whole :
    kept.digits ≤ scale → ∀ units : Int,
      kept.number * 10 ^ scale = units → IsNearestEven units (number * 10 ^ scale)

section Reading

variable {kept : Decimal} {number : ℚ} {scale : Nat}

/-- A decimal that is the number itself decides its rounding. -/
theorem keepsRounding_of_exact
    (exactly : kept.number = number) :
    KeepsRounding kept number scale := by
  constructor
  · intro _ lower _
    split
    · exact exactly.ge
    · exact exactly.le
  · intro _ units same
    rw [← exactly, same]
    exact .intCast units

/-- With no further digits than the scale, a decimal is its own amount. -/
theorem minorUnits_ofDecimal_of_le
    (capped : scale ≤ maxScale)
    (places : kept.digits ≤ scale) :
    ((ofDecimal kept scale).minorUnits : ℚ) = kept.number * 10 ^ scale := by
  have least : min scale maxScale = scale := Nat.min_eq_left capped
  have tens : (10 : ℚ) ^ scale = 10 ^ kept.digits * 10 ^ (scale - kept.digits) := by
    rw [← pow_add, Nat.add_sub_cancel' places]
  rw [ofDecimal, minorUnits_roundedBy .halfEven (by omega), least, Int.cast_mul,
    Int.cast_natCast, Decimal.cast_tenTo, Decimal.number, tens]
  field_simp

/-- With further digits than the scale, a decimal is rounded to the nearest amount. -/
theorem isNearestEven_ofDecimal
    {further : Nat}
    (capped : scale ≤ maxScale)
    (places : kept.digits = scale + (further + 1)) :
    kept.number * 10 ^ scale = kept.coefficient / 10 ^ (further + 1) ∧
      IsNearestEven (ofDecimal kept scale).minorUnits
        (kept.number * 10 ^ scale) := by
  have shared :
      kept.number * 10 ^ scale = kept.coefficient / 10 ^ (further + 1) := by
    rw [Decimal.number, places, pow_add]
    field_simp
  refine ⟨shared, ?_⟩
  rw [shared, ofDecimal, minorUnits_roundedBy_of_further .halfEven capped places,
    ← Decimal.cast_tenTo]
  exact .halfEven_quotient _ (tenTo_pos _)

/-- Less than one last place off, counted in units of a scale. -/
theorem near_atScale
    {further : Nat}
    (places : kept.digits = scale + further)
    (near : |kept.number - number| < 1 / 10 ^ kept.digits) :
    |kept.number * 10 ^ scale - number * 10 ^ scale| < 1 / 10 ^ further := by
  have positive : (0 : ℚ) < 10 ^ scale := by positivity
  have place : (1 : ℚ) / 10 ^ further = 1 / 10 ^ kept.digits * 10 ^ scale := by
    rw [places, pow_add]
    field_simp
  rw [← sub_mul, abs_mul, abs_of_pos positive, place]
  exact mul_lt_mul_of_pos_right near positive

/-- The amount at a scale is nearest to a number exactly if the decimal decides it. -/
theorem isNearestEven_ofDecimal_iff
    (capped : scale ≤ maxScale)
    (near : |kept.number - number| < 1 / 10 ^ kept.digits) :
    IsNearestEven (ofDecimal kept scale).minorUnits (number * 10 ^ scale) ↔
      KeepsRounding kept number scale := by
  have positive : (0 : ℚ) < 10 ^ scale := by positivity
  rcases Nat.lt_or_ge scale kept.digits with further | places
  · obtain ⟨rest, same⟩ : ∃ rest, kept.digits = scale + (rest + 1) :=
      ⟨kept.digits - scale - 1, by omega⟩
    obtain ⟨decimal, nearest⟩ := isNearestEven_ofDecimal capped same
    rw [IsNearestEven.iff_of_near decimal nearest (near_atScale same near)]
    simp only [mul_le_mul_iff_of_pos_right positive]
    constructor
    · exact fun side => ⟨fun _ => side, fun places => by omega⟩
    · exact fun keeps => keeps.midway further
  · have own := minorUnits_ofDecimal_of_le capped places
    constructor
    · intro nearest
      refine ⟨fun further => by omega, fun _ units same => ?_⟩
      rw [same] at own
      rwa [Int.cast_injective own] at nearest
    · intro keeps
      exact keeps.whole places _ own.symm

/-- With as many digits as the scale or more, the amount is less than a unit off. -/
theorem abs_minorUnits_sub_lt
    (capped : scale ≤ maxScale)
    (places : scale ≤ kept.digits)
    (near : |kept.number - number| < 1 / 10 ^ kept.digits) :
    |((ofDecimal kept scale).minorUnits : ℚ) - number * 10 ^ scale| < 1 := by
  obtain ⟨further, same⟩ := Nat.exists_eq_add_of_le places
  have close := near_atScale same near
  cases further with
  | zero =>
      rw [pow_zero, div_one] at close
      rwa [minorUnits_ofDecimal_of_le capped same.le]
  | succ further =>
      obtain ⟨-, nearest⟩ := isNearestEven_ofDecimal capped same
      have half := nearest.within
      have tenth : (1 : ℚ) / 10 ^ (further + 1) ≤ 1 / 10 :=
        one_div_le_one_div_of_le (by norm_num)
          (le_self_pow₀ (by norm_num) (Nat.succ_ne_zero further))
      have triangle := abs_sub_le ((ofDecimal kept scale).minorUnits : ℚ)
        (kept.number * 10 ^ scale) (number * 10 ^ scale)
      linarith

/--
An entered amount is the one nearest to the number entered exactly if the decimal
that is kept of the number still decides the rounding. It does where there is room
for all digits entered. At a scale that has no more digits than the decimal, the
amount is less than a unit off in any case.
-/
theorem reading_rounds_once_iff
    {entered : String}
    {money : Money}
    (capped : scale ≤ maxScale)
    (accepted : read entered scale = .ok money) :
    (IsNearestEven money.minorUnits
          (Decimal.denoted (Text.trim entered.toList) * 10 ^ scale) ↔
        KeepsRounding money.unrounded
          (Decimal.denoted (Text.trim entered.toList)) scale) ∧
      (Decimal.IsInFull (Text.trim entered.toList) →
        KeepsRounding money.unrounded
          (Decimal.denoted (Text.trim entered.toList)) scale) ∧
      (scale ≤ money.unrounded.digits →
        |(money.minorUnits : ℚ) -
            Decimal.denoted (Text.trim entered.toList) * 10 ^ scale| < 1) := by
  rw [read] at accepted
  split at accepted
  next kept found =>
    obtain rfl := Except.ok.inj accepted
    have near := Decimal.read?_near found
    exact ⟨isNearestEven_ofDecimal_iff capped near,
      fun inFull => keepsRounding_of_exact (Decimal.number_of_isInFull inFull found),
      fun places => abs_minorUnits_sub_lt capped places near⟩
  next =>
    cases accepted

end Reading

/-- An eighth has digits for all scales and is midway between two cents. -/
theorem reading_rounds_once_iff_anEighth :
    (2 ≤ maxScale ∧
        read " 0.125 " 2 = .ok (ofDecimal ⟨125, 3, by decide, by decide⟩ 2)) ∧
      Decimal.IsInFull (Text.trim " 0.125 ".toList) ∧
      IsNearestEven 12 (Decimal.denoted (Text.trim " 0.125 ".toList) * 10 ^ 2) := by
  have capped : 2 ≤ maxScale := by decide
  have accepted :
      read " 0.125 " 2 = .ok (ofDecimal ⟨125, 3, by decide, by decide⟩ 2) := by
    decide +kernel
  have inFull : Decimal.IsInFull (Text.trim " 0.125 ".toList) := by
    constructor <;> decide +kernel
  obtain ⟨nearest_iff, keeps, -⟩ := reading_rounds_once_iff capped accepted
  exact ⟨⟨capped, accepted⟩, inFull, nearest_iff.mpr (keeps inFull)⟩

/--
Just below one cent and a half there are 31 places. Cut to 28 of them it is one
cent and a half, and that is rounded to two cents.
-/
theorem rounded_twice :
    ∃ money,
      read "0.0149999999999999999999999999999" 2 = .ok money ∧
        money.HasAllDigits ∧
        money.minorUnits = 2 ∧
        ¬ IsNearestEven money.minorUnits
          (Decimal.denoted
              (Text.trim "0.0149999999999999999999999999999".toList) *
            10 ^ 2) := by
  have tallied :
      Decimal.plainTally
          ((Text.trim "0.0149999999999999999999999999999".toList).takeWhile
            (!Decimal.isExponentMark ·)) =
        ⟨149999999999999999999999999999, 31, true⟩ := by
    decide +kernel
  have unsigned :
      (Decimal.splitSign
          ((Text.trim "0.0149999999999999999999999999999".toList).takeWhile
            (!Decimal.isExponentMark ·))).1 =
        1 := by
    decide +kernel
  have noExponent :
      Decimal.exponentNumber
          ((Text.trim "0.0149999999999999999999999999999".toList).dropWhile
            (!Decimal.isExponentMark ·)).tail =
        0 := by
    decide +kernel
  have units :
      (ofDecimal ⟨150000000000000000000000000, 28, by decide, by decide⟩ 2).minorUnits =
        2 := by
    decide +kernel
  refine ⟨ofDecimal ⟨150000000000000000000000000, 28, by decide, by decide⟩ 2, ?_, rfl,
    units, fun nearest => ?_⟩
  · decide +kernel
  · have within := nearest.within
    rw [units, Decimal.denoted, Decimal.plainNumber, tallied, unsigned, noExponent,
      Decimal.Tally.value] at within
    norm_num at within

end Money

end PatronFees
