import PatronFees.Proofs.Money.Arithmetic

namespace PatronFees

/-!
# Units that are lost

A smallest unit of a scale is lost on an amount with fewer digits: whether it is
added or taken away, the result is rounded back to what the amount was.
-/

namespace Decimal

section Nudged

variable {value : Decimal} {scale : Nat} {nudge : Int}

/-- What a value and a unit of a scale, or its negative, come to at some digits. -/
theorem quotient_nudged
    (capped : scale ≤ 28)
    (tiny : nudge.natAbs ≤ 1)
    {digits : Nat}
    (atLeast : value.digits ≤ digits)
    (atMost : digits ≤ scale) :
    Rounding.halfEven.quotient
        ((value.finestUnits + nudge * tenTo (28 - scale)) * tenTo digits)
        (tenTo 28) =
      value.coefficient * tenTo (digits - value.digits) +
        if digits = scale then nudge else 0 := by
  have valueTens :
      tenTo (28 - value.digits) * tenTo digits =
        tenTo (digits - value.digits) * tenTo 28 := by
    have := value.digits_le
    rw [← tenTo_add, ← tenTo_add]
    congr 1
    omega
  have unitTens :
      tenTo (28 - scale) * tenTo digits = tenTo (28 - (scale - digits)) := by
    rw [← tenTo_add]
    congr 1
    omega
  have numerator :
      (value.finestUnits + nudge * tenTo (28 - scale)) * tenTo digits =
        value.coefficient * (tenTo (digits - value.digits) : Nat) * (tenTo 28 : Nat) +
          nudge * (tenTo (28 - (scale - digits)) : Nat) := by
    rw [Int.add_mul, finestUnits, Int.mul_assoc, Int.mul_assoc, ← Int.natCast_mul,
      ← Int.natCast_mul, valueTens, unitTens, Int.natCast_mul, ← Int.mul_assoc]
  rw [numerator]
  split
  next same =>
    rw [same, Nat.sub_self, Nat.sub_zero, ← Int.add_mul]
    exact Rounding.halfEven.quotient_mul_self _ (tenTo_pos 28)
  next different =>
    rw [Int.add_zero]
    apply Rounding.halfEven_quotient_near
    have split :
        tenTo (28 - (scale - digits)) * tenTo (scale - digits) = tenTo 28 := by
      rw [← tenTo_add]
      congr 1
      omega
    have tenfold : tenTo 1 ≤ tenTo (scale - digits) := tenTo_le_tenTo (by omega)
    have scaled := Nat.mul_le_mul_left (tenTo (28 - (scale - digits))) tenfold
    have positive := tenTo_pos (28 - (scale - digits))
    have small := Nat.mul_le_mul_right (tenTo (28 - (scale - digits))) tiny
    have ten : tenTo 1 = 10 := rfl
    rw [Int.natAbs_mul, Int.natAbs_natCast]
    rw [split, ten] at scaled
    omega

/-- A unit finer than a value changes at most a last digit behind those of the value. -/
theorem ofQuotient?_nudged
    (capped : scale ≤ 28)
    (tiny : nudge.natAbs ≤ 1)
    (lost : value.digits < scale) :
    ∃ result bit,
      ofQuotient? (value.finestUnits + nudge * tenTo (28 - scale)) (tenTo 28) scale =
          some result ∧
        value.digits ≤ result.digits ∧
        result.coefficient =
          value.coefficient * tenTo (result.digits - value.digits) + bit ∧
        bit.natAbs ≤ 1 ∧
        (result.digits = value.digits → bit = 0) := by
  have fits :
      (Rounding.halfEven.quotient
        ((value.finestUnits + nudge * tenTo (28 - scale)) * tenTo value.digits)
        (tenTo 28)).natAbs < twoTo 96 := by
    have unit : ((tenTo 0 : Nat) : Int) = 1 := rfl
    rw [quotient_nudged capped tiny (Nat.le_refl _) (Nat.le_of_lt lost), Nat.sub_self,
      unit, Int.mul_one, if_neg (Nat.ne_of_lt lost), Int.add_zero]
    exact value.coefficient_lt
  obtain ⟨result, found, reaches, chosen⟩ :=
    ofQuotient?_digits (Nat.le_of_lt lost) capped fits
  have within := digits_of_ofQuotient? found
  rw [quotient_nudged capped tiny reaches within] at chosen
  refine ⟨result, _, found, reaches, chosen, ?_, fun same => ?_⟩
  · split
    · exact tiny
    · exact Nat.zero_le _
  · rw [if_neg (by omega)]

end Nudged

/-- A number that just does not fit takes a digit away, and is rounded to tens. -/
theorem ofQuotient?_of_full
    {number : Int}
    {digits : Nat}
    (fraction : 0 < digits)
    (capped : digits ≤ 28)
    (full : twoTo 96 ≤ number)
    (near : number < 2 * twoTo 96) :
    ∃ result,
      ofQuotient? (number * tenTo (28 - digits)) (tenTo 28) digits = some result ∧
        result.digits + 1 = digits ∧
        number ≤ result.coefficient * 10 + 5 ∧
        result.coefficient * 10 ≤ number + 5 := by
  have tens27 : tenTo 27 = 1000000000000000000000000000 := rfl
  have tens28 : tenTo 28 = 10000000000000000000000000000 := rfl
  have numerator :
      number * (tenTo (28 - digits) : Nat) * (tenTo (digits - 1) : Nat) =
        number * (tenTo 27 : Nat) := by
    rw [Int.mul_assoc, ← Int.natCast_mul, ← tenTo_add]
    congr 3
    omega
  have rounded := Rounding.quotient_within (show Rounding.halfEven ≠ .down by decide)
    (number * (tenTo 27 : Nat)) (tenTo_pos 28)
  have fits :
      (Rounding.halfEven.quotient
        (number * (tenTo (28 - digits) : Nat) * (tenTo (digits - 1) : Nat))
        (tenTo 28)).natAbs < twoTo 96 := by
    rw [numerator]
    generalize Rounding.halfEven.quotient _ _ = chosen at rounded ⊢
    rw [tens27, tens28] at rounded
    rw [twoTo_96] at *
    omega
  obtain ⟨result, found, atLeast, chosen⟩ :=
    ofQuotient?_digits (Nat.sub_le digits 1) capped fits
  have atMost := digits_of_ofQuotient? found
  -- At all the digits the number is whole, and too great.
  have fewer : result.digits = digits - 1 := by
    by_contra different
    have same : result.digits = digits := by omega
    have bound := result.coefficient_lt
    rw [same, Int.mul_assoc, ← Int.natCast_mul, ← tenTo_add, Nat.sub_add_cancel capped,
      Rounding.halfEven.quotient_mul_self _ (tenTo_pos 28)] at chosen
    omega
  rw [fewer, numerator] at chosen
  rw [← chosen, tens27, tens28] at rounded
  exact ⟨result, found, by omega, by omega, by omega⟩

end Decimal

namespace Money

variable {money : Money} {scale : Nat}

/-- An amount is at its scale already. -/
theorem atScale_amount (money : Money) :
    money.amount.atScale .halfEven money.scale = money.amount := by
  rw [Decimal.atScale, Decimal.rounded_of_digits_le .halfEven money.digits_le]
  rcases money.filled with reached | full
  · rw [reached, Nat.sub_self]
    rfl
  · exact Decimal.padded_of_full full _

/-- A last digit behind those of an amount is rounded away at its scale. -/
theorem amount_ofDecimal_of_bit
    {result : Decimal}
    {bit : Int}
    (reaches : money.amount.digits ≤ result.digits)
    (coefficient :
      result.coefficient =
        money.amount.coefficient * tenTo (result.digits - money.amount.digits) + bit)
    (tiny : bit.natAbs ≤ 1)
    (behind : result.digits = money.amount.digits → bit = 0) :
    (ofDecimal result money.scale).amount = money.amount := by
  have whole : min money.scale maxScale = money.scale :=
    Nat.min_eq_left money.scale_le
  change result.atScale .halfEven (min money.scale maxScale) = money.amount
  rw [whole]
  rcases Nat.lt_or_eq_of_le reaches with further | same
  · have tenfold : tenTo 1 ≤ tenTo (result.digits - money.amount.digits) :=
      tenTo_le_tenTo (by omega)
    have ten : tenTo 1 = 10 := rfl
    rw [ten] at tenfold
    -- A full coefficient has no room for a digit behind it.
    have allDigits : money.amount.digits = money.scale := by
      refine money.filled.resolve_right fun full => ?_
      have larger := Nat.mul_le_mul_left money.amount.coefficient.natAbs tenfold
      have product :=
        Int.natAbs_mul money.amount.coefficient
          (tenTo (result.digits - money.amount.digits) : Nat)
      have bound := result.coefficient_lt
      rw [Int.natAbs_natCast] at product
      rw [coefficient] at bound
      rw [twoTo_96] at full bound
      omega
    have rounds :
        result.rounded .halfEven money.scale = money.amount := by
      refine Decimal.eq_of_digits ?_ ?_
      · change Rounding.halfEven.quotient result.coefficient
          (tenTo (result.digits - money.scale)) = _
        rw [coefficient, ← allDigits]
        exact Rounding.halfEven_quotient_near _ (by omega)
      · change min money.scale result.digits = _
        omega
    rw [Decimal.atScale, rounds, Nat.sub_eq_zero_of_le (by omega)]
    rfl
  · have unchanged : result = money.amount := by
      have unit : ((tenTo 0 : Nat) : Int) = 1 := rfl
      rw [behind same.symm, same, Nat.sub_self, unit, Int.mul_one, Int.add_zero]
        at coefficient
      exact Decimal.eq_of_digits coefficient same.symm
    rw [unchanged]
    exact atScale_amount money

section Unit

variable (capped : scale ≤ maxScale)

include capped

theorem digits_smallestUnit :
    (smallestUnit scale).amount.digits = scale := by
  have allDigits : (smallestUnit scale).HasAllDigits :=
    hasAllDigits_of_lt (by
      rw [minorUnits_smallestUnit capped]
      decide)
  exact allDigits.trans (scale_smallestUnit capped)

theorem finestUnits_smallestUnit :
    (smallestUnit scale).amount.finestUnits = tenTo (28 - scale) := by
  have units := units_eq (smallestUnit scale)
  rw [minorUnits_smallestUnit capped, scale_smallestUnit capped, Int.one_mul] at units
  exact units

/-- A unit is lost when it is added to an amount with fewer digits. -/
theorem add_smallestUnit_of_lost
    (lost : money.amount.digits < scale) :
    ∃ same,
      money.add (smallestUnit scale) = .ok same ∧
        same.amount = money.amount ∧
        same.scale = money.scale := by
  obtain ⟨result, bit, found, reaches, coefficient, tiny, behind⟩ :=
    Decimal.ofQuotient?_nudged capped (show (1 : Int).natAbs ≤ 1 by decide) lost
  have sum : money.amount.add? (smallestUnit scale).amount = some result := by
    rw [Decimal.add?, finestUnits_smallestUnit capped, digits_smallestUnit capped,
      Nat.max_eq_right (Nat.le_of_lt lost)]
    rwa [Int.one_mul] at found
  refine ⟨ofDecimal result money.scale, by rw [add, sum],
    amount_ofDecimal_of_bit reaches coefficient tiny behind,
    Nat.min_eq_left money.scale_le⟩

/-- A unit is lost when it is taken from an amount with fewer digits. -/
theorem subtract_smallestUnit_of_lost
    (lost : money.amount.digits < scale) :
    ∃ same,
      money.subtract (smallestUnit scale) = .ok same ∧
        same.amount = money.amount ∧
        same.scale = money.scale := by
  obtain ⟨result, bit, found, reaches, coefficient, tiny, behind⟩ :=
    Decimal.ofQuotient?_nudged capped (show (-1 : Int).natAbs ≤ 1 by decide) lost
  have difference :
      money.amount.subtract? (smallestUnit scale).amount = some result := by
    rw [Decimal.subtract?, finestUnits_smallestUnit capped, digits_smallestUnit capped,
      Nat.max_eq_right (Nat.le_of_lt lost), Int.sub_eq_add_neg]
    rwa [Int.neg_mul, Int.one_mul] at found
  refine ⟨ofDecimal result money.scale, by rw [subtract, difference],
    amount_ofDecimal_of_bit reaches coefficient tiny behind,
    Nat.min_eq_left money.scale_le⟩

/-- What an amount and a unit come to, counted at the last digit of the amount. -/
def withUnit
    (scale : Nat)
    (money : Money) : Int :=
  money.amount.coefficient + tenTo (money.amount.digits - scale)

variable (reaches : scale ≤ money.amount.digits)

include reaches

/-- The exact sum of an amount and a unit no finer than its last digit. -/
theorem finestUnits_withUnit :
    money.amount.finestUnits + (smallestUnit scale).amount.finestUnits =
      money.withUnit scale * tenTo (28 - money.amount.digits) := by
  have tens :
      tenTo (28 - scale) =
        tenTo (money.amount.digits - scale) * tenTo (28 - money.amount.digits) :=
    tenTo_rest money.amount.digits_le reaches
  rw [finestUnits_smallestUnit capped, withUnit, Int.add_mul, tens, Int.natCast_mul]
  rfl

/-- The sum is a decimal with the digits of the amount, or fewer. -/
theorem add?_smallestUnit :
    money.amount.add? (smallestUnit scale).amount =
      Decimal.ofQuotient?
        (money.withUnit scale * tenTo (28 - money.amount.digits)) (tenTo 28)
        money.amount.digits := by
  rw [Decimal.add?, finestUnits_withUnit capped reaches, digits_smallestUnit capped,
    Nat.max_eq_left reaches]

/-- A unit is added where there is room for it. -/
theorem add_smallestUnit_of_fits
    (fits : (money.withUnit scale).natAbs < twoTo 96) :
    ∃ raised,
      money.add (smallestUnit scale) = .ok raised ∧
        raised.scale = money.scale ∧
        raised.units = money.withUnit scale * tenTo (28 - money.amount.digits) ∧
        scale ≤ raised.amount.digits := by
  have whole : min money.scale maxScale = money.scale :=
    Nat.min_eq_left money.scale_le
  have exactly :
      money.withUnit scale * (tenTo (28 - money.amount.digits) : Nat) *
          (tenTo money.amount.digits : Nat) =
        money.withUnit scale * (tenTo 28 : Nat) := by
    rw [Int.mul_assoc, Decimal.tenTo_digits_rest]
  let sum : Decimal :=
    ⟨money.withUnit scale, money.amount.digits, fits, money.amount.digits_le⟩
  have within : sum.digits ≤ min money.scale maxScale := by
    rw [whole]
    exact money.digits_le
  have added : money.amount.add? (smallestUnit scale).amount = some sum :=
    (add?_smallestUnit capped reaches).trans
      (Decimal.ofQuotient?_exact (tenTo_pos 28) _ exactly fits)
  refine ⟨ofDecimal sum money.scale, by rw [add, added], whole,
    Decimal.finestUnits_atScale .halfEven within, ?_⟩
  refine Nat.le_trans ?_ (Decimal.digits_le_padded _ _)
  change scale ≤ min (min money.scale maxScale) sum.digits
  rw [Nat.min_eq_right within]
  exact reaches

/-- A unit without room for it takes a digit away. -/
theorem add_smallestUnit_of_full
    (full : twoTo 96 ≤ money.withUnit scale)
    (fraction : 0 < money.amount.digits) :
    ∃ raised,
      money.add (smallestUnit scale) = .ok raised ∧
        raised.scale = money.scale ∧
        raised.amount.digits + 1 = money.amount.digits ∧
        raised.units =
          raised.amount.coefficient * 10 * tenTo (28 - money.amount.digits) ∧
        money.withUnit scale ≤ raised.amount.coefficient * 10 + 5 ∧
        raised.amount.coefficient * 10 ≤ money.withUnit scale + 5 := by
  have near : money.withUnit scale < 2 * twoTo 96 := by
    have coefficient_lt := money.amount.coefficient_lt
    have unit_lt : tenTo (money.amount.digits - scale) < twoTo 96 :=
      tenTo_lt_twoTo (Nat.le_trans (Nat.sub_le _ _) money.amount.digits_le)
    rw [withUnit]
    omega
  obtain ⟨result, found, fewer, above, below⟩ :=
    Decimal.ofQuotient?_of_full fraction money.amount.digits_le full near
  -- So full a result is not filled up with the digit that it has lost.
  have filled : twoTo 96 ≤ result.coefficient.natAbs * 10 := by
    rw [twoTo_96] at full ⊢
    omega
  have whole : min money.scale maxScale = money.scale :=
    Nat.min_eq_left money.scale_le
  have amount : (ofDecimal result money.scale).amount = result := by
    change result.atScale .halfEven (min money.scale maxScale) = result
    have digits_le := money.digits_le
    rw [whole, Decimal.atScale, Decimal.rounded_of_digits_le .halfEven (by omega),
      Decimal.padded_of_full filled]
  have rest : tenTo (28 - result.digits) = 10 * tenTo (28 - money.amount.digits) := by
    have tens : tenTo (28 - result.digits) = _ * _ :=
      tenTo_rest money.amount.digits_le (Nat.le_of_lt (Nat.lt_of_succ_le fewer.le))
    rw [← fewer] at tens ⊢
    rw [Nat.add_sub_cancel_left] at tens
    exact tens
  refine ⟨ofDecimal result money.scale, ?_, whole, by rwa [amount], ?_,
    by rwa [amount], by rwa [amount]⟩
  · rw [add, add?_smallestUnit capped reaches, found]
  · rw [units, amount, Decimal.finestUnits, rest, Int.natCast_mul, ← Int.mul_assoc]
    rfl

omit capped reaches in
/-- Below `2 ^ 96` a sum with a unit is in range. -/
theorem natAbs_withUnit_lt
    (less : money.withUnit scale < twoTo 96) :
    (money.withUnit scale).natAbs < twoTo 96 := by
  have coefficient_lt := money.amount.coefficient_lt
  have positive := tenTo_pos (money.amount.digits - scale)
  rw [withUnit] at less ⊢
  omega

/-- A sum with a unit has room for it, or has lost a digit. -/
theorem cases_of_add_smallestUnit
    {raised : Money}
    (added : money.add (smallestUnit scale) = .ok raised) :
    (money.withUnit scale < twoTo 96 ∧
        raised.units = money.withUnit scale * tenTo (28 - money.amount.digits) ∧
        scale ≤ raised.amount.digits) ∨
      (twoTo 96 ≤ money.withUnit scale ∧
        raised.amount.digits + 1 = money.amount.digits ∧
        raised.units =
          raised.amount.coefficient * 10 * tenTo (28 - money.amount.digits) ∧
        money.withUnit scale ≤ raised.amount.coefficient * 10 + 5 ∧
        raised.amount.coefficient * 10 ≤ money.withUnit scale + 5) := by
  rcases Int.lt_or_le (money.withUnit scale) (twoTo 96) with less | full
  · obtain ⟨sum, alsoAdded, -, units, digits⟩ :=
      add_smallestUnit_of_fits capped reaches (natAbs_withUnit_lt less)
    obtain rfl := Except.ok.inj (alsoAdded.symm.trans added)
    exact .inl ⟨less, units, digits⟩
  · have fraction : 0 < money.amount.digits := by
      by_contra whole
      have none : money.amount.digits = 0 := by omega
      have sum := add?_smallestUnit capped reaches
      have chosen := Rounding.halfEven.quotient_mul_self (money.withUnit scale)
        (tenTo_pos 28)
      rw [none, Decimal.ofQuotient?, Nat.sub_zero, chosen, Decimal.make?,
        dif_neg (by omega)] at sum
      rw [add, sum] at added
      cases added
    obtain ⟨sum, alsoAdded, -, sumIs⟩ :=
      add_smallestUnit_of_full capped reaches full fraction
    obtain rfl := Except.ok.inj (alsoAdded.symm.trans added)
    exact .inr ⟨full, sumIs⟩

/-- An amount grows by a unit that is not lost on it. -/
theorem units_lt_of_add_smallestUnit
    {raised : Money}
    (added : money.add (smallestUnit scale) = .ok raised) :
    money.units < raised.units := by
  have lastPositive := tenTo_pos (28 - money.amount.digits)
  have unitPositive := tenTo_pos (money.amount.digits - scale)
  have coefficient_lt := money.amount.coefficient_lt
  change money.amount.coefficient * (tenTo (28 - money.amount.digits) : Nat) < _
  rcases cases_of_add_smallestUnit capped reaches added with
    ⟨-, units, -⟩ | ⟨full, -, units, near, -⟩
  · rw [units, withUnit]
    exact Int.mul_lt_mul_of_pos_right (by omega) (by omega)
  · rw [units]
    refine Int.mul_lt_mul_of_pos_right ?_ (by omega)
    rw [twoTo_96] at *
    omega

/-- A sum with a unit that has fewer digits than the unit is beyond `2 ^ 96` units. -/
theorem le_units_of_add_smallestUnit
    {raised : Money}
    (added : money.add (smallestUnit scale) = .ok raised)
    (lost : raised.amount.digits < scale) :
    (twoTo 96 * tenTo (28 - scale) : Nat) ≤ raised.units := by
  rcases cases_of_add_smallestUnit capped reaches added with
    ⟨-, -, digits⟩ | ⟨full, digits, units, near, -⟩
  · omega
  · have atScale : money.amount.digits = scale := by omega
    rw [units, atScale, Int.natCast_mul]
    refine Int.mul_le_mul_of_nonneg_right ?_ (by omega)
    rw [twoTo_96] at *
    omega

end Unit

/-- A unit with fraction digits can be added to every amount. -/
theorem exists_add_smallestUnit
    (capped : scale ≤ maxScale)
    (fraction : 0 < scale)
    (money : Money) :
    ∃ raised, money.add (smallestUnit scale) = .ok raised := by
  rcases Nat.lt_or_ge money.amount.digits scale with lost | reaches
  · obtain ⟨same, added, -⟩ := add_smallestUnit_of_lost capped lost
    exact ⟨same, added⟩
  · rcases Int.lt_or_le (money.withUnit scale) (twoTo 96) with less | full
    · obtain ⟨raised, added, -⟩ :=
        add_smallestUnit_of_fits capped reaches (natAbs_withUnit_lt less)
      exact ⟨raised, added⟩
    · obtain ⟨raised, added, -⟩ :=
        add_smallestUnit_of_full capped reaches full (by omega)
      exact ⟨raised, added⟩

/-- From `2 ^ 96` units of a scale on, an amount has fewer digits than the scale. -/
theorem digits_lt_of_huge
    (huge : (twoTo 96 * tenTo (28 - scale) : Nat) ≤ money.units) :
    money.amount.digits < scale := by
  by_contra reaches
  have coefficient_lt := money.amount.coefficient_lt
  have positive := tenTo_pos (28 - money.amount.digits)
  have tens : tenTo (28 - money.amount.digits) ≤ tenTo (28 - scale) :=
    tenTo_le_tenTo (by omega)
  have units_le : money.units ≤ (twoTo 96 - 1 : Int) * tenTo (28 - money.amount.digits) :=
    Int.mul_le_mul_of_nonneg_right (by omega) (by omega)
  rw [twoTo_96] at *
  omega

/-- As a whole number of tens of units it is then at least four units more. -/
theorem larger_of_huge
    (capped : scale ≤ maxScale)
    (huge : (twoTo 96 * tenTo (28 - scale) : Nat) ≤ money.units) :
    ((twoTo 96 + 4) * tenTo (28 - scale) : Nat) ≤ money.units := by
  have lost := digits_lt_of_huge huge
  have positive := tenTo_pos (28 - scale)
  have tens :
      tenTo (28 - money.amount.digits) =
        10 * tenTo (scale - money.amount.digits - 1) * tenTo (28 - scale) := by
    have capped28 : scale ≤ 28 := capped
    have ten : 10 = tenTo 1 := rfl
    rw [ten, ← tenTo_add, ← tenTo_add]
    congr 1
    omega
  have inTens :
      money.units =
        10 * (money.amount.coefficient * tenTo (scale - money.amount.digits - 1)) *
          tenTo (28 - scale) := by
    rw [units, Decimal.finestUnits, tens, Int.natCast_mul, Int.natCast_mul,
      ← Int.mul_assoc, Int.mul_left_comm]
    rfl
  rw [inTens, Int.natCast_mul] at huge ⊢
  have atLeast := Int.le_of_mul_le_mul_right huge (by omega)
  refine Int.mul_le_mul_of_nonneg_right ?_ (by omega)
  rw [twoTo_96] at *
  omega

/-- Amounts of `2 ^ 96` units and more have room for a unit on any lesser amount. -/
theorem exists_add_smallestUnit_le
    {capacity : Money}
    (capped : scale ≤ maxScale)
    (huge : (twoTo 96 * tenTo (28 - scale) : Nat) ≤ capacity.units)
    (within : money.units ≤ capacity.units) :
    ∃ raised,
      money.add (smallestUnit scale) = .ok raised ∧
        raised.units ≤ capacity.units := by
  have larger := larger_of_huge capped huge
  have fraction : 0 < scale := Nat.zero_lt_of_lt (digits_lt_of_huge huge)
  obtain ⟨raised, added⟩ := exists_add_smallestUnit capped fraction money
  refine ⟨raised, added, ?_⟩
  rcases Nat.lt_or_ge money.amount.digits scale with lost | reaches
  · obtain ⟨same, alsoAdded, amount, -⟩ := add_smallestUnit_of_lost capped lost
    obtain rfl := Except.ok.inj (alsoAdded.symm.trans added)
    rw [units, amount]
    exact within
  · have lastPositive := tenTo_pos (28 - money.amount.digits)
    have tens :
        tenTo (28 - scale) =
          tenTo (money.amount.digits - scale) * tenTo (28 - money.amount.digits) :=
      tenTo_rest money.amount.digits_le reaches
    have coefficient_lt := money.amount.coefficient_lt
    have unitPositive := tenTo_pos (money.amount.digits - scale)
    rw [Int.natCast_mul, tens, Int.natCast_mul] at larger
    refine Int.le_trans ?_ larger
    rcases cases_of_add_smallestUnit capped reaches added with
      ⟨less, units, -⟩ | ⟨full, -, units, -, near⟩
    · rw [units, ← Int.mul_assoc]
      refine Int.mul_le_mul_of_nonneg_right ?_ (by omega)
      rw [twoTo_96] at *
      omega
    · rw [units, ← Int.mul_assoc]
      refine Int.mul_le_mul_of_nonneg_right ?_ (by omega)
      rw [withUnit] at near
      -- Tens that come to no more than five above `2 ^ 96` come to four above it.
      rcases Nat.eq_zero_or_pos (money.amount.digits - scale) with same | further
      · have one : tenTo 0 = 1 := rfl
        rw [same, one] at near ⊢
        rw [twoTo_96] at *
        omega
      · have tenfold : tenTo 1 ≤ tenTo (money.amount.digits - scale) :=
          tenTo_le_tenTo further
        have ten : tenTo 1 = 10 := rfl
        rw [ten] at tenfold
        rw [twoTo_96] at *
        omega

end Money

end PatronFees
