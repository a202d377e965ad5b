import PatronFees.Proofs.Decimal.Denoted
import Mathlib.Data.List.TakeWhile

namespace PatronFees

/-!
# What a decimal keeps of the number denoted

The decimal read for a text is less than one of its last places off the number
that the text denotes. It is that number where the plain decimal and its exponent
have at most 28 places and the digits make a number in range.
-/

namespace Rounding

/-- How far a whole number is off a quotient, in parts of the denominator. -/
theorem abs_sub_div_mul
    (whole numerator : Int)
    {denominator : Nat}
    (positive : 0 < denominator) :
    |(whole : ℚ) - numerator / denominator| * denominator =
      (whole * denominator - numerator : Int).natAbs := by
  have denominatorPositive : (0 : ℚ) < denominator := by exact_mod_cast positive
  rw [Nat.cast_natAbs, ← abs_of_pos denominatorPositive, ← abs_mul, sub_mul,
    abs_of_pos denominatorPositive, div_mul_cancel₀ _ denominatorPositive.ne']
  push_cast
  rfl

/-- A quotient rounded to nearest is at most half off the exact one. -/
theorem abs_quotient_sub_le
    {rounding : Rounding}
    (nearest : rounding ≠ .down)
    (numerator : Int)
    {denominator : Nat}
    (positive : 0 < denominator) :
    |(rounding.quotient numerator denominator : ℚ) - numerator / denominator| ≤
      1 / 2 := by
  have denominatorPositive : (0 : ℚ) < denominator := by exact_mod_cast positive
  have within :
      (2 : ℚ) * (rounding.quotient numerator denominator * denominator -
        numerator : Int).natAbs ≤ denominator := by
    exact_mod_cast quotient_within nearest numerator positive
  rw [← abs_sub_div_mul _ _ positive] at within
  rw [← mul_le_mul_iff_of_pos_right denominatorPositive]
  linarith

end Rounding

namespace Decimal

/--
The number as a decimal keeps it.

It is less than one last place off, and either exact or cut at a limit.
-/
structure Keeps
    (value : Decimal)
    (number : ℚ) : Prop where
  near : |value.number - number| < 1 / 10 ^ value.digits
  filled :
    value.number = number ∨ value.digits = 28 ∨
      twoTo 96 ≤ value.coefficient.natAbs * 10

/--
There is room for all places of a text, those of its exponent included, and its
digits make a number in range.
-/
structure IsInFull (characters : List Char) : Prop where
  places : (plainTally (characters.takeWhile (!isExponentMark ·))).places ≤ 28
  fits : (plainTally (characters.takeWhile (!isExponentMark ·))).number < twoTo 96
  shifted :
    (plainTally (characters.takeWhile (!isExponentMark ·))).places -
        exponentNumber (characters.dropWhile (!isExponentMark ·)).tail ≤
      28

section

variable {characters : List Char} {base value : Decimal} {number : ℚ}
  {exponent : Nat}

theorem make?_eq_some
    {coefficient : Int}
    {digits : Nat}
    (made : make? coefficient digits = some value) :
    value.coefficient = coefficient ∧ value.digits = digits := by
  rw [make?] at made
  split at made
  · obtain rfl := Option.some.inj made
    exact ⟨rfl, rfl⟩
  · cases made

theorem natAbs_sign (characters : List Char) :
    (splitSign characters).1.natAbs = 1 := by
  rw [splitSign.eq_def]
  split <;> rfl

/-- A plain decimal is read as its magnitude with its sign. -/
theorem exists_scan?_of_plain?
    (found : plain? characters = some value) :
    ∃ magnitude,
      scan? .start (splitSign characters).2 = some magnitude ∧
        value.coefficient =
          (splitSign characters).1 * magnitude.coefficient ∧
        value.digits = magnitude.digits := by
  obtain ⟨magnitude, scanned, made⟩ := Option.bind_eq_some_iff.mp found
  exact ⟨magnitude, scanned, make?_eq_some made⟩

theorem keeps_plainNumber
    (found : plain? characters = some value) :
    value.Keeps (plainNumber characters) := by
  obtain ⟨magnitude, scanned, coefficient, digits⟩ := exists_scan?_of_plain? found
  obtain ⟨near, filled⟩ := scan?_near scanned
  have unit := natAbs_sign characters
  have signed :
      value.number = (splitSign characters).1 * magnitude.number := by
    rw [number, Magnitude.number, coefficient, digits, mul_div_assoc', Int.cast_mul,
      Int.cast_natCast]
  have absolute : |((splitSign characters).1 : ℚ)| = 1 := by
    rw [← Int.cast_abs, Int.abs_eq_natAbs, unit]
    rfl
  constructor
  · rw [signed, plainNumber, ← mul_sub, abs_mul, absolute, one_mul, digits]
    exact near
  · rw [signed, plainNumber, digits, coefficient, Int.natAbs_mul, unit, one_mul]
    exact filled.imp_left fun same => congrArg _ same

/-- A plain decimal with room for all its digits is what it denotes. -/
theorem number_of_plain?
    (found : plain? characters = some value)
    (places : (plainTally characters).places ≤ 28)
    (fits : (plainTally characters).number < twoTo 96) :
    value.number = plainNumber characters ∧
      value.digits = (plainTally characters).places := by
  obtain ⟨magnitude, scanned, coefficient, digits⟩ := exists_scan?_of_plain? found
  obtain ⟨number, all⟩ := scan?_of_fits scanned places fits
  have numbered : magnitude.coefficient = (plainTally characters).number := number
  have placed : magnitude.digits = (plainTally characters).places := all
  refine ⟨?_, digits.trans placed⟩
  rw [Decimal.number, plainNumber, Tally.value, coefficient, digits, numbered, placed,
    mul_div_assoc', Int.cast_mul, Int.cast_natCast]

/-- Digits alone are tallied as the number that they make. -/
theorem number_foldl_take
    {values : List Nat}
    (read : characters.mapM digit? = some values)
    (tally : Tally) :
    (characters.foldl Tally.take tally).number =
      values.foldl (fun total digit => total * 10 + digit) tally.number := by
  induction characters generalizing values tally with
  | nil =>
      obtain rfl := Option.some.inj read
      rfl
  | cons character rest inductionHypothesis =>
      rw [List.mapM_cons] at read
      obtain ⟨digit, first, read⟩ := Option.bind_eq_some_iff.mp read
      obtain ⟨others, restRead, read⟩ := Option.bind_eq_some_iff.mp read
      obtain rfl := Option.some.inj read
      rw [List.foldl_cons, List.foldl_cons, inductionHypothesis restRead, Tally.take,
        first]

/-- An exponent without its minus is the number of its digits, at most 28. -/
theorem number_of_exponent?
    (found : exponent? characters = some exponent) :
    exponent ≤ 28 ∧
      (characters.foldl Tally.take .start).number = exponent := by
  rw [exponent?.eq_def] at found
  simp only at found
  -- A leading plus adds nothing to the tally.
  split at found
  all_goals
    obtain ⟨-, found⟩ := Option.ite_none_left_eq_some.mp found
    obtain ⟨values, read, found⟩ := Option.bind_eq_some_iff.mp found
    obtain ⟨within, same⟩ := Option.ite_none_right_eq_some.mp found
    obtain rfl := Option.some.inj same
    exact ⟨within, number_foldl_take read .start⟩

/-- A decimal times a power of ten is exact. -/
theorem number_shiftedUp?
    (found : base.shiftedUp? exponent = some value) :
    value.number = base.number * 10 ^ exponent ∧
      value.digits = base.digits - exponent := by
  rw [shiftedUp?] at found
  split at found
  next places =>
    obtain ⟨coefficient, digits⟩ := make?_eq_some found
    have tens : (10 : ℚ) ^ base.digits = 10 ^ value.digits * 10 ^ exponent := by
      rw [digits, ← pow_add, Nat.sub_add_cancel places]
    refine ⟨?_, digits⟩
    rw [Decimal.number, Decimal.number, coefficient, tens]
    field_simp
  next further =>
    obtain ⟨coefficient, digits⟩ := make?_eq_some found
    have tens :
        (10 : ℚ) ^ exponent = 10 ^ (exponent - base.digits) * 10 ^ base.digits := by
      rw [← pow_add, Nat.sub_add_cancel (by omega)]
    refine ⟨?_, by omega⟩
    rw [Decimal.number, Decimal.number, coefficient, digits, tens, Int.cast_mul,
      Int.cast_natCast, cast_tenTo]
    field_simp

/-- A decimal that was cut has no room for further zeros before its point. -/
theorem le_digits_of_shiftedUp?
    (filled : base.digits = 28 ∨ twoTo 96 ≤ base.coefficient.natAbs * 10)
    (within : exponent ≤ 28)
    (found : base.shiftedUp? exponent = some value) :
    exponent ≤ base.digits := by
  by_contra beyond
  have full := filled.resolve_left (by omega)
  rw [shiftedUp?, if_neg beyond] at found
  have room := value.coefficient_lt
  rw [(make?_eq_some found).1, Int.natAbs_mul, Int.natAbs_natCast] at room
  have tens : tenTo 1 ≤ tenTo (exponent - base.digits) :=
    tenTo_le_tenTo (by omega)
  have more := Nat.mul_le_mul_left base.coefficient.natAbs tens
  exact absurd (Nat.le_trans full more) (Nat.not_le.mpr room)

/-- A decimal times a power of ten is less than one last place off. -/
theorem near_shiftedUp?
    (keeps : base.Keeps number)
    (within : exponent ≤ 28)
    (found : base.shiftedUp? exponent = some value) :
    |value.number - number * 10 ^ exponent| < 1 / 10 ^ value.digits := by
  obtain ⟨shifted, digits⟩ := number_shiftedUp? found
  rcases keeps.filled with exactly | filled
  · rw [shifted, exactly, sub_self, abs_zero]
    positivity
  · have places := le_digits_of_shiftedUp? filled within found
    have positive : (0 : ℚ) < 10 ^ exponent := by positivity
    have tenfold :
        (1 : ℚ) / 10 ^ value.digits = 1 / 10 ^ base.digits * 10 ^ exponent := by
      rw [digits, ← Nat.sub_add_cancel places, pow_add, Nat.add_sub_cancel]
      field_simp
    rw [shifted, ← sub_mul, abs_mul, abs_of_pos positive, tenfold]
    exact mul_lt_mul_of_pos_right keeps.near positive

/-- With room for its places, a decimal over a power of ten is exact. -/
theorem number_shiftedDown?
    (room : base.digits + exponent ≤ 28)
    (found : base.shiftedDown? exponent = some value) :
    value.number = base.number / 10 ^ exponent ∧
      value.digits = base.digits + exponent := by
  rw [shiftedDown?, if_neg (Nat.not_lt.mpr room)] at found
  obtain ⟨coefficient, digits⟩ := make?_eq_some found
  refine ⟨?_, digits⟩
  rw [Decimal.number, Decimal.number, coefficient, digits, pow_add, div_div]

/-- A decimal over a power of ten is less than one last place off. -/
theorem near_shiftedDown?
    (near : |base.number - number| < 1 / 10 ^ base.digits)
    (within : exponent ≤ 28)
    (found : base.shiftedDown? exponent = some value) :
    |value.number - number / 10 ^ exponent| < 1 / 10 ^ value.digits := by
  have positive : (0 : ℚ) < 10 ^ exponent := by positivity
  rcases Nat.lt_or_ge 28 (base.digits + exponent) with beyond | room
  · rw [shiftedDown?, if_pos beyond] at found
    obtain ⟨coefficient, digits⟩ := make?_eq_some found
    obtain ⟨further, places⟩ :
        ∃ further, base.digits = (28 - exponent) + (further + 1) :=
      ⟨base.digits - (28 - exponent) - 1, by omega⟩
    have chosen :
        value.coefficient =
          Rounding.halfUp.quotient base.coefficient (tenTo (further + 1)) := by
      rw [coefficient, atScale_of_le_digits .halfUp (by omega)]
      change Rounding.halfUp.quotient base.coefficient
        (tenTo (base.digits - (28 - exponent))) = _
      rw [places, Nat.add_sub_cancel_left]
    have half := Rounding.abs_quotient_sub_le (show Rounding.halfUp ≠ .down by decide)
      base.coefficient (tenTo_pos (further + 1))
    rw [← chosen, cast_tenTo] at half
    have placePositive : (0 : ℚ) < 1 / 10 ^ (28 - exponent) := by positivity
    have rounded :
        |value.coefficient / 10 ^ (28 - exponent) - base.number| ≤
          1 / 2 * (1 / 10 ^ (28 - exponent)) := by
      have shared :
          (value.coefficient : ℚ) / 10 ^ (28 - exponent) - base.number =
            (value.coefficient - base.coefficient / 10 ^ (further + 1)) *
              (1 / 10 ^ (28 - exponent)) := by
        rw [Decimal.number, places, pow_add]
        field_simp
      rw [shared, abs_mul, abs_of_pos placePositive]
      exact mul_le_mul_of_nonneg_right half placePositive.le
    have tenth :
        (1 : ℚ) / 10 ^ base.digits ≤ 1 / 10 * (1 / 10 ^ (28 - exponent)) := by
      have ten : (10 : ℚ) ≤ 10 ^ (further + 1) :=
        le_self_pow₀ (by norm_num) (Nat.succ_ne_zero further)
      rw [places, pow_add, ← one_div_mul_one_div_rev]
      exact mul_le_mul_of_nonneg_right
        (one_div_le_one_div_of_le (by norm_num) ten) placePositive.le
    have together :
        |value.coefficient / 10 ^ (28 - exponent) - number| <
          1 / 10 ^ (28 - exponent) := by
      have triangle :=
        abs_sub_le (value.coefficient / 10 ^ (28 - exponent) : ℚ) base.number number
      linarith
    have tens : (10 : ℚ) ^ 28 = 10 ^ (28 - exponent) * 10 ^ exponent := by
      rw [← pow_add, Nat.sub_add_cancel within]
    rw [Decimal.number, digits, tens, ← div_div, ← div_div, ← sub_div, abs_div,
      abs_of_pos positive]
    exact div_lt_div_of_pos_right together positive
  · obtain ⟨shifted, digits⟩ := number_shiftedDown? room found
    rw [shifted, digits, pow_add, ← div_div, ← sub_div, abs_div,
      abs_of_pos positive]
    exact div_lt_div_of_pos_right near positive

/-- A plain decimal has no exponent. -/
theorem isExponentMark_of_plain?
    (found : plain? characters = some value) :
    ∀ character ∈ characters, isExponentMark character = false := by
  obtain ⟨magnitude, scanned, -, -⟩ := exists_scan?_of_plain? found
  have unsigned := isExponentMark_of_scan? scanned
  rw [splitSign.eq_def] at unsigned
  split at unsigned
  · exact List.forall_mem_cons.mpr ⟨rfl, unsigned⟩
  · exact List.forall_mem_cons.mpr ⟨rfl, unsigned⟩
  · exact unsigned

/-- A plain decimal denotes its own number. -/
theorem denoted_of_plain?
    (found : plain? characters = some value) :
    characters.takeWhile (!isExponentMark ·) = characters ∧
      exponentNumber (characters.dropWhile (!isExponentMark ·)).tail = 0 := by
  have noMark : ∀ character ∈ characters, (!isExponentMark character) = true :=
    fun character member => by rw [isExponentMark_of_plain? found character member]; rfl
  constructor
  · exact List.takeWhile_eq_self_iff.mpr noMark
  · rw [List.dropWhile_eq_nil_iff.mpr noMark]
    rfl

/-- The decimal that is read for a text is less than one last place off its number. -/
theorem read?_near
    (found : read? characters = some value) :
    |value.number - denoted characters| < 1 / 10 ^ value.digits := by
  rw [read?] at found
  split at found
  next plain =>
    obtain rfl := Option.some.inj found
    obtain ⟨all, nothing⟩ := denoted_of_plain? plain
    rw [denoted, all, nothing, zpow_zero, mul_one]
    exact (keeps_plainNumber plain).near
  next =>
    rw [scientific?] at found
    split at found
    next =>
      cases found
    next mark exponentCharacters split =>
      obtain ⟨base, plain, found⟩ := Option.bind_eq_some_iff.mp found
      have keeps := keeps_plainNumber plain
      rw [denoted, split, List.tail_cons]
      split at found
      next rest =>
        obtain ⟨exponent, read, found⟩ := Option.bind_eq_some_iff.mp found
        obtain ⟨within, same⟩ := number_of_exponent? read
        have near := near_shiftedDown? keeps.near within found
        rw [exponentNumber, same, zpow_neg, zpow_natCast]
        exact near
      next noMinus =>
        obtain ⟨exponent, read, found⟩ := Option.bind_eq_some_iff.mp found
        obtain ⟨within, same⟩ := number_of_exponent? read
        have near := near_shiftedUp? keeps within found
        rw [exponentNumber, same, zpow_natCast]
        · exact near
        · exact noMinus

/-- A text with room for all its digits is read as the number that it denotes. -/
theorem number_of_isInFull
    (inFull : IsInFull characters)
    (found : read? characters = some value) :
    value.number = denoted characters := by
  obtain ⟨places, fits, shifted⟩ := inFull
  rw [read?] at found
  split at found
  next plain =>
    obtain rfl := Option.some.inj found
    obtain ⟨all, nothing⟩ := denoted_of_plain? plain
    rw [all] at places fits
    rw [denoted, all, nothing, zpow_zero, mul_one]
    exact (number_of_plain? plain places fits).1
  next =>
    rw [scientific?] at found
    split at found
    next =>
      cases found
    next mark exponentCharacters split =>
      obtain ⟨base, plain, found⟩ := Option.bind_eq_some_iff.mp found
      obtain ⟨same, digits⟩ := number_of_plain? plain places fits
      rw [split, List.tail_cons] at shifted
      rw [denoted, split, List.tail_cons]
      split at found
      next rest =>
        obtain ⟨exponent, read, found⟩ := Option.bind_eq_some_iff.mp found
        have denotes := (number_of_exponent? read).2
        rw [exponentNumber, denotes] at shifted
        rw [exponentNumber, denotes, zpow_neg, zpow_natCast, ← same]
        exact (number_shiftedDown? (by omega) found).1
      next noMinus =>
        obtain ⟨exponent, read, found⟩ := Option.bind_eq_some_iff.mp found
        have denotes := (number_of_exponent? read).2
        rw [exponentNumber, denotes, zpow_natCast, ← same]
        · exact (number_shiftedUp? found).1
        · exact noMinus

end

end Decimal

end PatronFees
