import PatronFees.Proofs.Money.MinorUnits
import Mathlib.Algebra.Order.BigOperators.Group.List
import Mathlib.Algebra.Order.Ring.Int

namespace PatronFees

/-!
# Arithmetic in minor units

Sums and differences of amounts at one scale are those of their units, and
sums of amounts that owe nobody anything stay exact while the total is in range.
-/

namespace Money

/-- A value with no more digits than the scale keeps its value at the scale. -/
theorem minorUnits_roundedBy
    (rounding : Rounding)
    {value : Decimal}
    {scale : Nat}
    (room : value.digits ≤ min scale maxScale) :
    (roundedBy rounding value scale).minorUnits =
      value.coefficient * tenTo (min scale maxScale - value.digits) := by
  have capped : min scale maxScale ≤ 28 := Nat.min_le_right _ _
  have sameValue :
      (roundedBy rounding value scale).minorUnits *
          tenTo (maxScale - min scale maxScale) =
        value.coefficient * tenTo (28 - value.digits) :=
    (units_eq (roundedBy rounding value scale)).symm.trans
      (Decimal.finestUnits_atScale rounding room)
  have rest :
      28 - value.digits =
        (min scale maxScale - value.digits) + (maxScale - min scale maxScale) := by
    change 28 - value.digits =
      (min scale maxScale - value.digits) + (28 - min scale maxScale)
    omega
  rw [rest, tenTo_add, Int.natCast_mul, ← Int.mul_assoc] at sameValue
  have positive := tenTo_pos (maxScale - min scale maxScale)
  exact Int.eq_of_mul_eq_mul_right (by omega) sameValue

/-- A decimal with all digits of a scale counts the units at the scale. -/
theorem minorUnits_ofDecimal
    {value : Decimal}
    {scale : Nat}
    (capped : scale ≤ maxScale)
    (allDigits : value.digits = scale) :
    (ofDecimal value scale).minorUnits = value.coefficient := by
  have whole : min scale maxScale = scale := Nat.min_eq_left capped
  rw [ofDecimal, minorUnits_roundedBy, whole, allDigits, Nat.sub_self]
  · simp [tenTo]
  · omega

/-- A value with all digits of a scale and more is rounded at its coefficient. -/
theorem minorUnits_roundedBy_of_further
    (rounding : Rounding)
    {value : Decimal}
    {scale further : Nat}
    (capped : scale ≤ maxScale)
    (digits : value.digits = scale + further) :
    (roundedBy rounding value scale).minorUnits =
      rounding.quotient value.coefficient (tenTo further) := by
  have whole : min scale maxScale = scale := Nat.min_eq_left capped
  have amount :
      (roundedBy rounding value scale).amount = value.rounded rounding scale := by
    change value.atScale rounding (min scale maxScale) = _
    rw [whole, Decimal.atScale_of_le_digits rounding (by omega)]
  have allDigits : (roundedBy rounding value scale).HasAllDigits := by
    rw [HasAllDigits, amount]
    change min scale value.digits = min scale maxScale
    omega
  rw [← coefficient_eq allDigits, amount]
  change rounding.quotient value.coefficient (tenTo (value.digits - scale)) = _
  rw [digits, Nat.add_sub_cancel_left]

theorem minorUnits_zero (scale : Nat) :
    (zero scale).minorUnits = 0 := by
  rw [zero, ofDecimal, minorUnits_roundedBy .halfEven (Nat.zero_le _)]
  exact Int.zero_mul _

theorem scale_zero
    {scale : Nat}
    (capped : scale ≤ maxScale) :
    (zero scale).scale = scale :=
  Nat.min_eq_left capped

theorem minorUnits_smallestUnit
    {scale : Nat}
    (capped : scale ≤ maxScale) :
    (smallestUnit scale).minorUnits = 1 := by
  rw [smallestUnit, ofMinorUnits]
  exact minorUnits_ofDecimal capped (Nat.min_eq_left capped)

theorem scale_smallestUnit
    {scale : Nat}
    (capped : scale ≤ maxScale) :
    (smallestUnit scale).scale = scale :=
  Nat.min_eq_left capped

/-- A sum has the scale of its first amount. -/
theorem scale_of_add
    {first second total : Money}
    (added : first.add second = .ok total) :
    total.scale = first.scale := by
  rw [add] at added
  split at added
  next =>
    obtain rfl := Except.ok.inj added
    exact Nat.min_eq_left first.scale_le
  next =>
    cases added

theorem scale_of_subtract
    {first second difference : Money}
    (subtracted : first.subtract second = .ok difference) :
    difference.scale = first.scale := by
  rw [subtract] at subtracted
  split at subtracted
  next =>
    obtain rfl := Except.ok.inj subtracted
    exact Nat.min_eq_left first.scale_le
  next =>
    cases subtracted

section Pair

variable {first second : Money}

/-- Amounts at one scale add up in units. -/
theorem add_eq
    (same : second.scale = first.scale)
    (firstIn : first.minorUnits.natAbs < twoTo 96)
    (secondIn : second.minorUnits.natAbs < twoTo 96)
    (sumIn : (first.minorUnits + second.minorUnits).natAbs < twoTo 96) :
    ∃ sum,
      first.add second = .ok sum ∧
        sum.scale = first.scale ∧
        sum.minorUnits = first.minorUnits + second.minorUnits := by
  have firstDigits := hasAllDigits_of_lt firstIn
  have secondDigits := hasAllDigits_of_lt secondIn
  have digits : second.amount.digits = first.amount.digits :=
    secondDigits.trans (same.trans firstDigits.symm)
  rw [← coefficient_eq firstDigits, ← coefficient_eq secondDigits] at sumIn ⊢
  rw [add, Decimal.add?_of_digits_eq digits sumIn]
  exact ⟨_, rfl, Nat.min_eq_left first.scale_le,
    minorUnits_ofDecimal first.scale_le firstDigits⟩

/-- Amounts at one scale differ in units. -/
theorem subtract_eq
    (same : second.scale = first.scale)
    (firstIn : first.minorUnits.natAbs < twoTo 96)
    (secondIn : second.minorUnits.natAbs < twoTo 96)
    (differenceIn : (first.minorUnits - second.minorUnits).natAbs < twoTo 96) :
    ∃ difference,
      first.subtract second = .ok difference ∧
        difference.scale = first.scale ∧
        difference.minorUnits = first.minorUnits - second.minorUnits := by
  have firstDigits := hasAllDigits_of_lt firstIn
  have secondDigits := hasAllDigits_of_lt secondIn
  have digits : second.amount.digits = first.amount.digits :=
    secondDigits.trans (same.trans firstDigits.symm)
  rw [← coefficient_eq firstDigits, ← coefficient_eq secondDigits] at differenceIn ⊢
  rw [subtract, Decimal.subtract?_of_digits_eq digits differenceIn]
  exact ⟨_, rfl, Nat.min_eq_left first.scale_le,
    minorUnits_ofDecimal first.scale_le firstDigits⟩

/-- What a subtraction of amounts at one scale came to. -/
theorem subtract_inv
    {difference : Money}
    (same : second.scale = first.scale)
    (firstIn : first.minorUnits.natAbs < twoTo 96)
    (secondIn : second.minorUnits.natAbs < twoTo 96)
    (differenceIn : (first.minorUnits - second.minorUnits).natAbs < twoTo 96)
    (subtracted : first.subtract second = .ok difference) :
    difference.minorUnits = first.minorUnits - second.minorUnits := by
  obtain ⟨result, alsoSubtracted, -, units⟩ :=
    subtract_eq same firstIn secondIn differenceIn
  obtain rfl := Except.ok.inj (alsoSubtracted.symm.trans subtracted)
  exact units

end Pair

/-- What is taken from an amount with all its digits leaves no less than nothing. -/
theorem minorUnits_of_subtract
    {first second difference : Money}
    (allDigits : first.HasAllDigits)
    (nonneg : 0 ≤ second.units)
    (within : second.units ≤ first.units)
    (subtracted : first.subtract second = .ok difference) :
    0 ≤ difference.minorUnits ∧ difference.minorUnits ≤ first.minorUnits := by
  have capped := first.scale_le
  have first_lt := minorUnits_lt allDigits
  have atMost :
      first.amount.finestUnits - second.amount.finestUnits ≤
        first.minorUnits * tenTo (28 - first.scale) := by
    have units := first.units_eq
    change first.amount.finestUnits =
      first.minorUnits * (tenTo (28 - first.scale) : Nat) at units
    change 0 ≤ second.amount.finestUnits at nonneg
    omega
  have atLeast :
      0 ≤ first.amount.finestUnits - second.amount.finestUnits :=
    Int.sub_nonneg.mpr within
  generalize exactly :
    first.amount.finestUnits - second.amount.finestUnits = exact at atMost atLeast
  -- At each finer count of digits the rounded difference is between the same bounds.
  have between :
      ∀ further,
        0 ≤ Rounding.halfEven.quotient (exact * tenTo (first.scale + further))
            (tenTo 28) ∧
          Rounding.halfEven.quotient (exact * tenTo (first.scale + further))
              (tenTo 28) ≤
            first.minorUnits * tenTo further := by
    intro further
    constructor
    · apply Rounding.halfEven.le_quotient (tenTo_pos 28)
      rw [Int.zero_mul]
      exact Int.mul_nonneg atLeast (by omega)
    · apply Rounding.halfEven.quotient_le (tenTo_pos 28)
      have scaled := Int.mul_le_mul_of_nonneg_right atMost
        (show (0 : Int) ≤ tenTo (first.scale + further) by omega)
      have tens :
          tenTo (28 - first.scale) * tenTo (first.scale + further) =
            tenTo further * tenTo 28 := by
        have : first.scale ≤ 28 := capped
        rw [← tenTo_add, ← tenTo_add]
        congr 1
        omega
      rwa [Int.mul_assoc, ← Int.natCast_mul, tens, Int.natCast_mul, ← Int.mul_assoc]
        at scaled
  have unit : ((tenTo 0 : Nat) : Int) = 1 := rfl
  have fits :
      (Rounding.halfEven.quotient (exact * tenTo first.scale) (tenTo 28)).natAbs <
        twoTo 96 := by
    have bounds := between 0
    rw [Nat.add_zero, unit, Int.mul_one] at bounds
    omega
  have reach : first.scale ≤ max first.amount.digits second.amount.digits := by
    rw [← show first.amount.digits = first.scale from allDigits]
    exact Nat.le_max_left _ _
  obtain ⟨result, found, reaches, chosen⟩ :=
    Decimal.ofQuotient?_digits reach
      (Nat.max_le.mpr ⟨first.amount.digits_le, second.amount.digits_le⟩) fits
  obtain ⟨further, digits⟩ := Nat.exists_eq_add_of_le reaches
  rw [subtract, Decimal.subtract?, exactly, found] at subtracted
  obtain rfl := Except.ok.inj subtracted
  rw [ofDecimal, minorUnits_roundedBy_of_further .halfEven capped digits]
  rw [digits] at chosen
  rw [chosen]
  constructor
  · apply Rounding.halfEven.le_quotient (tenTo_pos further)
    rw [Int.zero_mul]
    exact (between further).1
  · exact Rounding.halfEven.quotient_le (tenTo_pos further) (between further).2

/-- The units of amounts together. -/
def unitsOf (amounts : List Money) : Int :=
  (amounts.map minorUnits).sum

/-- Amounts at a scale that are zero or more. -/
def AreSound
    (scale : Nat)
    (amounts : List Money) : Prop :=
  ∀ money ∈ amounts, money.scale = scale ∧ 0 ≤ money.minorUnits

instance (scale : Nat) (amounts : List Money) :
    Decidable (AreSound scale amounts) :=
  inferInstanceAs (Decidable (∀ money ∈ amounts, _))

namespace AreSound

variable {scale : Nat} {amounts : List Money}

theorem of_subset
    {some : List Money}
    (sound : AreSound scale amounts)
    (among : some ⊆ amounts) :
    AreSound scale some :=
  fun money member => sound money (among member)

theorem append
    {others : List Money}
    (sound : AreSound scale amounts)
    (othersSound : AreSound scale others) :
    AreSound scale (amounts ++ others) := by
  intro money member
  rcases List.mem_append.mp member with inFirst | inSecond
  · exact sound money inFirst
  · exact othersSound money inSecond

/-- Sound amounts are zero or more together. -/
theorem unitsOf_nonneg
    (sound : AreSound scale amounts) :
    0 ≤ unitsOf amounts := by
  apply List.sum_nonneg
  intro units member
  obtain ⟨money, among, rfl⟩ := List.mem_map.mp member
  exact (sound money among).2

/-- Each of some sound amounts is at most what they are together. -/
theorem minorUnits_le
    (sound : AreSound scale amounts)
    {money : Money}
    (member : money ∈ amounts) :
    money.minorUnits ≤ unitsOf amounts := by
  apply List.single_le_sum
  · intro units among
    obtain ⟨other, inside, rfl⟩ := List.mem_map.mp among
    exact (sound other inside).2
  · exact List.mem_map_of_mem member

end AreSound

/-- Adding sound amounts one after another is exact while the total is in range. -/
theorem foldlM_add
    {scale : Nat}
    {amounts : List Money}
    (sound : AreSound scale amounts)
    {start : Money}
    (startScale : start.scale = scale)
    (startNonneg : 0 ≤ start.minorUnits)
    (inRange : start.minorUnits + unitsOf amounts < twoTo 96) :
    ∃ sum,
      amounts.foldlM add start = .ok sum ∧
        sum.scale = scale ∧
        sum.minorUnits = start.minorUnits + unitsOf amounts := by
  induction amounts generalizing start with
  | nil =>
      exact ⟨start, rfl, startScale, by simp [unitsOf]⟩
  | cons first rest inductionHypothesis =>
      obtain ⟨firstScale, firstNonneg⟩ := sound first List.mem_cons_self
      have restSound : AreSound scale rest :=
        sound.of_subset (List.subset_cons_self _ _)
      have restNonneg := restSound.unitsOf_nonneg
      have together :
          unitsOf (first :: rest) = first.minorUnits + unitsOf rest := by
        simp [unitsOf]
      rw [together] at inRange ⊢
      obtain ⟨next, added, nextScale, nextUnits⟩ :=
        add_eq (firstScale.trans startScale.symm)
          (by omega) (by omega) (by omega)
      obtain ⟨sum, summed, sumScale, sumUnits⟩ :=
        inductionHypothesis restSound (nextScale.trans startScale)
          (by omega) (by omega)
      refine ⟨sum, ?_, sumScale, by omega⟩
      rw [List.foldlM_cons, added]
      exact summed

/-- The sum of sound amounts is exact while it is in range. -/
theorem sum_eq
    {scale : Nat}
    (capped : scale ≤ maxScale)
    {amounts : List Money}
    (sound : AreSound scale amounts)
    (inRange : unitsOf amounts < twoTo 96) :
    ∃ sum,
      Money.sum amounts scale = .ok sum ∧
        sum.scale = scale ∧
        sum.minorUnits = unitsOf amounts := by
  have start := minorUnits_zero scale
  obtain ⟨sum, summed, sumScale, sumUnits⟩ :=
    foldlM_add sound (scale_zero capped) (by omega) (by omega)
  exact ⟨sum, summed, sumScale, by omega⟩

/-- Amounts are added at the scale of the first one. -/
theorem scale_of_foldlM_add
    {amounts : List Money}
    {start sum : Money}
    (summed : amounts.foldlM add start = .ok sum) :
    sum.scale = start.scale := by
  induction amounts generalizing start with
  | nil =>
      obtain rfl := Except.ok.inj summed
      rfl
  | cons first rest inductionHypothesis =>
      rw [List.foldlM_cons] at summed
      cases added : start.add first with
      | error halt =>
          rw [added] at summed
          cases summed
      | ok next =>
          rw [added] at summed
          exact (inductionHypothesis summed).trans (scale_of_add added)

/-- Only an overflow keeps amounts from adding up. -/
theorem halt_of_foldlM_add
    {amounts : List Money}
    {start : Money}
    {halt : Halt}
    (halted : amounts.foldlM add start = .error halt) :
    halt = .overflow .addition := by
  induction amounts generalizing start with
  | nil =>
      cases halted
  | cons first rest inductionHypothesis =>
      rw [List.foldlM_cons, add] at halted
      split at halted
      next =>
        exact inductionHypothesis halted
      next =>
        exact (Except.error.inj halted).symm

end Money

end PatronFees
