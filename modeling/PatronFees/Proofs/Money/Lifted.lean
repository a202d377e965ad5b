import PatronFees.Proofs.Money.Arithmetic
import PatronFees.Proofs.Outcome
import Mathlib.Data.List.Infix

namespace PatronFees

/-!
# Amounts of coarser scales

Where an account has a coarser scale than its engine, amounts of both scales meet.
Lifted to the finer scale an amount keeps its value. At the finer scale it can be
added or taken away as if it had been lifted; but what is added to it or taken
from it is rounded to its own scale, where a single unit of the finer one is lost.
-/

namespace Rounding

/-- A remainder of one does not change a quotient by three or more. -/
theorem halfEven_quotient_add_one
    (whole : Int)
    {denominator : Nat}
    (large : 2 < denominator) :
    halfEven.quotient (whole * denominator + 1) denominator = whole := by
  have below : (whole * (denominator : Int) + 1) / denominator = whole := by
    rw [Int.add_comm, Int.add_mul_ediv_right _ _ (by omega),
      Int.ediv_eq_zero_of_lt (by omega) (by omega), Int.zero_add]
  have rest : (whole * (denominator : Int) + 1) % denominator = 1 := by
    rw [Int.add_comm, Int.add_mul_emod_self_right,
      Int.emod_eq_of_lt (by omega) (by omega)]
  simp only [quotient, below, rest]
  rw [if_pos (by omega)]

end Rounding

namespace Decimal

/-- A whole number of units of a scale is the quotient that has them. -/
theorem ofQuotient?_units
    {numerator whole : Int}
    {scale : Nat}
    (capped : scale ≤ 28)
    (units : numerator = whole * tenTo (28 - scale))
    (fits : whole.natAbs < twoTo 96) :
    ofQuotient? numerator (tenTo 28) scale =
      some ⟨whole, scale, fits, capped⟩ := by
  apply ofQuotient?_exact (tenTo_pos 28)
  rw [units, Int.mul_assoc, ← Int.natCast_mul, ← tenTo_add,
    Nat.sub_add_cancel capped]

end Decimal

namespace Money

/-- The amount at a scale; one that is no coarser stays as it is. -/
def lift
    (scale : Nat)
    (money : Money) : Money :=
  if money.scale < scale then
    ofDecimal money.amount scale
  else
    money

/-- The amount is a whole number of the smallest units of a scale. -/
def IsWholeAt
    (scale : Nat)
    (money : Money) : Prop :=
  (tenTo (maxScale - scale) : Int) ∣ money.units

/-- The amount is no finer than a scale and below `2 ^ 96` of its units. -/
structure IsHeldAt
    (scale : Nat)
    (money : Money) : Prop where
  coarser : money.scale ≤ scale
  inRange : (money.lift scale).minorUnits.natAbs < twoTo 96

variable {scale : Nat} {money first second : Money}

theorem lift_of_scale_eq
    (same : money.scale = scale) :
    money.lift scale = money :=
  if_neg (by omega)

theorem scale_lift
    (capped : scale ≤ maxScale)
    (coarser : money.scale ≤ scale) :
    (money.lift scale).scale = scale := by
  rw [lift]
  split
  next =>
    exact Nat.min_eq_left capped
  next notCoarser =>
    omega

/-- Lifting an amount keeps its value. -/
theorem units_lift
    (capped : scale ≤ maxScale)
    (money : Money) :
    (money.lift scale).units = money.units := by
  rw [lift]
  split
  next coarser =>
    have digits := money.digits_le
    apply Decimal.finestUnits_atScale .halfEven
    omega
  next =>
    rfl

theorem minorUnits_lift
    (capped : scale ≤ maxScale)
    (coarser : money.scale ≤ scale) :
    (money.lift scale).minorUnits =
      money.minorUnits * tenTo (scale - money.scale) := by
  have same := units_lift capped money
  rw [units_eq, units_eq, scale_lift capped coarser, tenTo_rest capped coarser,
    Int.natCast_mul, ← Int.mul_assoc] at same
  have positive := tenTo_pos (maxScale - scale)
  exact Int.eq_of_mul_eq_mul_right (by omega) same

/-- An amount is as many units of a finer scale as the lifted one. -/
theorem units_eq_lift
    (capped : scale ≤ maxScale)
    (coarser : money.scale ≤ scale) :
    money.units = (money.lift scale).minorUnits * tenTo (maxScale - scale) := by
  rw [← units_lift capped money, units_eq, scale_lift capped coarser]

/-- So are several amounts together. -/
theorem sum_units_lift
    {amounts : List Money}
    (capped : scale ≤ maxScale)
    (coarser : ∀ money ∈ amounts, money.scale ≤ scale) :
    (amounts.map (·.units)).sum =
      unitsOf (amounts.map (lift scale)) * tenTo (maxScale - scale) := by
  induction amounts with
  | nil =>
      exact (Int.zero_mul _).symm
  | cons first rest inductionHypothesis =>
      have others := inductionHypothesis
        fun other member => coarser other (List.mem_cons_of_mem _ member)
      rw [unitsOf] at others
      rw [unitsOf, List.map_cons, List.sum_cons, others,
        units_eq_lift capped (coarser first List.mem_cons_self), List.map_cons,
        List.map_cons, List.sum_cons, Int.add_mul]

/-- An amount is whole at its own scale. -/
theorem isWholeAt_scale (money : Money) :
    money.IsWholeAt money.scale :=
  ⟨money.minorUnits, by rw [units_eq, Int.mul_comm]⟩

/-- Nothing is left of an amount that is taken away whole. -/
theorem subtract_self
    (allDigits : money.HasAllDigits) :
    ∃ nothing, money.subtract money = .ok nothing ∧ nothing.units = 0 := by
  have inRange := minorUnits_lt allDigits
  obtain ⟨nothing, subtracted, -, none⟩ :=
    subtract_eq rfl inRange inRange (by rw [Int.sub_self]; exact twoTo_pos 96)
  refine ⟨nothing, subtracted, ?_⟩
  rw [units_eq, none, Int.sub_self, Int.zero_mul]

/-- An amount that is held at a finer scale has all digits of its own. -/
theorem IsHeldAt.hasAllDigits
    (held : money.IsHeldAt scale)
    (capped : scale ≤ maxScale) :
    money.HasAllDigits := by
  have inRange := held.inRange
  apply hasAllDigits_of_lt
  rw [minorUnits_lift capped held.coarser, Int.natAbs_mul,
    Int.natAbs_natCast] at inRange
  have positive := tenTo_pos (scale - money.scale)
  exact Nat.lt_of_le_of_lt (Nat.le_mul_of_pos_right _ positive) inRange

/-- To an amount with all its digits, another one is what it is when lifted. -/
theorem operand_lift
    (firstScale : first.scale = scale)
    (firstDigits : first.HasAllDigits)
    (held : second.IsHeldAt scale) :
    second.amount.finestUnits = (second.lift scale).amount.finestUnits ∧
      max first.amount.digits second.amount.digits =
        max first.amount.digits (second.lift scale).amount.digits := by
  have capped : scale ≤ maxScale := firstScale ▸ first.scale_le
  have ownDigits := second.digits_le
  have liftedDigits : (second.lift scale).amount.digits = scale :=
    (hasAllDigits_of_lt held.inRange).trans (scale_lift capped held.coarser)
  have coarser := held.coarser
  have digits : first.amount.digits = scale := firstDigits.trans firstScale
  exact ⟨(units_lift capped second).symm, by omega⟩

theorem add_lift
    (firstScale : first.scale = scale)
    (firstDigits : first.HasAllDigits)
    (held : second.IsHeldAt scale) :
    first.add second = first.add (second.lift scale) := by
  obtain ⟨units, digits⟩ := operand_lift firstScale firstDigits held
  rw [add, add, Decimal.add?, Decimal.add?, units, digits]

theorem subtract_lift
    (firstScale : first.scale = scale)
    (firstDigits : first.HasAllDigits)
    (held : second.IsHeldAt scale) :
    first.subtract second = first.subtract (second.lift scale) := by
  obtain ⟨units, digits⟩ := operand_lift firstScale firstDigits held
  rw [subtract, subtract, Decimal.subtract?, Decimal.subtract?, units, digits]

/-- Lifted amounts add up to the same, from an amount at the scale on. -/
theorem foldlM_add_lift
    {amounts : List Money}
    {start : Money}
    (startScale : start.scale = scale)
    (startNonneg : 0 ≤ start.minorUnits)
    (coarser : ∀ money ∈ amounts, money.scale ≤ scale)
    (sound : AreSound scale (amounts.map (lift scale)))
    (inRange :
      start.minorUnits + unitsOf (amounts.map (lift scale)) < twoTo 96) :
    amounts.foldlM add start = (amounts.map (lift scale)).foldlM add start := by
  induction amounts generalizing start with
  | nil =>
      rfl
  | cons first rest inductionHypothesis =>
      rw [List.map_cons] at sound inRange
      obtain ⟨firstScale, firstNonneg⟩ := sound _ List.mem_cons_self
      have restSound : AreSound scale (rest.map (lift scale)) :=
        sound.of_subset (List.subset_cons_self _ _)
      have restNonneg := restSound.unitsOf_nonneg
      have together :
          unitsOf (first.lift scale :: rest.map (lift scale)) =
            (first.lift scale).minorUnits + unitsOf (rest.map (lift scale)) := by
        simp [unitsOf]
      rw [together] at inRange
      have held : first.IsHeldAt scale :=
        ⟨coarser first List.mem_cons_self, by omega⟩
      obtain ⟨next, added, nextScale, nextUnits⟩ :=
        add_eq (firstScale.trans startScale.symm) (by omega) (by omega)
          (by omega)
      rw [List.map_cons, List.foldlM_cons, List.foldlM_cons,
        add_lift startScale (hasAllDigits_of_lt (by omega)) held, added,
        Outcome.ok_bind, Outcome.ok_bind]
      exact inductionHypothesis (nextScale.trans startScale) (by omega)
        (fun other member => coarser other (List.mem_cons_of_mem _ member))
        restSound (by omega)

/-- Amounts of coarser scales add up to what they are together when lifted. -/
theorem sum_lift_eq
    {amounts : List Money}
    (capped : scale ≤ maxScale)
    (coarser : ∀ money ∈ amounts, money.scale ≤ scale)
    (sound : AreSound scale (amounts.map (lift scale)))
    (inRange : unitsOf (amounts.map (lift scale)) < twoTo 96) :
    ∃ sum,
      Money.sum amounts scale = .ok sum ∧
        sum.scale = scale ∧
        sum.minorUnits = unitsOf (amounts.map (lift scale)) := by
  have nothing := minorUnits_zero scale
  have same :
      Money.sum amounts scale = Money.sum (amounts.map (lift scale)) scale :=
    foldlM_add_lift (scale_zero capped) (by omega) coarser sound (by omega)
  rw [same]
  exact sum_eq capped sound inRange

/-- Units of a scale are rounded to those of a coarser one. -/
theorem minorUnits_ofUnits
    {coarse : Nat}
    {whole : Int}
    (capped : scale ≤ maxScale)
    (coarser : coarse ≤ scale)
    (fits : whole.natAbs < twoTo 96) :
    (ofDecimal ⟨whole, scale, fits, capped⟩ coarse).scale = coarse ∧
      (ofDecimal ⟨whole, scale, fits, capped⟩ coarse).minorUnits =
        Rounding.halfEven.quotient whole (tenTo (scale - coarse)) := by
  have coarseCapped : coarse ≤ maxScale := Nat.le_trans coarser capped
  exact ⟨Nat.min_eq_left coarseCapped,
    minorUnits_roundedBy_of_further .halfEven coarseCapped
      (Nat.add_sub_of_le coarser).symm⟩

section Coarser

variable
  (held : first.IsHeldAt scale)
  (secondScale : second.scale = scale)
  (secondDigits : second.HasAllDigits)

include held secondScale

/-- An amount and another one at a finer scale are whole numbers of its units. -/
theorem finestUnits_operands :
    first.amount.finestUnits =
        (first.lift scale).minorUnits * tenTo (28 - scale) ∧
      second.amount.finestUnits = second.minorUnits * tenTo (28 - scale) := by
  have capped : scale ≤ maxScale := secondScale ▸ second.scale_le
  have firstUnits := units_eq (first.lift scale)
  have secondUnits := units_eq second
  rw [units_lift capped, scale_lift capped held.coarser] at firstUnits
  rw [secondScale] at secondUnits
  exact ⟨firstUnits, secondUnits⟩

include secondDigits

/-- Of two amounts the finer one has the most digits. -/
theorem max_digits_operands :
    max first.amount.digits second.amount.digits = scale := by
  have capped : scale ≤ maxScale := secondScale ▸ second.scale_le
  have firstDigits : first.amount.digits = first.scale :=
    held.hasAllDigits capped
  have coarser := held.coarser
  rw [firstDigits, secondDigits, secondScale]
  omega

/-- What is added at the scale to an amount of a coarser one is rounded to that. -/
theorem add_to_coarser
    (fits :
      ((first.lift scale).minorUnits + second.minorUnits).natAbs < twoTo 96) :
    ∃ sum,
      first.add second = .ok sum ∧
        sum.scale = first.scale ∧
        sum.minorUnits =
          Rounding.halfEven.quotient
            ((first.lift scale).minorUnits + second.minorUnits)
            (tenTo (scale - first.scale)) := by
  have capped : scale ≤ maxScale := secondScale ▸ second.scale_le
  obtain ⟨firstUnits, secondUnits⟩ := finestUnits_operands held secondScale
  refine ⟨_, ?_, minorUnits_ofUnits capped held.coarser fits⟩
  rw [add, Decimal.add?, max_digits_operands held secondScale secondDigits,
    firstUnits, secondUnits, ← Int.add_mul,
    Decimal.ofQuotient?_units capped rfl fits]

/-- What is taken at the scale from an amount of a coarser one is rounded to that. -/
theorem subtract_from_coarser
    (fits :
      ((first.lift scale).minorUnits - second.minorUnits).natAbs < twoTo 96) :
    ∃ difference,
      first.subtract second = .ok difference ∧
        difference.scale = first.scale ∧
        difference.minorUnits =
          Rounding.halfEven.quotient
            ((first.lift scale).minorUnits - second.minorUnits)
            (tenTo (scale - first.scale)) := by
  have capped : scale ≤ maxScale := secondScale ▸ second.scale_le
  obtain ⟨firstUnits, secondUnits⟩ := finestUnits_operands held secondScale
  refine ⟨_, ?_, minorUnits_ofUnits capped held.coarser fits⟩
  rw [subtract, Decimal.subtract?,
    max_digits_operands held secondScale secondDigits, firstUnits, secondUnits,
    ← Int.sub_mul, Decimal.ofQuotient?_units capped rfl fits]

end Coarser

/--
What is left of an amount and what was taken away make up the amount exactly if
a whole number of its own units was taken away.
-/
theorem subtract_exact_iff
    {difference : Money}
    (held : first.IsHeldAt scale)
    (secondScale : second.scale = scale)
    (differenceScale : difference.scale = first.scale)
    (rounded :
      difference.minorUnits =
        Rounding.halfEven.quotient
          ((first.lift scale).minorUnits - second.minorUnits)
          (tenTo (scale - first.scale))) :
    difference.units + second.units = first.units ↔
      second.IsWholeAt first.scale := by
  have capped : scale ≤ maxScale := secondScale ▸ second.scale_le
  have coarsePositive := tenTo_pos (scale - first.scale)
  have finePositive := tenTo_pos (maxScale - scale)
  rw [minorUnits_lift capped held.coarser] at rounded
  rw [IsWholeAt, units_eq difference, units_eq first, units_eq second,
    differenceScale, secondScale, tenTo_rest capped held.coarser,
    Int.natCast_mul]
  generalize tenTo (scale - first.scale) = coarse at rounded coarsePositive ⊢
  generalize tenTo (maxScale - scale) = fine at finePositive ⊢
  constructor
  · intro together
    refine ⟨first.minorUnits - difference.minorUnits, ?_⟩
    rw [Int.mul_comm (coarse * fine), Int.sub_mul, ← together]
    omega
  · rintro ⟨count, whole⟩
    have taken : second.minorUnits = count * coarse := by
      apply Int.eq_of_mul_eq_mul_right (show (fine : Int) ≠ 0 by omega)
      rw [whole, Int.mul_comm, Int.mul_assoc]
    rw [taken, ← Int.sub_mul,
      Rounding.quotient_mul_self _ _ coarsePositive] at rounded
    rw [rounded, taken, Int.sub_mul, Int.mul_assoc count]
    omega

/-- A unit is added to an amount at the scale, and lost to a coarser one. -/
theorem add_smallestUnit
    (capped : scale ≤ maxScale)
    (held : money.IsHeldAt scale)
    (fits : ((money.lift scale).minorUnits + 1).natAbs < twoTo 96) :
    ∃ raised,
      money.add (smallestUnit scale) = .ok raised ∧
        raised.scale = money.scale ∧
        (raised.lift scale).minorUnits =
          (money.lift scale).minorUnits +
            if money.scale < scale then 0 else 1 := by
  have unitUnits := minorUnits_smallestUnit capped
  have one : (1 : Int).natAbs < twoTo 96 := by decide
  have unitDigits : (smallestUnit scale).HasAllDigits :=
    hasAllDigits_of_lt (by rw [unitUnits]; exact one)
  obtain ⟨raised, added, raisedScale, raisedUnits⟩ :=
    add_to_coarser held (scale_smallestUnit capped) unitDigits
      (by rw [unitUnits]; exact fits)
  have coarser := held.coarser
  refine ⟨raised, added, raisedScale, ?_⟩
  rw [unitUnits, minorUnits_lift capped coarser] at raisedUnits
  rw [minorUnits_lift capped (raisedScale.trans_le coarser), raisedScale,
    raisedUnits, minorUnits_lift capped coarser]
  split
  next finer =>
    have tenfold : tenTo 1 ≤ tenTo (scale - money.scale) :=
      tenTo_le_tenTo (by omega)
    have ten : tenTo 1 = 10 := rfl
    rw [Rounding.halfEven_quotient_add_one _ (by omega), Int.add_zero]
  next notFiner =>
    have nothing : scale - money.scale = 0 := by omega
    have unit : tenTo 0 = 1 := rfl
    have whole :=
      Rounding.halfEven.quotient_mul_self (money.minorUnits + 1)
        (show 0 < 1 by decide)
    rw [nothing, unit]
    simpa using whole

section Sums

variable {scale : Nat} {amounts : List Money} {first second : Money}

/-- The value of amounts together, whatever their scales, in finest units. -/
def unitsTogether (amounts : List Money) : Int :=
  (amounts.map (·.units)).sum

/-- A value is below `2 ^ 96` units of a scale. -/
def FitsAt
    (scale : Nat)
    (units : Int) : Prop :=
  units.natAbs < twoTo 96 * tenTo (maxScale - min scale maxScale)

/-- A count of units fits at their scale below `2 ^ 96`. -/
theorem fitsAt_iff (count : Int) :
    FitsAt scale (count * tenTo (maxScale - min scale maxScale)) ↔
      count.natAbs < twoTo 96 := by
  have positive := tenTo_pos (maxScale - min scale maxScale)
  rw [FitsAt, Int.natAbs_mul, Int.natAbs_natCast]
  exact Nat.mul_lt_mul_right positive

/-- An amount has all digits of its scale if its value fits there. -/
theorem hasAllDigits_of_fitsAt
    {money : Money}
    (atScale : money.scale = min scale maxScale)
    (fits : FitsAt scale money.units) :
    money.HasAllDigits := by
  rw [units_eq, atScale, fitsAt_iff] at fits
  exact hasAllDigits_of_lt fits

/-- Adding an amount that is no finer is exact where the sum fits. -/
theorem add_eq_of_coarser
    (firstScale : first.scale = min scale maxScale)
    (firstDigits : first.HasAllDigits)
    (coarser : second.scale ≤ min scale maxScale)
    (fits : FitsAt scale (first.units + second.units)) :
    ∃ sum,
      first.add second = .ok sum ∧
        sum.scale = min scale maxScale ∧
        sum.units = first.units + second.units := by
  have capped := first.scale_le
  have whole :
      first.units + second.units =
        (first.minorUnits + second.minorUnits * tenTo (first.scale - second.scale)) *
          tenTo (maxScale - first.scale) := by
    rw [← firstScale] at coarser
    rw [units_eq, units_eq second, tenTo_rest capped coarser, Int.natCast_mul,
      Int.add_mul, Int.mul_assoc]
  have digits : max first.amount.digits second.amount.digits = first.scale := by
    have allDigits : first.amount.digits = first.scale := firstDigits
    have fewer := second.digits_le
    omega
  generalize
    first.minorUnits + second.minorUnits * tenTo (first.scale - second.scale) =
      sumUnits at whole
  have inRange : sumUnits.natAbs < twoTo 96 := by
    rwa [whole, firstScale, fitsAt_iff] at fits
  let value : Decimal := ⟨sumUnits, first.scale, inRange, capped⟩
  have added : first.add second = .ok (ofDecimal value first.scale) := by
    have exactly :
        Decimal.ofQuotient? (first.amount.finestUnits + second.amount.finestUnits)
            (tenTo 28) first.scale = some value :=
      Decimal.ofQuotient?_units capped whole inRange
    rw [add, Decimal.add?, digits, exactly]
  have sumScale : (ofDecimal value first.scale).scale = first.scale :=
    Nat.min_eq_left capped
  have counted : (ofDecimal value first.scale).minorUnits = sumUnits :=
    minorUnits_ofDecimal capped rfl
  refine ⟨_, added, sumScale.trans firstScale, ?_⟩
  rw [units_eq, counted, sumScale, whole]

/--
Amounts add up at a scale: none of them is finer, and however many have been added,
their sum is in range.
-/
structure AddUpAt
    (scale : Nat)
    (amounts : List Money) : Prop where
  coarser : ∀ money ∈ amounts, money.scale ≤ min scale maxScale
  fits : ∀ some ∈ amounts.inits, FitsAt scale (unitsTogether some)

/-- Amounts that are no finer than a scale add up exactly while their sums fit. -/
theorem foldlM_add_of_addUp
    {start : Money}
    (startScale : start.scale = min scale maxScale)
    (coarser : ∀ money ∈ amounts, money.scale ≤ min scale maxScale)
    (fits :
      ∀ some ∈ amounts.inits, FitsAt scale (start.units + unitsTogether some)) :
    ∃ sum,
      amounts.foldlM add start = .ok sum ∧
        sum.scale = min scale maxScale ∧
        sum.units = start.units + unitsTogether amounts := by
  induction amounts generalizing start with
  | nil =>
      exact ⟨start, rfl, startScale, (Int.add_zero _).symm⟩
  | cons first rest inductionHypothesis =>
      have startFits := fits [] (by simp)
      have firstFits := fits [first] (by simp)
      simp only [unitsTogether, List.map_nil, List.map_cons, List.sum_nil,
        List.sum_cons, Int.add_zero] at startFits firstFits
      obtain ⟨next, added, nextScale, nextUnits⟩ :=
        add_eq_of_coarser startScale (hasAllDigits_of_fitsAt startScale startFits)
          (coarser first List.mem_cons_self) firstFits
      obtain ⟨sum, summed, sumScale, sumUnits⟩ :=
        inductionHypothesis nextScale
          (fun money member => coarser money (List.mem_cons_of_mem _ member))
          (by
            intro some among
            have together := fits (first :: some) (by simpa using among)
            rw [nextUnits, Int.add_assoc]
            exact together)
      refine ⟨sum, ?_, sumScale, ?_⟩
      · rw [List.foldlM_cons, added]
        exact summed
      · rw [sumUnits, nextUnits, Int.add_assoc]
        rfl

/-- The sum of amounts that add up at a scale is exact. -/
theorem AddUpAt.sum_eq
    (addUp : AddUpAt scale amounts) :
    ∃ sum,
      Money.sum amounts scale = .ok sum ∧
        sum.scale = min scale maxScale ∧
        sum.HasAllDigits ∧
        sum.units = unitsTogether amounts := by
  have nothing : (zero scale).units = 0 := by
    rw [units_eq, minorUnits_zero, Int.zero_mul]
  have fits :
      ∀ some ∈ amounts.inits,
        FitsAt scale ((zero scale).units + unitsTogether some) := by
    intro some among
    rw [nothing, Int.zero_add]
    exact addUp.fits some among
  obtain ⟨sum, summed, sumScale, sumUnits⟩ :=
    foldlM_add_of_addUp rfl addUp.coarser fits
  rw [nothing, Int.zero_add] at sumUnits
  have sumFits := addUp.fits amounts ((List.mem_inits _ _).mpr List.prefix_rfl)
  exact ⟨sum, summed, sumScale,
    hasAllDigits_of_fitsAt sumScale (sumUnits ▸ sumFits), sumUnits⟩

end Sums

end Money

end PatronFees
