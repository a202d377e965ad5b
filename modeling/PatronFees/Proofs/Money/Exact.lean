import PatronFees.Proofs.Money.Lifted
import Mathlib.Algebra.BigOperators.Ring.List

namespace PatronFees.Money

open List

/-!
# Amounts that were never rounded

An amount keeps the value that it had before it was rounded. Where sums and
differences are exact there is no such value but the amount itself, and their
results depend on nothing but units and scale. So amounts can be added up in
any order in which each partial sum is in range, and sound ones in any order.
-/

/-- The amount has all its digits and is what it was before rounding. -/
structure IsExact (money : Money) : Prop where
  allDigits : money.HasAllDigits
  unrounded : money.unrounded = money.amount

/-- Exact amounts at one scale are the same if their units are. -/
theorem IsExact.ext
    {first second : Money}
    (firstExact : first.IsExact)
    (secondExact : second.IsExact)
    (scale : first.scale = second.scale)
    (units : first.minorUnits = second.minorUnits) :
    first = second := by
  have coefficient : first.amount.coefficient = second.amount.coefficient := by
    rw [coefficient_eq firstExact.allDigits, coefficient_eq secondExact.allDigits,
      units]
  have digits : first.amount.digits = second.amount.digits := by
    rw [firstExact.allDigits, secondExact.allDigits, scale]
  have amount : first.amount = second.amount :=
    Decimal.eq_of_digits coefficient digits
  have unrounded : first.unrounded = second.unrounded := by
    rw [firstExact.unrounded, secondExact.unrounded, amount]
  rcases first with ⟨_, _, _, _, _, _⟩
  rcases second with ⟨_, _, _, _, _, _⟩
  simp only at amount unrounded scale
  simp only [amount, unrounded, scale]

/-- A decimal with all digits of a scale is an exact amount at the scale. -/
theorem isExact_ofDecimal
    {value : Decimal}
    {scale : Nat}
    (capped : scale ≤ maxScale)
    (allDigits : value.digits = scale) :
    (ofDecimal value scale).IsExact := by
  have whole : min scale maxScale = scale := Nat.min_eq_left capped
  have amount : (ofDecimal value scale).amount = value := by
    change value.atScale .halfEven (min scale maxScale) = value
    rw [whole, Decimal.atScale, allDigits, Nat.sub_self]
    exact Decimal.rounded_of_digits_le .halfEven (Nat.le_of_eq allDigits)
  refine ⟨?_, amount.symm⟩
  rw [HasAllDigits, amount, allDigits]
  exact whole.symm

/-- The sum of amounts with all their digits is exact where it fits. -/
theorem isExact_of_add
    {first second sum : Money}
    (same : second.scale = first.scale)
    (firstDigits : first.HasAllDigits)
    (secondDigits : second.HasAllDigits)
    (sumIn : (first.minorUnits + second.minorUnits).natAbs < twoTo 96)
    (added : first.add second = .ok sum) :
    sum.IsExact := by
  have digits : second.amount.digits = first.amount.digits :=
    secondDigits.trans (same.trans firstDigits.symm)
  rw [← coefficient_eq firstDigits, ← coefficient_eq secondDigits] at sumIn
  rw [add, Decimal.add?_of_digits_eq digits sumIn] at added
  obtain rfl := Except.ok.inj added
  exact isExact_ofDecimal first.scale_le firstDigits

/-- The amount is at a scale and has all digits of it. -/
structure IsFullAt
    (scale : Nat)
    (money : Money) : Prop where
  atScale : money.scale = scale
  allDigits : money.HasAllDigits

/-- However many of the amounts are taken, they are below `2 ^ 96` units together. -/
def StayInRange (amounts : List Money) : Prop :=
  ∀ some ∈ amounts.inits, (unitsOf some).natAbs < twoTo 96

instance (amounts : List Money) : Decidable (StayInRange amounts) :=
  inferInstanceAs (Decidable (∀ some ∈ amounts.inits, _))

section Sums

variable {scale : Nat} {amounts others : List Money}

theorem unitsOf_append (first second : List Money) :
    unitsOf (first ++ second) = unitsOf first + unitsOf second := by
  rw [unitsOf, map_append, sum_append]
  rfl

/-- At one scale the value of amounts together is that of their units together. -/
theorem unitsTogether_eq
    (atScale : ∀ money ∈ amounts, money.scale = scale) :
    unitsTogether amounts = unitsOf amounts * tenTo (maxScale - scale) := by
  have each :
      amounts.map (·.units) =
        amounts.map (fun money =>
          money.minorUnits * (tenTo (maxScale - scale) : Int)) :=
    map_congr_left fun money member => by rw [units_eq, atScale money member]
  rw [unitsTogether, each, sum_map_mul_right]
  rfl

/-- Amounts at one scale that stay in range add up at it. -/
theorem StayInRange.addUpAt
    (stay : StayInRange amounts)
    (capped : scale ≤ maxScale)
    (atScale : ∀ money ∈ amounts, money.scale = scale) :
    AddUpAt scale amounts := by
  have whole : min scale maxScale = scale := Nat.min_eq_left capped
  constructor
  · intro money member
    rw [atScale money member, whole]
  · intro some among
    have inside : some ⊆ amounts := ((mem_inits some amounts).mp among).subset
    have together := unitsTogether_eq fun money member =>
      atScale money (inside member)
    rw [← whole] at together
    rw [together, fitsAt_iff]
    exact stay some among

/-- The first amounts of some that stay in range stay in range. -/
theorem StayInRange.of_append
    (stay : StayInRange (amounts ++ others)) :
    StayInRange amounts :=
  fun some among =>
    stay some ((mem_inits _ _).mpr
      (((mem_inits _ _).mp among).trans (prefix_append _ _)))

theorem StayInRange.unitsOf_lt
    (stay : StayInRange amounts) :
    (unitsOf amounts).natAbs < twoTo 96 :=
  stay amounts ((mem_inits _ _).mpr prefix_rfl)

/-- Amounts at one scale sum up to their units while these stay in range. -/
theorem exists_sum
    (stay : StayInRange amounts)
    (capped : scale ≤ maxScale)
    (atScale : ∀ money ∈ amounts, money.scale = scale) :
    ∃ sum,
      Money.sum amounts scale = .ok sum ∧
        sum.scale = scale ∧
        sum.minorUnits = unitsOf amounts := by
  obtain ⟨sum, summed, sumScale, -, units⟩ :=
    (stay.addUpAt capped atScale).sum_eq
  have sameScale : sum.scale = scale := sumScale.trans (Nat.min_eq_left capped)
  refine ⟨sum, summed, sameScale, ?_⟩
  rw [units_eq, sameScale, unitsTogether_eq atScale] at units
  have positive := tenTo_pos (maxScale - scale)
  exact Int.eq_of_mul_eq_mul_right (by omega) units

/-- A sum of one amount or more, all of which stay in range, was never rounded. -/
theorem isExact_of_sum
    {sum : Money}
    (nonempty : amounts ≠ [])
    (stay : StayInRange amounts)
    (capped : scale ≤ maxScale)
    (full : ∀ money ∈ amounts, money.IsFullAt scale)
    (summed : Money.sum amounts scale = .ok sum) :
    sum.IsExact := by
  -- What is never rounded is the last addition, so the last amount is split off.
  obtain ⟨earlier, last, rfl⟩ := (eq_nil_or_concat amounts).resolve_left nonempty
  rw [concat_eq_append] at *
  have lastFull := full last (mem_append_right _ (mem_singleton_self last))
  have earlierStay := stay.of_append
  obtain ⟨before, summedBefore, beforeScale, beforeUnits⟩ :=
    exists_sum earlierStay capped fun money member =>
      (full money (mem_append_left _ member)).atScale
  have together :
      unitsOf (earlier ++ [last]) = before.minorUnits + last.minorUnits := by
    rw [unitsOf_append, ← beforeUnits]
    simp [unitsOf]
  have added : before.add last = .ok sum := by
    have alone : [last].foldlM add before = before.add last := bind_pure _
    rw [Money.sum] at summedBefore
    rwa [Money.sum, foldlM_append, summedBefore, Outcome.ok_bind, alone] at summed
  apply isExact_of_add (lastFull.atScale.trans beforeScale.symm)
    (hasAllDigits_of_lt (beforeUnits ▸ earlierStay.unitsOf_lt))
    lastFull.allDigits _ added
  rw [← together]
  exact stay.unitsOf_lt

/-- Two orders of the same amounts that stay in range have the same sum. -/
theorem sum_eq_of_perm
    (same : amounts ~ others)
    (stay : StayInRange amounts)
    (othersStay : StayInRange others)
    (capped : scale ≤ maxScale)
    (full : ∀ money ∈ amounts, money.IsFullAt scale) :
    Money.sum others scale = Money.sum amounts scale := by
  rcases eq_or_ne amounts [] with rfl | nonempty
  · rw [same.nil_eq]
  · have othersFull : ∀ money ∈ others, money.IsFullAt scale :=
      fun money member => full money (same.mem_iff.mpr member)
    have othersNonempty : others ≠ [] :=
      fun empty => nonempty (empty ▸ same).eq_nil
    obtain ⟨sum, summed, sumScale, units⟩ :=
      exists_sum stay capped fun money member => (full money member).atScale
    obtain ⟨total, totalled, totalScale, totalUnits⟩ :=
      exists_sum othersStay capped fun money member =>
        (othersFull money member).atScale
    have sameUnits : unitsOf others = unitsOf amounts :=
      ((same.map minorUnits).sum_eq).symm
    rw [summed, totalled]
    congr 1
    exact (isExact_of_sum othersNonempty othersStay capped othersFull totalled).ext
      (isExact_of_sum nonempty stay capped full summed)
      (totalScale.trans sumScale.symm)
      (totalUnits.trans (sameUnits.trans units.symm))

/-- Sound amounts stay in range if their total does. -/
theorem AreSound.stayInRange
    (sound : AreSound scale amounts)
    (inRange : unitsOf amounts < twoTo 96) :
    StayInRange amounts := by
  intro some among
  obtain ⟨rest, rfl⟩ := (mem_inits some amounts).mp among
  rw [unitsOf_append] at inRange
  have someNonneg :=
    (sound.of_subset (subset_append_left some rest)).unitsOf_nonneg
  have restNonneg :=
    (sound.of_subset (subset_append_right some rest)).unitsOf_nonneg
  omega

/-- Sound amounts in range add up to the same amount in any order. -/
theorem sum_perm
    (capped : scale ≤ maxScale)
    (sound : AreSound scale amounts)
    (inRange : unitsOf amounts < twoTo 96)
    (same : amounts ~ others) :
    Money.sum amounts scale = Money.sum others scale := by
  have othersSound : AreSound scale others :=
    sound.of_subset fun _ member => same.mem_iff.mpr member
  have units : unitsOf amounts = unitsOf others :=
    (same.map minorUnits).sum_eq
  have full : ∀ money ∈ amounts, money.IsFullAt scale := by
    intro money member
    obtain ⟨atScale, nonneg⟩ := sound money member
    have atMost := sound.minorUnits_le member
    exact ⟨atScale, hasAllDigits_of_lt (by omega)⟩
  exact (sum_eq_of_perm same (sound.stayInRange inRange)
    (othersSound.stayInRange (by omega)) capped full).symm

end Sums

end PatronFees.Money
