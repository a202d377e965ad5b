import PatronFees.Proofs.Decimal.Text
import PatronFees.Proofs.Money.MinorUnits
import PatronFees.Proofs.Outcome

namespace PatronFees

/-!
# Amounts and their texts

At a scale a value has one amount and one text: an amount fills up the digits of
its scale as far as its coefficient has room, and a zero has no sign. What was
there before the amount was rounded does not show in its text and takes no part
in arithmetic. So a calculation comes to the same if each of its results is
written out and read back before it is used.
-/

namespace Money

variable {first other second another : Money} {amounts others : List Money}

/-- A finer amount that has as many units has a coefficient beyond all bounds. -/
theorem digits_le_of_units
    (scale : first.scale = second.scale)
    (units : first.units = second.units) :
    second.amount.digits ≤ first.amount.digits := by
  by_contra finer
  have short : first.amount.digits ≠ first.scale := by
    have := second.digits_le
    omega
  have full := first.filled.resolve_left short
  have rest :
      28 - first.amount.digits =
        (second.amount.digits - first.amount.digits - 1) + 1 +
          (28 - second.amount.digits) := by
    have := second.amount.digits_le
    omega
  have coefficient :
      first.amount.coefficient *
          tenTo (second.amount.digits - first.amount.digits - 1 + 1) =
        second.amount.coefficient := by
    have positive := tenTo_pos (28 - second.amount.digits)
    apply Int.eq_of_mul_eq_mul_right
      (show (tenTo (28 - second.amount.digits) : Int) ≠ 0 by omega)
    have same : first.amount.finestUnits = second.amount.finestUnits := units
    rwa [Decimal.finestUnits, Decimal.finestUnits, rest, tenTo_add,
      Int.natCast_mul, ← Int.mul_assoc] at same
  have tens := tenTo_pos (second.amount.digits - first.amount.digits - 1)
  have bounded := second.amount.coefficient_lt
  rw [← coefficient, Int.natAbs_mul, Int.natAbs_natCast, tenTo_add,
    Nat.mul_left_comm] at bounded
  have atLeast :=
    Nat.le_mul_of_pos_left (first.amount.coefficient.natAbs * 10) tens
  exact absurd (Nat.lt_of_le_of_lt (Nat.le_trans full atLeast) bounded)
    (Nat.lt_irrefl _)

/-- At one scale there is one amount for a value. -/
theorem amount_eq_of_units
    (scale : first.scale = second.scale)
    (units : first.units = second.units) :
    first.amount = second.amount := by
  have digits : first.amount.digits = second.amount.digits :=
    Nat.le_antisymm (digits_le_of_units scale.symm units.symm)
      (digits_le_of_units scale units)
  refine Decimal.eq_of_digits ?_ digits
  have positive := tenTo_pos (28 - second.amount.digits)
  apply Int.eq_of_mul_eq_mul_right
    (show (tenTo (28 - second.amount.digits) : Int) ≠ 0 by omega)
  have same : first.amount.finestUnits = second.amount.finestUnits := units
  rwa [Decimal.finestUnits, Decimal.finestUnits, digits] at same

/-- Equal amounts at one scale have one text. -/
theorem text_eq_of_equals
    (scale : first.scale = second.scale)
    (equal : first.equals second = true) :
    first.text = second.text := by
  have units : first.units = second.units := by
    simpa only [equals, beq_iff_eq] using equal
  rw [text, text, amount_eq_of_units scale units]

/-- A text begins with a minus sign exactly if the amount is below zero. -/
theorem head?_text_eq_minus_iff (money : Money) :
    money.text.toList.head? = some '-' ↔ money.isNegative = true := by
  have positive := tenTo_pos (money.scale - money.amount.digits)
  have sign : money.minorUnits < 0 ↔ money.amount.coefficient < 0 := by
    have order :
        money.amount.coefficient * tenTo (money.scale - money.amount.digits) <
            0 * (tenTo (money.scale - money.amount.digits) : Int) ↔
          money.amount.coefficient < 0 :=
      Int.mul_lt_mul_right (by omega)
    rwa [Int.zero_mul] at order
  rw [isNegative_iff, sign, text, Decimal.text, String.toList_ofList,
    Decimal.characters]
  split
  next negative =>
    exact iff_of_true rfl negative
  next nonnegative =>
    refine iff_of_false ?_ nonnegative
    cases digits :
        Nat.toDigits 10
          (money.amount.coefficient.natAbs / tenTo money.amount.digits) with
    | nil =>
        exact absurd digits Nat.toDigits_ne_nil
    | cons first others =>
        have isDigit : first.isDigit :=
          Nat.isDigit_of_mem_toDigits (by decide) (by decide)
            (digits ▸ List.mem_cons_self)
        rintro ⟨⟩
        exact absurd isDigit (by decide)

/-- An amount that was written out and read back. -/
def throughText (money : Money) : Outcome Money :=
  .ofChecked (read money.text money.scale)

theorem throughText_eq (money : Money) :
    money.throughText = .ok money.settled := by
  rw [throughText, read_text]
  rfl

/-- An operation on two amounts. -/
inductive Operation where
  | add
  | subtract
  | multiply
  | divide
  | divideDown
  | min

/-- What an operation makes of two amounts. -/
def Operation.apply :
    Operation → (first second : Money) → Outcome Money
  | .add, first, second => first.add second
  | .subtract, first, second => first.subtract second
  | .multiply, first, second => first.multiply second
  | .divide, first, second => first.divide second
  | .divideDown, first, second => first.divideDown second
  | .min, first, second => .ok (Min.min first second)

/-- What amounts were before they were rounded takes no part in an operation. -/
theorem Operation.apply_settled
    (operation : Operation)
    (first second : Money) :
    (operation.apply first.settled second.settled).map settled =
      (operation.apply first second).map settled := by
  cases operation with
  | add | subtract | multiply | divide | divideDown =>
      rfl
  | min =>
      have least (one other : Money) :
          Min.min one other = if one ≤ other then one else other :=
        rfl
      rw [apply, apply, least, least]
      by_cases ordered : first ≤ second
      · have alsoOrdered : first.settled ≤ second.settled := ordered
        rw [if_pos ordered, if_pos alsoOrdered]
        rfl
      · have alsoNot : ¬ first.settled ≤ second.settled := ordered
        rw [if_neg ordered, if_neg alsoNot]
        rfl

end Money

/-- A way to come by an amount. -/
inductive Calculation where
  | read (entered : String) (scale : Nat)
  | ofDecimal (value : Decimal) (scale : Nat)
  | ofMinorUnits (count : Int64) (scale : Nat)
  | ofQuantity (quantity : Quantity) (scale : Nat)
  | apply (operation : Money.Operation) (first second : Calculation)
  | sum (parts : List Calculation) (scale : Nat)

namespace Calculation

mutual

/-- What a calculation comes to if each result is handed on in some way. -/
def valueVia (handOn : Money → Outcome Money) : Calculation → Outcome Money
  | .read entered scale =>
      Outcome.ofChecked (Money.read entered scale) >>= handOn
  | .ofDecimal value scale => handOn (Money.ofDecimal value scale)
  | .ofMinorUnits count scale => handOn (Money.ofMinorUnits count scale)
  | .ofQuantity quantity scale =>
      Outcome.ofChecked (Money.ofQuantity quantity scale) >>= handOn
  | .apply operation first second => do
      let amount ← valueVia handOn first
      let other ← valueVia handOn second
      operation.apply amount other >>= handOn
  | .sum parts scale => do
      let amounts ← valuesVia handOn parts
      Money.sum amounts scale >>= handOn

/-- What some calculations come to, one after another. -/
def valuesVia (handOn : Money → Outcome Money) :
    List Calculation → Outcome (List Money)
  | [] => .ok []
  | first :: rest => do
      let amount ← valueVia handOn first
      let amounts ← valuesVia handOn rest
      return amount :: amounts

end

/-- The amount that a calculation comes to. -/
def value (calculation : Calculation) : Outcome Money :=
  calculation.valueVia .ok

/-- The same, each result written out and read back before it is used. -/
def valueThroughText (calculation : Calculation) : Outcome Money :=
  calculation.valueVia Money.throughText

theorem bind_ok (result : Outcome Money) :
    result >>= .ok = result :=
  bind_pure result

/-- A result that is handed on through its text is settled. -/
theorem bind_throughText (result : Outcome Money) :
    result >>= Money.throughText = result.map Money.settled := by
  cases result with
  | ok money =>
      rw [Outcome.ok_bind, money.throughText_eq]
      rfl
  | error halt =>
      rfl

mutual

/-- Written out and read back at each step, a calculation comes to the same. -/
theorem valueVia_throughText (calculation : Calculation) :
    valueVia Money.throughText calculation =
      (valueVia .ok calculation).map Money.settled := by
  match calculation with
  | .read entered scale =>
      rw [valueVia, valueVia, bind_ok, bind_throughText]
  | .ofDecimal value scale =>
      exact Money.throughText_eq _
  | .ofMinorUnits count scale =>
      exact Money.throughText_eq _
  | .ofQuantity quantity scale =>
      rw [valueVia, valueVia, bind_ok, bind_throughText]
  | .apply operation first second =>
      rw [valueVia, valueVia, valueVia_throughText first,
        valueVia_throughText second]
      cases valueVia .ok first with
      | error halt =>
          rfl
      | ok amount =>
          cases valueVia .ok second with
          | error halt =>
              rfl
          | ok other =>
              change operation.apply amount.settled other.settled >>= _ =
                (operation.apply amount other >>= _).map _
              rw [bind_throughText, bind_ok, operation.apply_settled]
  | .sum parts scale =>
      rw [valueVia, valueVia, valuesVia_throughText parts]
      cases valuesVia .ok parts with
      | error halt =>
          rfl
      | ok amounts =>
          change Money.sum (amounts.map Money.settled) scale >>= _ =
            (Money.sum amounts scale >>= _).map _
          rw [Money.sum_map_settled, bind_throughText, bind_ok]

theorem valuesVia_throughText (calculations : List Calculation) :
    valuesVia Money.throughText calculations =
      (valuesVia .ok calculations).map (List.map Money.settled) := by
  match calculations with
  | [] =>
      rfl
  | first :: rest =>
      rw [valuesVia, valuesVia, valueVia_throughText first,
        valuesVia_throughText rest]
      cases valueVia .ok first with
      | error halt =>
          rfl
      | ok amount =>
          cases valuesVia .ok rest <;> rfl

end

/--
Whatever calculation an amount comes from, its text is read at its scale as an
equal amount with the same text. All amounts equal to it at the scale have that
text, and it has a minus sign exactly if the amount is below zero. Read back, the
amount stands in for itself wherever the calculation goes on.
-/
theorem rendering_is_a_fixed_point
    (calculation : Calculation)
    {money : Money}
    (comes : calculation.value = .ok money) :
    (∃ again,
      Money.read money.text money.scale = .ok again ∧
        again.scale = money.scale ∧
        again.equals money = true ∧
        again.text = money.text) ∧
      (∀ other : Money,
        other.scale = money.scale →
          other.equals money = true → other.text = money.text) ∧
      (money.text.toList.head? = some '-' ↔ money.isNegative = true) ∧
      calculation.valueThroughText = .ok money.settled := by
  have equal : money.settled.equals money = true :=
    beq_self_eq_true money.units
  refine ⟨⟨money.settled, money.read_text, rfl, equal, ?_⟩, ?_,
    money.head?_text_eq_minus_iff, ?_⟩
  · exact Money.text_eq_of_equals rfl equal
  · exact fun other scale => Money.text_eq_of_equals scale
  · rw [value] at comes
    rw [valueThroughText, valueVia_throughText, comes]
    rfl

/-- A debt with less than no cents, as large as leaves no room for any. -/
def beyondCents : Calculation :=
  .apply .subtract (.read " -0.001" 2)
    (.sum [.read "70000000000000000000000000000.5" 2, .ofMinorUnits 399 2] 2)

theorem rendering_is_a_fixed_point_beyondCents :
    ∃ money,
      beyondCents.value = .ok money ∧
        money.text = "-70000000000000000000000000005" ∧
        (∃ again,
          Money.read money.text money.scale = .ok again ∧
            again.scale = money.scale ∧
            again.equals money = true ∧
            again.text = money.text) ∧
        (∀ other : Money,
          other.scale = money.scale →
            other.equals money = true → other.text = money.text) ∧
        (money.text.toList.head? = some '-' ↔ money.isNegative = true) ∧
        beyondCents.valueThroughText = .ok money.settled := by
  have comes :
      beyondCents.value =
        .ok (Money.ofDecimal
          ⟨-70000000000000000000000000005, 0, by decide, by decide⟩ 2) := by
    decide +kernel
  exact ⟨_, comes, by decide +kernel, rendering_is_a_fixed_point beyondCents comes⟩

/-- A product that rounds to zero from below has the text of a zero. -/
example :
    ((Calculation.apply .multiply (.read "-0.01" 2) (.read "0.3" 2)).value.map
      Money.text) = .ok "0.00" := by
  decide +kernel

end Calculation

end PatronFees
