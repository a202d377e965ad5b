import PatronFees.Decimal.Reading
import PatronFees.Decimal.Printing
import PatronFees.Decimal.Shortest
import PatronFees.Failure
import PatronFees.Text.Blank

namespace PatronFees

/-!
# Money

An amount of money is a decimal bound to a scale, the fraction digits of its
currency. Every amount is rounded to its scale when it is made and carries all
digits of the scale, or as many as its coefficient has room for. Amounts are
compared by value; the value before rounding is kept for display alone.
-/

/-- The most fraction digits of a scale, as many as a decimal can have. -/
abbrev Money.maxScale : Nat := 28

/-- An amount of money at a scale. -/
structure Money where
  amount : Decimal
  /-- The value before it was rounded to the scale. -/
  unrounded : Decimal
  scale : Nat
  scale_le : scale ≤ Money.maxScale
  digits_le : amount.digits ≤ scale
  filled : amount.digits = scale ∨ twoTo 96 ≤ amount.coefficient.natAbs * 10
  deriving Repr, DecidableEq

namespace Money

/-- The scale of an amount for which none is given. -/
def defaultScale : Nat := 2

/-- The value as a whole number of `10 ^ -28` parts. -/
def units (money : Money) : Int :=
  money.amount.finestUnits

/-- Amounts are ordered by value. -/
instance : LT Money where
  lt first second := first.units < second.units

instance : LE Money where
  le first second := first.units ≤ second.units

instance (first second : Money) : Decidable (first < second) :=
  inferInstanceAs (Decidable (first.units < second.units))

instance (first second : Money) : Decidable (first ≤ second) :=
  inferInstanceAs (Decidable (first.units ≤ second.units))

/-- The lesser amount; of equal amounts, the first. -/
instance : Min Money where
  min first second := if first ≤ second then first else second

def compare (first second : Money) : Ordering :=
  Ord.compare first.units second.units

def equals (first second : Money) : Bool :=
  first.units == second.units

def isZero (money : Money) : Bool :=
  money.units == 0

def isPositive (money : Money) : Bool :=
  0 < money.units

def isNegative (money : Money) : Bool :=
  money.units < 0

/-- A value rounded to a scale; scales above the greatest count as that one. -/
def roundedBy
    (rounding : Rounding)
    (value : Decimal)
    (scale : Nat) : Money where
  amount := value.atScale rounding (min scale maxScale)
  unrounded := value
  scale := min scale maxScale
  scale_le := Nat.min_le_right _ _
  digits_le := Decimal.digits_atScale_le _ _ _
  filled := Decimal.atScale_filled _ _ (Nat.min_le_right _ _)

/-- A value rounded half to even to a scale. -/
def ofDecimal
    (value : Decimal)
    (scale : Nat) : Money :=
  roundedBy .halfEven value scale

def zero (scale : Nat) : Money :=
  ofDecimal Decimal.zero scale

/-- A count of the scale's smallest unit. -/
def ofMinorUnits
    (count : Int64)
    (scale : Nat) : Money :=
  let coefficient_lt : count.toInt.natAbs < twoTo 96 := by
    have above := count.le_toInt
    have below := count.toInt_lt
    have room : twoTo 63 < twoTo 96 := by decide
    simp only [twoTo, Nat.pow_eq] at room ⊢
    omega
  ofDecimal
    ⟨count.toInt, min scale maxScale, coefficient_lt, Nat.min_le_right _ _⟩
    scale

/-- The smallest unit of a scale. -/
def smallestUnit (scale : Nat) : Money :=
  ofMinorUnits 1 scale

/-- Read an entered amount, blanks around it aside. -/
def read
    (entered : String)
    (scale : Nat) :
    Checked Money :=
  match Decimal.read? (Text.trim entered.toList) with
  | some value => .ok (ofDecimal value scale)
  | none => .error (.invalidAmount entered)

/-- The amount of a floating-point quantity. -/
def ofQuantity
    (quantity : Quantity)
    (scale : Nat) :
    Checked Money :=
  match Decimal.ofQuantity? quantity with
  | some value => .ok (ofDecimal value scale)
  | none => .error (.invalidAmount quantity.text)

/-- The sum, at the scale of the first amount. -/
def add (first second : Money) : Outcome Money :=
  match first.amount.add? second.amount with
  | some value => .ok (ofDecimal value first.scale)
  | none => .error (.overflow .addition)

/-- The difference, at the scale of the first amount. -/
def subtract (first second : Money) : Outcome Money :=
  match first.amount.subtract? second.amount with
  | some value => .ok (ofDecimal value first.scale)
  | none => .error (.overflow .subtraction)

/-- The product, at the scale of the first amount. -/
def multiply (first second : Money) : Outcome Money :=
  match first.amount.multiply? second.amount with
  | some value => .ok (ofDecimal value first.scale)
  | none => .error (.overflow .multiplication)

/-- The quotient, rounded by a rule to the scale of the dividend. -/
def divideBy
    (rounding : Rounding)
    (dividend divisor : Money) :
    Outcome Money :=
  match dividend.amount.divide? divisor.amount with
  | some value => .ok (roundedBy rounding value dividend.scale)
  | none => Outcome.fail .divisionByZero

def divide (dividend divisor : Money) : Outcome Money :=
  divideBy .halfEven dividend divisor

/-- The quotient, rounded toward negative infinity. -/
def divideDown (dividend divisor : Money) : Outcome Money :=
  divideBy .down dividend divisor

/-- The sum of amounts, at a scale. -/
def sum
    (amounts : List Money)
    (scale : Nat) :
    Outcome Money :=
  amounts.foldlM add (zero scale)

/-- The text of an amount, with all its digits. -/
def text (money : Money) : String :=
  money.amount.text

/--
The text of the value before rounding, without trailing zeros.

A whole value keeps one zero behind the point when the scale has a fraction.
-/
def unroundedText (money : Money) : String :=
  let stripped := money.unrounded.stripped
  if stripped.digits = 0 ∧ 0 < money.scale then
    (stripped.padded 1).text
  else
    stripped.text

end Money

end PatronFees
