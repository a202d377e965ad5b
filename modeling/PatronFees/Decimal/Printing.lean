import PatronFees.Decimal.Basic

namespace PatronFees.Decimal

/-!
# Printing decimals

A decimal is written with all its fraction digits, at least one digit before
the point, and a minus sign only when the value is below zero.
-/

/-- The last `width` decimal digits of a number, with leading zeros. -/
def lastDigits : (width : Nat) → (number : Nat) → List Char
  | 0, _ => []
  | width + 1, number =>
      lastDigits width (number / 10) ++ [Nat.digitChar (number % 10)]

def characters (value : Decimal) : List Char :=
  let magnitude := value.coefficient.natAbs
  let whole := Nat.toDigits 10 (magnitude / tenTo value.digits)
  let fraction :=
    if value.digits = 0 then
      []
    else
      '.' :: lastDigits value.digits magnitude
  if value.coefficient < 0 then
    '-' :: whole ++ fraction
  else
    whole ++ fraction

def text (value : Decimal) : String :=
  String.ofList value.characters

end PatronFees.Decimal
