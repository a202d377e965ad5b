namespace PatronFees.Text

/-!
# Hexadecimal digits

Digits above nine are letters of either case.
-/

/-- The value of a hexadecimal digit. -/
def hexValue? (character : Char) : Option Nat :=
  if character.isDigit then
    some (character.toNat - '0'.toNat)
  else if 'a' ≤ character ∧ character ≤ 'f' then
    some (character.toNat - 'a'.toNat + 10)
  else if 'A' ≤ character ∧ character ≤ 'F' then
    some (character.toNat - 'A'.toNat + 10)
  else
    none

/-- The number that hexadecimal digits denote; no digits denote zero. -/
def hexNumber? (digits : List Char) : Option Nat :=
  (digits.mapM hexValue?).map
    (List.foldl (fun total value => total * 16 + value) 0)

end PatronFees.Text
