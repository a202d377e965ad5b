import PatronFees.Timestamp.Basic
import PatronFees.Decimal.Printing

namespace PatronFees.Timestamp

/-!
# Printing timestamps

Timestamps are written by RFC 3339 in universal time. Years outside 0 to 9999
take a sign, and a leap second is written as second 60.
-/

/-- How much of the fraction of a second is written. -/
inductive Precision where
  /-- Nothing; the fraction is cut off. -/
  | seconds
  /-- Three, six or nine digits, as few as show all of it, and none for zero. -/
  | asNeeded
  deriving Repr, DecidableEq

/-- Four digits, and a sign outside 0 to 9999. -/
def yearCharacters (year : Int) : List Char :=
  if 0 ≤ year ∧ year ≤ 9999 then
    Decimal.lastDigits 4 year.natAbs
  else
    let digits := Nat.toDigits 10 year.natAbs
    (if year < 0 then '-' else '+') ::
      List.replicate (4 - digits.length) '0' ++ digits

/-- The fraction of a second, with its point. -/
def fractionCharacters
    (precision : Precision)
    (nanoseconds : Nat) :
    List Char :=
  if precision = .seconds ∨ nanoseconds = 0 then
    []
  else if nanoseconds % 1000000 = 0 then
    '.' :: Decimal.lastDigits 3 (nanoseconds / 1000000)
  else if nanoseconds % 1000 = 0 then
    '.' :: Decimal.lastDigits 6 (nanoseconds / 1000)
  else
    '.' :: Decimal.lastDigits 9 nanoseconds

def characters
    (precision : Precision)
    (timestamp : Timestamp) :
    List Char :=
  let date := CivilDate.ofDays (timestamp.seconds / 86400)
  let secondOfDay := (timestamp.seconds % 86400).toNat
  let second := secondOfDay % 60 + timestamp.nanoseconds / 1000000000
  yearCharacters date.year ++
    '-' :: Decimal.lastDigits 2 date.month ++
    '-' :: Decimal.lastDigits 2 date.day ++
    'T' :: Decimal.lastDigits 2 (secondOfDay / 3600) ++
    ':' :: Decimal.lastDigits 2 (secondOfDay / 60 % 60) ++
    ':' :: Decimal.lastDigits 2 second ++
    fractionCharacters precision (timestamp.nanoseconds % 1000000000) ++
    ['Z']

def text
    (precision : Precision)
    (timestamp : Timestamp) :
    String :=
  String.ofList (timestamp.characters precision)

end PatronFees.Timestamp
