import PatronFees.Decimal.Basic

namespace PatronFees.Decimal

/-!
# Reading decimals

A plain decimal has an optional sign, ASCII digits, at most one point and, from
the first digit on, underscores anywhere. Its fraction is cut where a further
digit would be the 29th or would outgrow the coefficient, and the digit at the
cut rounds half up. A scientific decimal is a plain one followed by an exponent
of at most 28.
-/

/-- The value of an ASCII digit. -/
def digit? (character : Char) : Option Nat :=
  if character.isDigit then some (character.toNat - '0'.toNat) else none

/-- A magnitude: a coefficient and its count of fraction digits. -/
structure Magnitude where
  coefficient : Nat
  digits : Nat
  deriving Repr, DecidableEq

/-- The part of a plain decimal that has been read. -/
structure Scanned where
  coefficient : Nat
  digits : Nat
  begun : Bool
  pastPoint : Bool
  deriving Repr, DecidableEq

namespace Scanned

def start : Scanned :=
  ⟨0, 0, false, false⟩

/-- The magnitude read, if there was a digit at all. -/
def finish? (scanned : Scanned) : Option Magnitude :=
  if scanned.begun then
    some ⟨scanned.coefficient, scanned.digits⟩
  else
    none

/-- All 28 fraction digits have been read. -/
def full (scanned : Scanned) : Bool :=
  scanned.pastPoint && scanned.digits == 28

/-- One more digit, if the coefficient has room for it. -/
def push?
    (scanned : Scanned)
    (digit : Nat) :
    Option Scanned :=
  let coefficient := scanned.coefficient * 10 + digit
  if coefficient < twoTo 96 then
    some {
      coefficient := coefficient
      digits := if scanned.pastPoint then scanned.digits + 1 else 0
      begun := true
      pastPoint := scanned.pastPoint
    }
  else
    none

/--
Before its last digit the coefficient had outgrown 64 bits, short of one
decimal place.

From there on an underscore behind the last fraction digit is passed over;
before, it stands for a zero at the cut.
-/
def wide (scanned : Scanned) : Bool :=
  twoTo 64 / 10 ≤ scanned.coefficient / 10

end Scanned

/--
Round a cut magnitude by the first digit that was dropped.

Where rounding up outgrows the coefficient, one more fraction digit is dropped.
-/
def Magnitude.roundedBy?
    (magnitude : Magnitude)
    (dropped : Nat) :
    Option Magnitude :=
  if dropped < 5 then
    some magnitude
  else if magnitude.coefficient + 1 < twoTo 96 then
    some ⟨magnitude.coefficient + 1, magnitude.digits⟩
  else if magnitude.digits = 0 then
    none
  else
    some ⟨(magnitude.coefficient + 5) / 10, magnitude.digits - 1⟩

/-- A character that may follow the cut: a digit or an underscore. -/
def isIdle (character : Char) : Bool :=
  character.isDigit || character == '_'

/-- Cut a magnitude before `character`; `rest` is checked and not read. -/
def cut?
    (scanned : Scanned)
    (character : Char)
    (rest : List Char) :
    Option Magnitude :=
  if isIdle character && rest.all isIdle then
    Magnitude.roundedBy?
      ⟨scanned.coefficient, scanned.digits⟩
      ((digit? character).getD 0)
  else
    none

/-- Read the digits of a plain decimal behind its sign. -/
def scan?
    (scanned : Scanned) :
    List Char → Option Magnitude
  | [] => scanned.finish?
  | character :: rest =>
      if scanned.full then
        if character = '_' ∧ scanned.wide then
          scan? scanned rest
        else
          cut? scanned character rest
      else
        match digit? character with
        | some digit =>
            match scanned.push? digit with
            | some longer => scan? longer rest
            | none =>
                if scanned.pastPoint then
                  cut? scanned character rest
                else
                  none
        | none =>
            if character = '.' ∧ !scanned.pastPoint then
              scan? { scanned with pastPoint := true } rest
            else if character = '_' ∧ scanned.begun then
              scan? scanned rest
            else
              none

/-- A leading sign, as the factor it stands for, and what follows it. -/
def splitSign : List Char → Int × List Char
  | '-' :: rest => (-1, rest)
  | '+' :: rest => (1, rest)
  | characters => (1, characters)

/-- Read a plain decimal. -/
def plain? (characters : List Char) : Option Decimal := do
  let (sign, rest) := splitSign characters
  let magnitude ← scan? Scanned.start rest
  make? (sign * magnitude.coefficient) magnitude.digits

/-- Read an exponent without its minus: an optional plus, digits, at most 28. -/
def exponent? (characters : List Char) : Option Nat :=
  let digits :=
    match characters with
    | '+' :: rest => rest
    | _ => characters
  if digits.isEmpty then
    none
  else do
    let values ← digits.mapM digit?
    let exponent := values.foldl (fun total digit => total * 10 + digit) 0
    if exponent ≤ 28 then some exponent else none

/--
The value divided by `10 ^ exponent`. What does not fit 28 fraction digits is
rounded half up.
-/
def shiftedDown?
    (exponent : Nat)
    (value : Decimal) :
    Option Decimal :=
  if 28 < value.digits + exponent then
    make? (value.atScale .halfUp (28 - exponent)).coefficient 28
  else
    make? value.coefficient (value.digits + exponent)

/-- The value times `10 ^ exponent`, if it is in range. -/
def shiftedUp?
    (exponent : Nat)
    (value : Decimal) :
    Option Decimal :=
  if exponent ≤ value.digits then
    make? value.coefficient (value.digits - exponent)
  else
    make? (value.coefficient * tenTo (exponent - value.digits)) 0

/-- The character that introduces an exponent. -/
def isExponentMark (character : Char) : Bool :=
  character == 'e' || character == 'E'

/-- Read a plain decimal followed by an exponent. -/
def scientific? (characters : List Char) : Option Decimal :=
  match characters.dropWhile (!isExponentMark ·) with
  | [] => none
  | _ :: exponentCharacters => do
      let base ← plain? (characters.takeWhile (!isExponentMark ·))
      match exponentCharacters with
      | '-' :: rest =>
          let exponent ← exponent? rest
          base.shiftedDown? exponent
      | _ =>
          let exponent ← exponent? exponentCharacters
          base.shiftedUp? exponent

def read? (characters : List Char) : Option Decimal :=
  match plain? characters with
  | some value => some value
  | none => scientific? characters

end PatronFees.Decimal
