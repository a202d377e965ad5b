import PatronFees.Powers
import PatronFees.Toml.Text
import PatronFees.Toml.Value

namespace PatronFees.Toml

/-!
# Numbers

Integers are written in base ten, with a sign if need be, or without one in
base 16, 8 or 2, and fit in 64 bits. Single underscores may stand between
digits. In base ten nothing but zero begins with a zero. A number with a
fraction or an exponent is refused if its nearest binary double is infinity.
-/

/-- The digits behind a digit, and what follows them. -/
def moreDigits
    (isDigit : Char → Bool) :
    List Char → List Char × List Char
  | '_' :: digit :: rest =>
      if isDigit digit then
        let (digits, after) := moreDigits isDigit rest
        (digit :: digits, after)
      else
        ([], '_' :: digit :: rest)
  | digit :: rest =>
      if isDigit digit then
        let (digits, after) := moreDigits isDigit rest
        (digit :: digits, after)
      else
        ([], digit :: rest)
  | [] => ([], [])

def scanDigits (isDigit : Char → Bool) : Scan (List Char)
  | digit :: rest =>
      if isDigit digit then
        let (digits, after) := moreDigits isDigit rest
        some (digit :: digits, after)
      else
        none
  | [] => none

/-- One or more decimal digits that begin with a zero only if it is alone. -/
def scanWhole : Scan (List Char)
  | '0' :: rest => some (['0'], rest)
  | characters => scanDigits Char.isDigit characters

/-- Whether a number is negative, by its sign if it has one. -/
def takeSign : List Char → Bool × List Char
  | '+' :: rest => (false, rest)
  | '-' :: rest => (true, rest)
  | characters => (false, characters)

/-- The value of digits in a base. -/
def valueOf (base : Nat) (digits : List Char) : Nat :=
  digits.foldl (fun total digit => total * base + (Text.hexValue? digit).getD 0) 0

/-- An integer of 64 bits. -/
def integer? (integer : Int) : Option Value :=
  if -(twoTo 63) ≤ integer ∧ integer < twoTo 63 then
    some (.integer integer)
  else
    none

/-- The digits of a base. -/
def isDigitOf (base : Nat) (character : Char) : Bool :=
  match Text.hexValue? character with
  | some value => value < base
  | none => false

/-- The integer with digits in a base other than ten. -/
def scanBased (base : Nat) : Scan Value := fun characters => do
  let (digits, rest) ← scanDigits (isDigitOf base) characters
  return (← integer? (valueOf base digits), rest)

def scanInteger : Scan Value
  | '0' :: 'x' :: rest => scanBased 16 rest
  | '0' :: 'o' :: rest => scanBased 8 rest
  | '0' :: 'b' :: rest => scanBased 2 rest
  | characters => do
      let (isNegative, unsigned) := takeSign characters
      let (digits, rest) ← scanWhole unsigned
      let size : Int := valueOf 10 digits
      return (← integer? (if isNegative then -size else size), rest)

/-- The fraction of a number, behind a point. -/
def scanFraction : Scan (List Char)
  | '.' :: rest => scanDigits Char.isDigit rest
  | _ => none

def scanExponent : Scan Int
  | letter :: rest =>
      if letter = 'e' ∨ letter = 'E' then do
        let (isNegative, unsigned) := takeSign rest
        let (digits, after) ← scanDigits Char.isDigit unsigned
        let size : Int := valueOf 10 digits
        return (if isNegative then -size else size, after)
      else
        none
  | [] => none

/-- Values from here on are nearest to infinity among binary doubles. -/
def overflowsFrom : Nat :=
  twoTo 1024 - twoTo 970

/--
The value of digits with an exponent of ten has infinity as its nearest double.

Digits that reach beyond the 400th place overflow and those below the 300th do
not, so that no large power is computed.
-/
def isInfinite (digits : List Char) (exponent : Int) : Bool :=
  let size := valueOf 10 digits
  let places := (Nat.toDigits 10 size).length + exponent
  if size = 0 ∨ places < 300 then
    false
  else if 400 < places then
    true
  else if 0 ≤ exponent then
    overflowsFrom ≤ size * tenTo exponent.toNat
  else
    overflowsFrom * tenTo (-exponent).toNat ≤ size

/-- The characters in front of the rest. -/
def written (characters rest : List Char) : String :=
  String.ofList (characters.take (characters.length - rest.length))

/--
A number with a fraction, an exponent or both.

Only overflow to positive infinity is refused.
-/
def scanDecimal : Scan Value := fun characters => do
  let (isNegative, unsigned) := takeSign characters
  let (whole, afterWhole) ← scanWhole unsigned
  let (fraction, afterFraction) :=
    (scanFraction afterWhole).getD ([], afterWhole)
  let (exponent, rest) := (scanExponent afterFraction).getD (0, afterFraction)
  if rest.length = afterWhole.length then
    none
  else if !isNegative &&
      isInfinite (whole ++ fraction) (exponent - fraction.length) then
    none
  else
    return (.float (written characters rest), rest)

/-- Infinity or no number at all. -/
def scanSpecial : Scan Value := fun characters =>
  match (takeSign characters).2 with
  | 'i' :: 'n' :: 'f' :: rest => some (.float (written characters rest), rest)
  | 'n' :: 'a' :: 'n' :: rest => some (.float (written characters rest), rest)
  | _ => none

def scanNumber : Scan Value := fun characters =>
  scanDecimal characters <|> scanSpecial characters <|> scanInteger characters

end PatronFees.Toml
