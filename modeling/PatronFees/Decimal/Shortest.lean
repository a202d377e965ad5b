import PatronFees.Decimal.Binary

namespace PatronFees.Quantity

/-!
# Shortest text of a floating-point quantity

A finite quantity is written with the fewest significant digits that still name
it among all 64-bit quantities, the nearest of those, and never with an
exponent: zeros fill the places up to the point.
-/

/-- Digits `significant * 10 ^ exponent`. -/
structure Scaled where
  significant : Nat
  exponent : Int
  deriving Repr, DecidableEq

/--
The reals that a quantity `significand * 2 ^ power` stands for, in quarters of
its last place. The ends belong to it when the significand is even.
-/
structure Interval where
  low : Nat
  middle : Nat
  high : Nat
  closed : Bool
  deriving Repr, DecidableEq

/-- The interval of a significand; below a power of two the spacing halves. -/
def Interval.of (significand : Nat) (power : Int) : Interval where
  low :=
    if significand = twoTo 52 ∧ -1074 < power then
      4 * significand - 1
    else
      4 * significand - 2
  middle := 4 * significand
  high := 4 * significand + 2
  closed := significand % 2 == 0

/-- The point lies in the interval; both are scaled alike. -/
def Interval.holds
    (interval : Interval)
    (scale point : Nat) : Bool :=
  let low := interval.low * scale
  let high := interval.high * scale
  if interval.closed then
    low ≤ point && point ≤ high
  else
    low < point && point < high

/-- The number of decimal digits of a number. -/
def digitCount (number : Nat) : Nat :=
  (Nat.toDigits 10 number).length

/--
The nearest number `k * 10 ^ exponent` that lies in the interval of
`significand * 2 ^ power`, if there is one.
-/
def nearestOnGrid?
    (significand : Nat)
    (power : Int)
    (exponent : Int) :
    Option Scaled :=
  let interval := Interval.of significand power
  -- Quarters of the last place and grid points become whole over one scale.
  let unit := twoTo (power - 2).toNat * tenTo (-exponent).toNat
  let step := tenTo exponent.toNat * twoTo (2 - power).toNat
  let exact := interval.middle * unit
  let below := exact / step
  let above := below + 1
  let takeBelow := interval.holds unit (below * step) && 0 < below
  let takeAbove := interval.holds unit (above * step)
  if takeBelow && (!takeAbove || exact - below * step ≤ above * step - exact) then
    some ⟨below, exponent⟩
  else if takeAbove then
    some ⟨above, exponent⟩
  else
    none

/-- The coarsest grid with a hit, tried from `exponent` downward. -/
def coarsest?
    (significand : Nat)
    (power : Int) :
    (tries : Nat) → (exponent : Int) → Option Scaled
  | 0, _ => none
  | tries + 1, exponent =>
      match nearestOnGrid? significand power exponent with
      | some found => some found
      | none => coarsest? significand power tries (exponent - 1)

/-- The largest exponent of a grid that can name the quantity. -/
def topExponent (significand : Nat) (power : Int) : Int :=
  if 0 ≤ power then
    digitCount (significand * twoTo power.toNat)
  else
    (digitCount (significand * tenTo power.natAbs / twoTo power.natAbs) : Int) + power

/-- The digits of a positive quantity: at most 17 are ever needed. -/
def shortest? (significand : Nat) (power : Int) : Option Scaled :=
  coarsest? significand power 18 (topExponent significand power)

/-- Digits in positional notation. -/
def Scaled.characters (scaled : Scaled) : List Char :=
  let digits := Nat.toDigits 10 scaled.significant
  if 0 ≤ scaled.exponent then
    digits ++ List.replicate scaled.exponent.toNat '0'
  else
    let places := scaled.exponent.natAbs
    let padded := List.replicate (places + 1 - digits.length) '0' ++ digits
    padded.take (padded.length - places) ++
      '.' :: padded.drop (padded.length - places)

def text : Quantity → String
  | .notANumber => "NaN"
  | .infinite negative => if negative then "-inf" else "inf"
  | .finite negative significand power =>
      let magnitude :=
        if significand = 0 then
          ['0']
        else
          match shortest? significand power with
          | some scaled => scaled.characters
          | none => []
      String.ofList (if negative then '-' :: magnitude else magnitude)

end PatronFees.Quantity
