import PatronFees.Decimal.Basic

namespace PatronFees

/-!
# Binary floating-point quantities

A 64-bit floating-point quantity is a sign, a significand and a power of two,
or no number at all. It becomes a decimal by trading each factor of two or five
that is wanting for a factor of ten, in 96 bits, and by cutting what goes beyond
28 fraction digits or beyond the significand's own precision.
-/

/-- A 64-bit floating-point quantity. -/
inductive Quantity where
  /-- `significand * 2 ^ power`, or its negative. -/
  | finite (negative : Bool) (significand : Nat) (power : Int)
  | infinite (negative : Bool)
  | notANumber
  deriving Repr, DecidableEq

namespace Quantity

/-- The quantity that a 64-bit pattern stands for. -/
def ofBits (bits : Nat) : Quantity :=
  let negative : Bool := bits / twoTo 63 % 2 = 1
  let exponent : Nat := bits / twoTo 52 % twoTo 11
  let fraction : Nat := bits % twoTo 52
  if exponent = 2047 then
    if fraction = 0 then .infinite negative else .notANumber
  else if exponent = 0 then
    .finite negative fraction (-1074)
  else
    .finite negative (twoTo 52 + fraction) ((exponent : Int) - 1075)

end Quantity

namespace Decimal

/-- A coefficient and the power of ten that it is multiplied by. -/
structure Balance where
  coefficient : Nat
  tens : Int
  deriving Repr, DecidableEq

namespace Balance

/--
Multiply by five `count` times.

An even coefficient is halved instead, which leaves a factor of ten; so is one
that has no room for the multiplication.
-/
def timesFives : (count : Nat) → Balance → Balance
  | 0, balance => balance
  | count + 1, balance =>
      if balance.coefficient % 2 = 0 then
        timesFives count ⟨balance.coefficient / 2, balance.tens + 1⟩
      else if balance.coefficient * 5 < twoTo 96 then
        timesFives count ⟨balance.coefficient * 5, balance.tens⟩
      else
        timesFives count ⟨balance.coefficient / 2, balance.tens + 1⟩

/--
Divide by five `count` times.

While there is room the coefficient is doubled instead, which takes a factor of
ten; when there is none and too many tens are left, the quantity is too large.
-/
def overFives? : (count : Nat) → Balance → Option Balance
  | 0, balance => some balance
  | count + 1, balance =>
      if balance.coefficient < twoTo 95 then
        overFives? count ⟨balance.coefficient * 2, balance.tens - 1⟩
      else if (count : Int) + 1 < balance.tens * 2 then
        none
      else
        overFives? count ⟨balance.coefficient / 5, balance.tens⟩

/-- Take up `count` factors of ten, if there is room for them. -/
def takeTens? : (count : Nat) → Balance → Option Balance
  | 0, balance => some balance
  | count + 1, balance =>
      if balance.coefficient * 10 < twoTo 96 then
        takeTens? count ⟨balance.coefficient * 10, balance.tens - 1⟩
      else
        none

/-- Drop `count` digits one by one, each rounding the rest half up. -/
def dropDigits : (count : Nat) → Balance → Balance
  | 0, balance => balance
  | count + 1, balance =>
      let shorter := balance.coefficient / 10
      if shorter = 0 then
        ⟨0, 0⟩
      else if 5 ≤ balance.coefficient % 10 then
        dropDigits count ⟨shorter + 1, balance.tens + 1⟩
      else
        dropDigits count ⟨shorter, balance.tens + 1⟩

/-- Drop up to `count` fraction digits while the coefficient has over 52 bits. -/
def dropExcess : (count : Nat) → Balance → Balance
  | 0, balance => balance
  | count + 1, balance =>
      if twoTo 52 ≤ balance.coefficient then
        let shorter := balance.coefficient / 10
        if 5 ≤ balance.coefficient % 10 then
          dropExcess count ⟨shorter + 1, balance.tens + 1⟩
        else
          dropExcess count ⟨shorter, balance.tens + 1⟩
      else
        balance

end Balance

/-- The decimal for a floating-point quantity, if it is in range. -/
def ofQuantity? : Quantity → Option Decimal
  | .infinite _ => none
  | .notANumber => none
  | .finite negative significand power =>
      if significand = 0 then
        some zero
      else do
        let start : Balance := ⟨significand, power⟩
        let level ←
          if power ≤ 0 then
            some (start.timesFives power.natAbs)
          else
            start.overFives? power.natAbs
        let lifted ← level.takeTens? level.tens.toNat
        let within := lifted.dropDigits (-28 - lifted.tens).toNat
        let rounded := within.dropExcess (-within.tens).toNat
        let value ←
          make?
            (if negative then -rounded.coefficient else rounded.coefficient)
            (-rounded.tens).toNat
        some value.stripped

end Decimal

end PatronFees
