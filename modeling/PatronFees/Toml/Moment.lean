import PatronFees.Timestamp.Basic
import PatronFees.Toml.Number

namespace PatronFees.Toml

/-!
# Moments

A moment is a date, a time of day, or both, and with both there may be an
offset from universal time. Dates exist in the calendar; second 60 is allowed.
-/

/-- A number of two digits up to a limit. -/
def scanPair (limit : Nat) : Scan Nat
  | tens :: ones :: rest =>
      if tens.isDigit && ones.isDigit then
        let value := valueOf 10 [tens, ones]
        if value ≤ limit then some (value, rest) else none
      else
        none
  | _ => none

/-- What follows a character at the front. -/
def after? (expected : Char) : List Char → Option (List Char)
  | character :: rest => if character = expected then some rest else none
  | [] => none

/-- A date, given what follows it. -/
def afterDate? : List Char → Option (List Char)
  | a :: b :: c :: d :: rest =>
      if [a, b, c, d].all Char.isDigit then do
        let (month, afterMonth) ← scanPair 12 (← after? '-' rest)
        let (day, afterDay) ← scanPair 31 (← after? '-' afterMonth)
        if CivilDate.exists? ⟨valueOf 10 [a, b, c, d], month, day⟩ then
          some afterDay
        else
          none
      else
        none
  | _ => none

/-- What follows a fraction of a second, if there is one. -/
def afterSecondFraction : List Char → List Char
  | '.' :: digit :: rest =>
      if digit.isDigit then
        rest.dropWhile Char.isDigit
      else
        '.' :: digit :: rest
  | characters => characters

/-- What follows a time of day. -/
def afterTime? (characters : List Char) : Option (List Char) := do
  let (_, afterHour) ← scanPair 23 characters
  let (_, afterMinute) ← scanPair 59 (← after? ':' afterHour)
  let (_, afterSecond) ← scanPair 60 (← after? ':' afterMinute)
  return afterSecondFraction afterSecond

/-- What follows an offset, if there is one. -/
def afterOffset : List Char → List Char
  | 'Z' :: rest => rest
  | 'z' :: rest => rest
  | sign :: rest =>
      let size := do
        let (_, afterHour) ← scanPair 23 rest
        let (_, afterMinute) ← scanPair 59 (← after? ':' afterHour)
        return afterMinute
      if sign = '+' ∨ sign = '-' then
        size.getD (sign :: rest)
      else
        sign :: rest
  | [] => []

/-- What follows a time of day and offset behind a date, if there is one. -/
def afterDateTime : List Char → List Char
  | divider :: rest =>
      if divider = 'T' ∨ divider = 't' ∨ divider = ' ' then
        ((afterTime? rest).map afterOffset).getD (divider :: rest)
      else
        divider :: rest
  | [] => []

def scanMoment : Scan Value := fun characters => do
  let rest ← (afterDate? characters).map afterDateTime <|> afterTime? characters
  return (.moment (written characters rest), rest)

end PatronFees.Toml
