import PatronFees.Timestamp.Basic

namespace PatronFees

/-!
# Reading timestamps

A timestamp is read by RFC 3339, byte by byte: a date, `T` or a blank, a time
of day, an optional fraction and an offset. The date is checked as soon as it
is read, the time of day before the offset, and the size of the offset last.
-/

/-- Why a text is no timestamp. -/
inductive TimestampError where
  | endsEarly
  | invalidCharacter
  | outOfRange
  | trailingInput
  deriving Repr, DecidableEq

def TimestampError.message : TimestampError → String
  | .endsEarly => "premature end of input"
  | .invalidCharacter => "input contains invalid characters"
  | .outOfRange => "input is out of range"
  | .trailingInput => "trailing input"

namespace Timestamp

/-- The value of an ASCII digit. -/
def digitOfByte? (byte : UInt8) : Option Nat :=
  if 48 ≤ byte.toNat ∧ byte.toNat ≤ 57 then some (byte.toNat - 48) else none

/-- Read exactly `count` digits. -/
def readDigits :
    (count : Nat) →
    (value : Nat) →
    List UInt8 →
    Except TimestampError (Nat × List UInt8)
  | 0, value, bytes => .ok (value, bytes)
  | _ + 1, _, [] => .error .invalidCharacter
  | count + 1, value, byte :: rest =>
      match digitOfByte? byte with
      | some digit => readDigits count (value * 10 + digit) rest
      | none => .error .invalidCharacter

/-- Read one of the given bytes. -/
def readSeparator
    (allowed : List UInt8) :
    List UInt8 → Except TimestampError (List UInt8)
  | [] => .error .endsEarly
  | byte :: rest =>
      if allowed.contains byte then .ok rest else .error .invalidCharacter

/-- The digits at the front, and what follows them. -/
def leadingDigits : List UInt8 → List Nat × List UInt8
  | [] => ([], [])
  | byte :: rest =>
      match digitOfByte? byte with
      | some digit =>
          let (digits, after) := leadingDigits rest
          (digit :: digits, after)
      | none => ([], byte :: rest)

/-- Read the fraction of a second in nanoseconds; later digits are ignored. -/
def readFraction :
    List UInt8 → Except TimestampError (Nat × List UInt8)
  | 46 :: rest =>
      let (digits, after) := leadingDigits rest
      if digits.isEmpty then
        .error (if after.isEmpty then .endsEarly else .invalidCharacter)
      else
        let kept := (digits ++ List.replicate 9 0).take 9
        .ok (kept.foldl (fun total digit => total * 10 + digit) 0, after)
  | bytes => .ok (0, bytes)

/-- Two digits of an offset; too few bytes are noticed before wrong ones. -/
def readOffsetPair
    (bytes : List UInt8) :
    Except TimestampError (Nat × List UInt8) :=
  if bytes.length < 2 then
    .error .endsEarly
  else
    readDigits 2 0 bytes

/-- Read the hours and minutes of an offset, as seconds. -/
def readOffsetSize
    (bytes : List UInt8) :
    Except TimestampError (Int × List UInt8) := do
  let (hours, afterHours) ← readOffsetPair bytes
  let afterColon ← readSeparator [58] afterHours
  let (minutes, rest) ← readOffsetPair afterColon
  if 60 ≤ minutes then
    .error .outOfRange
  else
    .ok ((hours : Int) * 3600 + minutes * 60, rest)

/-- Read an offset from universal time, as seconds to its east. -/
def readOffset :
    List UInt8 → Except TimestampError (Int × List UInt8)
  | [] => .error .endsEarly
  | 90 :: rest => .ok (0, rest)
  | 122 :: rest => .ok (0, rest)
  | 43 :: rest => readOffsetSize rest
  | 45 :: rest => do
      let (size, after) ← readOffsetSize rest
      .ok (-size, after)
  | 0xE2 :: 0x88 :: 0x92 :: rest => do
      let (size, after) ← readOffsetSize rest
      .ok (-size, after)
  | _ => .error .invalidCharacter

/-- Read a date that exists in the calendar. -/
def readDate
    (bytes : List UInt8) :
    Except TimestampError (CivilDate × List UInt8) := do
  let (year, afterYear) ← readDigits 4 0 bytes
  let (month, afterMonth) ← readDigits 2 0 (← readSeparator [45] afterYear)
  let (day, rest) ← readDigits 2 0 (← readSeparator [45] afterMonth)
  let date : CivilDate := ⟨year, month, day⟩
  if date.exists? then .ok (date, rest) else .error .outOfRange

/-- A time of day, its second up to 60. -/
structure TimeOfDay where
  hour : Nat
  minute : Nat
  second : Nat
  deriving Repr, DecidableEq

/-- The time exists; second 60 is a leap second. -/
def TimeOfDay.exists? (time : TimeOfDay) : Bool :=
  time.hour ≤ 23 && time.minute ≤ 59 && time.second ≤ 60

/-- Read a time of day without checking its range. -/
def readTime
    (bytes : List UInt8) :
    Except TimestampError (TimeOfDay × List UInt8) := do
  let (hour, afterHour) ← readDigits 2 0 bytes
  let (minute, afterMinute) ← readDigits 2 0 (← readSeparator [58] afterHour)
  let (second, rest) ← readDigits 2 0 (← readSeparator [58] afterMinute)
  .ok (⟨hour, minute, second⟩, rest)

/-- The instant of a date and time at an offset. -/
def ofCivil
    (date : CivilDate)
    (time : TimeOfDay)
    (nanoseconds : Nat)
    (offset : Int) : Timestamp :=
  let second := min time.second 59
  { seconds :=
      date.toDays * 86400 + time.hour * 3600 + time.minute * 60 + second - offset
    nanoseconds := nanoseconds + (time.second - second) * 1000000000 }

def readBytes
    (bytes : List UInt8) :
    Except TimestampError Timestamp := do
  if bytes.length < 19 then
    .error .endsEarly
  else
    let (date, afterDate) ← readDate bytes
    let (time, afterTime) ← readTime (← readSeparator [84, 116, 32] afterDate)
    let (nanoseconds, afterFraction) ← readFraction afterTime
    if !time.exists? then
      .error .outOfRange
    else
      let (offset, rest) ← readOffset afterFraction
      if !rest.isEmpty then
        .error .trailingInput
      else if 86400 ≤ offset.natAbs then
        .error .outOfRange
      else
        .ok (ofCivil date time nanoseconds offset)

def read (text : String) : Except TimestampError Timestamp :=
  readBytes text.toUTF8.toList

end Timestamp

end PatronFees
