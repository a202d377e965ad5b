import PatronFees.Proofs.Decimal.Text
import PatronFees.Proofs.Outcome
import PatronFees.Proofs.Timestamp.Calendar
import PatronFees.Timestamp.Printing
import PatronFees.Timestamp.Reading

namespace PatronFees.Timestamp

/-!
# Timestamps that are read as they were written

A timestamp of the years 0 to 9999 is written in twenty characters, and is read
from them as it was but for its fraction of a second, which is not written. A leap
second keeps its place if it follows a second 59.
-/

/-- The bytes of ASCII characters. -/
abbrev codes (characters : List Char) : List UInt8 :=
  characters.map fun character => character.toNat.toUInt8

/-- The year in universal time. -/
def year (timestamp : Timestamp) : Int :=
  (CivilDate.ofDays (timestamp.seconds / 86400)).year

/-- A leap second follows the last second of a minute. -/
def IsOnClock (timestamp : Timestamp) : Prop :=
  timestamp.nanoseconds < 1000000000 ∨
    timestamp.nanoseconds < 2000000000 ∧ timestamp.seconds % 60 = 59

/-- The timestamp without its fraction of a second. -/
def cut (timestamp : Timestamp) : Timestamp where
  seconds := timestamp.seconds
  nanoseconds := timestamp.nanoseconds / 1000000000 * 1000000000

/-- The timestamp has no fraction of a second. -/
def IsWhole (timestamp : Timestamp) : Prop :=
  timestamp.nanoseconds % 1000000000 = 0

theorem cut_of_isWhole
    {timestamp : Timestamp}
    (whole : timestamp.IsWhole) :
    timestamp.cut = timestamp := by
  have nanoseconds :
      timestamp.nanoseconds / 1000000000 * 1000000000 =
        timestamp.nanoseconds :=
    Nat.div_mul_cancel (Nat.dvd_of_mod_eq_zero whole)
  rw [cut, nanoseconds]

theorem digitOfByte?_digitChar
    {digit : Nat}
    (single : digit < 10) :
    digitOfByte? (Nat.digitChar digit).toNat.toUInt8 = some digit := by
  interval_cases digit <;> rfl

/-- The last digits of a number are read before further ones. -/
theorem readDigits_lastDigits_add
    (width more value number : Nat)
    (rest : List UInt8) :
    readDigits (width + more) value
        (codes (Decimal.lastDigits width number) ++ rest) =
      readDigits more (value * tenTo width + number % tenTo width) rest := by
  induction width generalizing more number rest with
  | zero =>
      simp [codes, Decimal.lastDigits, tenTo, Nat.mod_one]
  | succ width inductionHypothesis =>
      have last :
          (value * tenTo width + number / 10 % tenTo width) * 10 +
              number % 10 =
            value * tenTo (width + 1) + number % tenTo (width + 1) := by
        rw [show tenTo (width + 1) = 10 * tenTo width from by
          simp only [tenTo, Nat.pow_eq]; ring, Nat.mod_mul]
        ring
      have digit := digitOfByte?_digitChar (Nat.mod_lt number (show 0 < 10 by decide))
      rw [Decimal.lastDigits, codes, List.map_append, List.append_assoc,
        Nat.add_assoc, Nat.add_comm 1 more, inductionHypothesis]
      simp only [List.map_cons, List.map_nil, List.singleton_append, readDigits,
        digit, last]

/-- The last digits of a number are read as its remainder. -/
theorem readDigits_lastDigits
    {width number : Nat}
    (room : number < tenTo width)
    (rest : List UInt8) :
    readDigits width 0 (codes (Decimal.lastDigits width number) ++ rest) =
      .ok (number, rest) := by
  have read := readDigits_lastDigits_add width 0 0 number rest
  rw [Nat.zero_mul, Nat.zero_add, Nat.mod_eq_of_lt room] at read
  exact read

/-- How a date of the years 0 to 9999 is written. -/
def dateCharacters (date : CivilDate) : List Char :=
  Decimal.lastDigits 4 date.year.natAbs ++
    '-' :: Decimal.lastDigits 2 date.month ++
    '-' :: Decimal.lastDigits 2 date.day

/-- How a time of day is written. -/
def timeCharacters (time : TimeOfDay) : List Char :=
  Decimal.lastDigits 2 time.hour ++
    ':' :: Decimal.lastDigits 2 time.minute ++
    ':' :: Decimal.lastDigits 2 time.second

/-- A date of the years 0 to 9999 is read as it was written. -/
theorem readDate_codes
    {date : CivilDate}
    (inRange : 0 ≤ date.year ∧ date.year ≤ 9999)
    (inCalendar : date.exists? = true)
    (rest : List UInt8) :
    readDate
        (codes (dateCharacters date) ++ rest) =
      .ok (date, rest) := by
  simp only [CivilDate.exists?, Bool.and_eq_true, decide_eq_true_eq] at inCalendar
  have day : date.day ≤ 31 := by
    have last := inCalendar.2
    simp only [CivilDate.daysInMonth] at last
    split at last <;> split at last <;> omega
  have dash (more : List UInt8) :
      readSeparator [45] ('-'.toNat.toUInt8 :: more) = .ok more :=
    rfl
  have sameYear : (date.year.natAbs : Int) = date.year := by
    omega
  simp only [dateCharacters, codes, List.map_append, List.map_cons,
    List.append_assoc, List.cons_append, readDate]
  rw [readDigits_lastDigits (by simp [tenTo]; omega), Outcome.ok_bind, dash,
    Outcome.ok_bind, readDigits_lastDigits (by simp [tenTo]; omega),
    Outcome.ok_bind, dash, Outcome.ok_bind,
    readDigits_lastDigits (by simp [tenTo]; omega), Outcome.ok_bind]
  simp only [sameYear]
  rw [if_pos (by simp [CivilDate.exists?, inCalendar])]

/-- A time of day is read as it was written. -/
theorem readTime_codes
    {time : TimeOfDay}
    (onClock : time.exists? = true)
    (rest : List UInt8) :
    readTime
        (codes (timeCharacters time) ++ rest) =
      .ok (time, rest) := by
  simp only [TimeOfDay.exists?, Bool.and_eq_true, decide_eq_true_eq] at onClock
  obtain ⟨⟨hour, minute⟩, second⟩ := onClock
  have colon (more : List UInt8) :
      readSeparator [58] (':'.toNat.toUInt8 :: more) = .ok more :=
    rfl
  simp only [timeCharacters, codes, List.map_append, List.map_cons,
    List.append_assoc, List.cons_append, readTime]
  rw [readDigits_lastDigits (by simp [tenTo]; omega), Outcome.ok_bind, colon,
    Outcome.ok_bind, readDigits_lastDigits (by simp [tenTo]; omega),
    Outcome.ok_bind, colon, Outcome.ok_bind,
    readDigits_lastDigits (by simp [tenTo]; omega)]
  rfl

/-- The time of day of a timestamp, with second 60 for a leap second. -/
def timeOfDay (timestamp : Timestamp) : TimeOfDay :=
  let secondOfDay := (timestamp.seconds % 86400).toNat
  { hour := secondOfDay / 3600
    minute := secondOfDay / 60 % 60
    second := secondOfDay % 60 + timestamp.nanoseconds / 1000000000 }

/-- A timestamp is a day and a time of day. -/
theorem ofCivil_cut
    {timestamp : Timestamp}
    (onClock : timestamp.IsOnClock) :
    ofCivil (CivilDate.ofDays (timestamp.seconds / 86400)) timestamp.timeOfDay
        0 0 =
      timestamp.cut := by
  simp only [ofCivil, CivilDate.toDays_ofDays, timeOfDay, cut,
    Timestamp.mk.injEq]
  rcases onClock with regular | ⟨short, leap⟩
  · have whole : timestamp.nanoseconds / 1000000000 = 0 :=
      Nat.div_eq_of_lt regular
    rw [whole]
    omega
  · omega

theorem characters_eq
    {timestamp : Timestamp}
    (inRange : 0 ≤ timestamp.year ∧ timestamp.year ≤ 9999) :
    timestamp.characters .seconds =
      dateCharacters (CivilDate.ofDays (timestamp.seconds / 86400)) ++
        'T' :: timeCharacters timestamp.timeOfDay ++ ['Z'] := by
  have years :
      yearCharacters (CivilDate.ofDays (timestamp.seconds / 86400)).year =
        Decimal.lastDigits 4
          (CivilDate.ofDays (timestamp.seconds / 86400)).year.natAbs :=
    if_pos inRange
  simp [characters, years, fractionCharacters, dateCharacters, timeCharacters,
    timeOfDay]

/-- A timestamp is written in ASCII characters, none of them blank. -/
theorem characters_plain
    {timestamp : Timestamp}
    (inRange : 0 ≤ timestamp.year ∧ timestamp.year ≤ 9999)
    {character : Char}
    (member : character ∈ timestamp.characters .seconds) :
    character.isDigit = true ∨ character ∈ ['-', 'T', ':', 'Z'] := by
  rw [characters_eq inRange] at member
  simp only [dateCharacters, timeCharacters, List.mem_append, List.mem_cons]
    at member ⊢
  have digit {width number : Nat}
      (among : character ∈ Decimal.lastDigits width number) :
      character.isDigit = true :=
    Decimal.isDigit_of_mem_lastDigits among
  grind

theorem exists?_timeOfDay
    {timestamp : Timestamp}
    (onClock : timestamp.IsOnClock) :
    timestamp.timeOfDay.exists? = true := by
  have second :
      (timestamp.seconds % 86400).toNat % 60 +
          timestamp.nanoseconds / 1000000000 ≤ 60 := by
    rcases onClock with regular | ⟨short, -⟩ <;> omega
  have hour : (timestamp.seconds % 86400).toNat / 3600 ≤ 23 := by
    omega
  have minute : (timestamp.seconds % 86400).toNat / 60 % 60 ≤ 59 := by
    omega
  simp only [TimeOfDay.exists?, timeOfDay, hour, minute, second, decide_true,
    Bool.and_self]

/-- A timestamp of the years 0 to 9999 is read as it was written. -/
theorem read_text
    {timestamp : Timestamp}
    (inRange : 0 ≤ timestamp.year ∧ timestamp.year ≤ 9999)
    (onClock : timestamp.IsOnClock) :
    read (timestamp.text .seconds) = .ok timestamp.cut := by
  have ascii :
      ∀ character ∈ timestamp.characters .seconds, character.toNat < 128 := by
    intro character member
    rcases characters_plain inRange member with digit | other
    · simp only [Char.isDigit, Bool.and_eq_true, decide_eq_true_eq,
        UInt32.le_iff_toNat_le] at digit
      exact Nat.lt_of_le_of_lt digit.2 (by decide)
    · simp only [List.mem_cons, List.not_mem_nil, or_false] at other
      rcases other with rfl | rfl | rfl | rfl <;> decide
  have bytes :
      (timestamp.text .seconds).toUTF8.toList =
        codes (dateCharacters (CivilDate.ofDays (timestamp.seconds / 86400))) ++
          84 :: (codes (timeCharacters timestamp.timeOfDay) ++ [90]) := by
    rw [text, Text.toList_toUTF8_ofList ascii, characters_eq inRange]
    simp [codes]
  have length :
      ¬ (codes (dateCharacters (CivilDate.ofDays (timestamp.seconds / 86400))) ++
          84 :: (codes (timeCharacters timestamp.timeOfDay) ++ [90])).length <
        19 := by
    simp [codes, dateCharacters, timeCharacters, Decimal.length_lastDigits]
  have onTime := exists?_timeOfDay onClock
  rw [read, bytes, readBytes, if_neg length,
    readDate_codes inRange (CivilDate.exists?_ofDays _), Outcome.ok_bind]
  have between (more : List UInt8) :
      readSeparator [84, 116, 32] (84 :: more) = .ok more :=
    rfl
  simp only [between, Outcome.ok_bind, readTime_codes onTime, readFraction,
    onTime, readOffset, ← ofCivil_cut onClock]
  rfl

/-- Nothing of a written timestamp is trimmed. -/
theorem trimmed_text
    {timestamp : Timestamp}
    (inRange : 0 ≤ timestamp.year ∧ timestamp.year ≤ 9999) :
    Text.trimmed (timestamp.text .seconds) = timestamp.text .seconds := by
  have notBlank :
      ∀ character ∈ timestamp.characters .seconds,
        Text.isBlank character = false := by
    intro character member
    rcases characters_plain inRange member with digit | other
    · exact Text.isBlank_of_isDigit digit
    · simp only [List.mem_cons, List.not_mem_nil, or_false] at other
      rcases other with rfl | rfl | rfl | rfl <;> decide
  rw [Text.trimmed, text, String.toList_ofList, Text.trim_eq_self]
  · exact fun character first => notBlank character (List.mem_of_mem_head? first)
  · exact fun character last =>
      notBlank character (List.mem_of_mem_getLast? last)

theorem text_ne_empty
    {timestamp : Timestamp}
    (inRange : 0 ≤ timestamp.year ∧ timestamp.year ≤ 9999) :
    timestamp.text .seconds ≠ "" := by
  intro empty
  have none : timestamp.characters .seconds = [] := by
    rw [← String.toList_ofList (l := timestamp.characters .seconds)]
    exact congrArg String.toList empty
  rw [characters_eq inRange] at none
  simp at none

end PatronFees.Timestamp
