import PatronFees.Timestamp.Basic
import Mathlib.Tactic.IntervalCases

namespace PatronFees.CivilDate

/-!
# Days and dates

The date of a day exists in the calendar, and it is that day's date alone: its
day is the day that it was made of. Years are counted from March within cycles of
400, which all have the same days.
-/

/-- The first day of a year of a cycle. -/
def startOfYear (year : Int) : Int :=
  365 * year + year / 4 - year / 100

/-- The year of a day of a cycle. -/
def yearOfDay (day : Int) : Int :=
  (day - day / 1460 + day / 36524 - day / 146096) / 365

/-- The day is one of the year; day 365 is a leap day. -/
structure IsDayOf (day year : Int) : Prop where
  year_nonneg : 0 ≤ year
  year_le : year ≤ 399
  start_le : startOfYear year ≤ day
  le_end : day ≤ startOfYear year + 365
  leapDay :
    day = startOfYear year + 365 →
      (year + 1) % 4 = 0 ∧ ((year + 1) % 100 ≠ 0 ∨ (year + 1) % 400 = 0)

/-- The year of a day by its century, its four years and the day within them. -/
theorem yearOfDay_eq
    {century fourYears day : Int}
    (inCycle : 0 ≤ century ∧ century ≤ 3)
    (inCentury : 0 ≤ fourYears ∧ fourYears ≤ 24)
    (inYears : 0 ≤ day ∧ day ≤ 1460)
    (last : 1461 * fourYears + day < 36524) :
    yearOfDay (36524 * century + 1461 * fourYears + day) =
      100 * century + 4 * fourYears + min (day / 365) 3 := by
  rw [yearOfDay]
  generalize whole : 36524 * century + 1461 * fourYears + day = dayOfCycle
  -- The correction of the days is a day for every four years, or one more.
  have leapDays :
      dayOfCycle / 1460 =
        25 * century + fourYears +
          (24 * century + fourYears + day) / 1460 := by
    omega
  have centuries : dayOfCycle / 36524 = century := by
    omega
  have cycles : dayOfCycle / 146096 = 0 := by
    omega
  have corrected :
      dayOfCycle - dayOfCycle / 1460 + dayOfCycle / 36524 -
          dayOfCycle / 146096 =
        (100 * century + 4 * fourYears) * 365 +
          (day - (24 * century + fourYears + day) / 1460) := by
    omega
  rw [corrected]
  clear corrected cycles centuries leapDays whole
  omega

/-- A day of a cycle is one of its year. -/
theorem isDayOf_yearOfDay
    {day : Int}
    (nonneg : 0 ≤ day)
    (inCycle : day < 146097) :
    IsDayOf day (yearOfDay day) := by
  by_cases last : day = 146096
  · -- The last day of a cycle is the leap day that a fifth century would begin with.
    subst last
    constructor <;> decide
  · have century : 0 ≤ day / 36524 ∧ day / 36524 ≤ 3 := by
      omega
    have fourYears :
        0 ≤ day % 36524 / 1461 ∧ day % 36524 / 1461 ≤ 24 := by
      omega
    have within :
        0 ≤ day % 36524 % 1461 ∧ day % 36524 % 1461 ≤ 1460 := by
      omega
    have parts :
        36524 * (day / 36524) + 1461 * (day % 36524 / 1461) +
          day % 36524 % 1461 = day := by
      omega
    have below :
        1461 * (day % 36524 / 1461) + day % 36524 % 1461 < 36524 := by
      omega
    have year := yearOfDay_eq century fourYears within below
    rw [parts] at year
    generalize day / 36524 = hundreds at *
    generalize day % 36524 / 1461 = fours at *
    generalize day % 36524 % 1461 = rest at *
    have start :
        startOfYear (yearOfDay day) =
          36524 * hundreds + 1461 * fours + 365 * min (rest / 365) 3 := by
      have leapYears : yearOfDay day / 4 = 25 * hundreds + fours := by
        omega
      have centuries : yearOfDay day / 100 = hundreds := by
        omega
      rw [startOfYear, leapYears, centuries, year]
      omega
    constructor
    · omega
    · omega
    · omega
    · omega
    · intro leapDay
      omega

/-- The date of a day of a month, counted from March, in a year of a cycle. -/
def ofParts (cycle year monthFromMarch day : Int) : CivilDate :=
  let month := if monthFromMarch < 10 then monthFromMarch + 3 else monthFromMarch - 9
  { year := cycle * 400 + year + (if month ≤ 2 then 1 else 0)
    month := month.toNat
    day := day.toNat }

theorem ofDays_eq (days : Int) :
    let cycle := (days + 719468) / 146097
    let dayOfCycle := (days + 719468) % 146097
    let year := yearOfDay dayOfCycle
    let day := dayOfCycle - startOfYear year
    let month := (5 * day + 2) / 153
    ofDays days =
      ofParts cycle year month (day - (153 * month + 2) / 5 + 1) :=
  rfl

section Parts

variable {cycle year month day : Int}

/-- From March to December the year of a date is the one counted from March. -/
theorem ofParts_of_lt (fromMarch : 0 ≤ month) (toDecember : month < 10) :
    ofParts cycle year month day =
      ⟨cycle * 400 + year, (month + 3).toNat, day.toNat⟩ := by
  have later : ¬ month + 3 ≤ 2 := by
    omega
  simp [ofParts, toDecember, later]

/-- In January and February it is the next. -/
theorem ofParts_of_le (fromJanuary : 10 ≤ month) (toFebruary : month ≤ 11) :
    ofParts cycle year month day =
      ⟨cycle * 400 + year + 1, (month - 9).toNat, day.toNat⟩ := by
  have notEarlier : ¬ month < 10 := by
    omega
  have early : month - 9 ≤ 2 := by
    omega
  simp [ofParts, notEarlier, early]

/-- The days to a date are those that it was made of. -/
theorem toDays_ofParts
    (inCycle : 0 ≤ year ∧ year ≤ 399)
    (inYear : 0 ≤ month ∧ month ≤ 11)
    (inMonth : 1 ≤ day) :
    (ofParts cycle year month day).toDays =
      cycle * 146097 + startOfYear year + (153 * month + 2) / 5 + day - 1 -
        719468 := by
  have cycleOf : (cycle * 400 + year) / 400 = cycle := by
    omega
  have yearOf : (cycle * 400 + year) % 400 = year := by
    omega
  have dayOf : (day.toNat : Int) = day :=
    Int.toNat_of_nonneg (by omega)
  by_cases toDecember : month < 10
  · have later : ¬ (month + 3).toNat ≤ 2 := by
      omega
    have monthOf : (((month + 3).toNat : Int) + 9) % 12 = month := by
      omega
    simp only [ofParts_of_lt inYear.1 toDecember, toDays, later, ↓reduceIte,
      cycleOf, yearOf, dayOf, monthOf, startOfYear]
    omega
  · have early : (month - 9).toNat ≤ 2 := by
      omega
    have monthOf : (((month - 9).toNat : Int) + 9) % 12 = month := by
      omega
    simp only [ofParts_of_le (not_lt.mp toDecember) inYear.2, toDays, early,
      ↓reduceIte, add_sub_cancel_right, cycleOf, yearOf, dayOf, monthOf,
      startOfYear]
    omega

/-- A day within its month has a date that exists. -/
theorem exists?_ofParts
    (inYear : 0 ≤ month ∧ month ≤ 11)
    (inMonth :
      1 ≤ day ∧ day ≤ (153 * (month + 1) + 2) / 5 - (153 * month + 2) / 5)
    (february :
      month = 11 →
        day ≤ if isLeapYear (cycle * 400 + year + 1) then 29 else 28) :
    (ofParts cycle year month day).exists? = true := by
  by_cases toDecember : month < 10
  · rw [ofParts_of_lt inYear.1 toDecember]
    simp only [exists?, daysInMonth, Bool.and_eq_true, decide_eq_true_eq]
    obtain ⟨nonneg, -⟩ := inYear
    interval_cases month <;> simp <;> omega
  · rw [ofParts_of_le (not_lt.mp toDecember) inYear.2]
    simp only [exists?, daysInMonth, Bool.and_eq_true, decide_eq_true_eq]
    obtain rfl | rfl : month = 10 ∨ month = 11 := by
      omega
    · simp
      omega
    · have last := february rfl
      simp
      split at last <;> simp_all <;> omega

end Parts

/-- The date of a day is a day of its month. -/
theorem exists?_ofDays (days : Int) :
    (ofDays days).exists? = true := by
  have isDay :
      IsDayOf ((days + 719468) % 146097)
        (yearOfDay ((days + 719468) % 146097)) :=
    isDayOf_yearOfDay (by omega) (by omega)
  have first := isDay.start_le
  have last := isDay.le_end
  rw [ofDays_eq]
  apply exists?_ofParts
  · omega
  · omega
  · intro february
    split
    next => omega
    next notLeap =>
      -- Only a leap year's last day is the 29th of February.
      have notLast :
          (days + 719468) % 146097 ≠
            startOfYear (yearOfDay ((days + 719468) % 146097)) + 365 := by
        intro leapDay
        have leap := isDay.leapDay leapDay
        apply notLeap
        simp only [isLeapYear, Bool.and_eq_true, Bool.or_eq_true, beq_iff_eq,
          bne_iff_ne]
        omega
      omega

/-- The date of a day has the days that it was made of. -/
theorem toDays_ofDays (days : Int) :
    (ofDays days).toDays = days := by
  have isDay :
      IsDayOf ((days + 719468) % 146097)
        (yearOfDay ((days + 719468) % 146097)) :=
    isDayOf_yearOfDay (by omega) (by omega)
  have first := isDay.start_le
  have last := isDay.le_end
  rw [ofDays_eq]
  rw [toDays_ofParts ⟨isDay.year_nonneg, isDay.year_le⟩ (by omega) (by omega)]
  omega

end PatronFees.CivilDate
