import PatronFees.Decimal.Reading
import PatronFees.Proofs.Decimal.Value
import Mathlib.Algebra.Order.Field.Rat
import Mathlib.Tactic.FieldSimp
import Mathlib.Tactic.Linarith
import Mathlib.Tactic.NormNum
import Mathlib.Tactic.Positivity
import Mathlib.Tactic.Ring

namespace PatronFees.Decimal

/-!
# The number that a text denotes

A text denotes an exact number, however many digits it has. The decimal that is
read for it is that number, or was cut: at 28 places or within a digit of the
bound of its coefficient. A cut decimal is less than one last place off.
-/

theorem cast_tenTo (exponent : Nat) :
    ((tenTo exponent : Nat) : ℚ) = 10 ^ exponent := by
  simp [tenTo]

/-- The number that a decimal is. -/
def number (value : Decimal) : ℚ :=
  value.coefficient / 10 ^ value.digits

/-- The number that a magnitude is. -/
def Magnitude.number (magnitude : Magnitude) : ℚ :=
  magnitude.coefficient / 10 ^ magnitude.digits

/-- The digits of a plain decimal as one number, and how many are behind the point. -/
structure Tally where
  number : Nat
  places : Nat
  pastPoint : Bool
  deriving DecidableEq

namespace Tally

def start : Tally :=
  ⟨0, 0, false⟩

/-- Count one more character: a digit, the point, or one that means nothing. -/
def take
    (tally : Tally)
    (character : Char) :
    Tally :=
  match digit? character with
  | some digit =>
      ⟨tally.number * 10 + digit, if tally.pastPoint then tally.places + 1 else 0,
        tally.pastPoint⟩
  | none =>
      if character = '.' then { tally with pastPoint := true } else tally

/-- The number tallied, in full. -/
def value (tally : Tally) : ℚ :=
  tally.number / 10 ^ tally.places

end Tally

/-- All digits of a plain decimal. -/
def plainTally (characters : List Char) : Tally :=
  (splitSign characters).2.foldl Tally.take .start

/-- The number that a plain decimal denotes. -/
def plainNumber (characters : List Char) : ℚ :=
  (splitSign characters).1 * (plainTally characters).value

/-- The power of ten that an exponent denotes; nothing denotes no power. -/
def exponentNumber (characters : List Char) : Int :=
  match characters with
  | '-' :: rest => -(rest.foldl Tally.take .start).number
  | _ => (characters.foldl Tally.take .start).number

/-- The number that a text denotes. -/
def denoted (characters : List Char) : ℚ :=
  plainNumber (characters.takeWhile (!isExponentMark ·)) *
    10 ^ exponentNumber (characters.dropWhile (!isExponentMark ·)).tail

theorem digit?_lt
    {character : Char}
    {digit : Nat}
    (read : digit? character = some digit) :
    digit < 10 := by
  simp only [digit?, Option.ite_none_right_eq_some, Option.some.injEq, Char.isDigit,
    Bool.and_eq_true, decide_eq_true_eq, UInt32.le_iff_toNat_le] at read
  have upper : character.toNat ≤ 57 := read.1.2
  have zero : '0'.toNat = 48 := rfl
  omega

namespace Tally

variable {tally : Tally} {character : Char} {rest : List Char}

/-- Where only digits and underscores follow, a character is a digit or is passed over. -/
theorem take_of_idle
    (idle : isIdle character = true) :
    (∃ digit,
      digit < 10 ∧ digit? character = some digit ∧
        tally.take character =
          ⟨tally.number * 10 + digit,
            if tally.pastPoint then tally.places + 1 else 0, tally.pastPoint⟩) ∨
      digit? character = none ∧ tally.take character = tally := by
  cases read : digit? character with
  | some digit =>
      exact .inl ⟨digit, digit?_lt read, rfl, by simp only [take, read]⟩
  | none =>
      have underscore : character = '_' := by
        by_contra other
        simp only [isIdle, Bool.or_eq_true, beq_iff_eq, other, or_false] at idle
        simp [digit?, idle] at read
      subst underscore
      exact .inr ⟨rfl, rfl⟩

theorem pastPoint_take_of_idle
    (idle : isIdle character = true) :
    (tally.take character).pastPoint = tally.pastPoint := by
  rcases take_of_idle idle with ⟨_, _, _, taken⟩ | ⟨_, taken⟩ <;> rw [taken]

/-- A digit behind the point adds so many parts of the next place. -/
theorem value_take_of_idle
    (pastPoint : tally.pastPoint = true)
    (idle : isIdle character = true) :
    (tally.take character).value =
      tally.value +
        ((digit? character).getD 0 : Nat) / 10 ^ (tally.places + 1) := by
  rcases take_of_idle idle with ⟨digit, -, read, taken⟩ | ⟨read, taken⟩
  · rw [taken, read, Option.getD_some, if_pos pastPoint]
    simp only [value, pow_succ]
    push_cast
    field_simp
  · rw [taken, read, Option.getD_none, Nat.cast_zero, zero_div, add_zero]

/-- A tally's number never becomes less. -/
theorem number_le_foldl (tally : Tally) (characters : List Char) :
    tally.number ≤ (characters.foldl take tally).number := by
  induction characters generalizing tally with
  | nil =>
      exact Nat.le_refl _
  | cons character rest inductionHypothesis =>
      refine Nat.le_trans ?_ (inductionHypothesis (tally.take character))
      simp only [take]
      split
      · simp only
        omega
      · split <;> exact Nat.le_refl _

/-- Behind the point digits and underscores add places, and less than one last place. -/
theorem foldl_of_idle
    (pastPoint : tally.pastPoint = true)
    (idle : ∀ other ∈ rest, isIdle other = true) :
    tally.places ≤ (rest.foldl take tally).places ∧
      ((rest.foldl take tally).places = tally.places →
        rest.foldl take tally = tally) ∧
      tally.value ≤ (rest.foldl take tally).value ∧
      (rest.foldl take tally).value < tally.value + 1 / 10 ^ tally.places := by
  induction rest generalizing tally with
  | nil =>
      refine ⟨Nat.le_refl _, fun _ => rfl, le_refl _, ?_⟩
      have positive : (0 : ℚ) < 1 / 10 ^ tally.places := by positivity
      exact lt_add_of_pos_right _ positive
  | cons character rest inductionHypothesis =>
      obtain ⟨first, restIdle⟩ := List.forall_mem_cons.mp idle
      rw [List.foldl_cons]
      rcases take_of_idle first with ⟨digit, single, read, taken⟩ | ⟨-, taken⟩
      · have longer := value_take_of_idle pastPoint first
        rw [taken, read, Option.getD_some, if_pos pastPoint] at longer
        rw [taken, if_pos pastPoint]
        obtain ⟨more, -, atLeast, below⟩ :=
          @inductionHypothesis
            ⟨tally.number * 10 + digit, tally.places + 1, tally.pastPoint⟩
            pastPoint restIdle
        simp only at more below
        have tenth :
            (1 : ℚ) / 10 ^ tally.places = 10 / 10 ^ (tally.places + 1) := by
          rw [pow_succ]
          field_simp
        have atMost :
            (digit : ℚ) / 10 ^ (tally.places + 1) + 1 / 10 ^ (tally.places + 1) ≤
              10 / 10 ^ (tally.places + 1) := by
          rw [← add_div]
          gcongr
          exact_mod_cast single
        have nonneg : (0 : ℚ) ≤ digit / 10 ^ (tally.places + 1) := by positivity
        refine ⟨by omega, fun same => by omega, ?_, ?_⟩
        · linarith
        · linarith
      · rw [taken]
        exact inductionHypothesis pastPoint restIdle

end Tally

/-- A cut magnitude is left, or goes up by one, or by one with a place less. -/
theorem roundedBy?_cases
    {coefficient digits dropped : Nat}
    {result : Magnitude}
    (rounded : Magnitude.roundedBy? ⟨coefficient, digits⟩ dropped = some result) :
    dropped < 5 ∧ result = ⟨coefficient, digits⟩ ∨
      5 ≤ dropped ∧ result = ⟨coefficient + 1, digits⟩ ∨
      ∃ fewer,
        5 ≤ dropped ∧ twoTo 96 ≤ coefficient + 1 ∧ digits = fewer + 1 ∧
          result = ⟨(coefficient + 5) / 10, fewer⟩ := by
  rw [Magnitude.roundedBy?] at rounded
  split at rounded
  next below =>
    exact .inl ⟨below, (Option.some.inj rounded).symm⟩
  next above =>
    split at rounded
    next =>
      exact .inr (.inl ⟨by omega, (Option.some.inj rounded).symm⟩)
    next full =>
      split at rounded
      next =>
        cases rounded
      next places =>
        obtain ⟨fewer, same⟩ := Nat.exists_eq_succ_of_ne_zero places
        obtain rfl : digits = fewer + 1 := same
        exact .inr (.inr
          ⟨fewer, by omega, Nat.le_of_not_lt full, rfl,
            (Option.some.inj rounded).symm⟩)

/--
A magnitude that is rounded by the first digit cut off is less than one last place
off a number that goes on with that digit.
-/
theorem near_of_roundedBy?
    {coefficient digits dropped : Nat}
    {result : Magnitude}
    {number : ℚ}
    (rounded : Magnitude.roundedBy? ⟨coefficient, digits⟩ dropped = some result)
    (atLeast :
      (coefficient : ℚ) / 10 ^ digits + dropped / 10 ^ (digits + 1) ≤ number)
    (below : number < (coefficient : ℚ) / 10 ^ digits + 1 / 10 ^ digits) :
    |result.number - number| < 1 / 10 ^ result.digits := by
  have place : (0 : ℚ) < 1 / 10 ^ digits := by positivity
  have parts : (0 : ℚ) ≤ dropped / 10 ^ (digits + 1) := by positivity
  have someParts (above : 5 ≤ dropped) : (0 : ℚ) < dropped / 10 ^ (digits + 1) := by
    have positive : 0 < dropped := by omega
    positivity
  rcases roundedBy?_cases rounded with
      ⟨-, rfl⟩ | ⟨above, rfl⟩ | ⟨fewer, above, -, rfl, rfl⟩
  · rw [Magnitude.number, abs_lt]
    constructor <;> linarith
  · have more := someParts above
    rw [Magnitude.number, Nat.cast_add, Nat.cast_one, add_div, abs_lt]
    constructor <;> linarith
  · -- The number is rounded to tens of the place that it had.
    have more := someParts above
    have tenfold : (1 : ℚ) / 10 ^ fewer = 10 * (1 / 10 ^ (fewer + 1)) := by
      rw [pow_succ]
      field_simp
    have shorter :
        Magnitude.number ⟨(coefficient + 5) / 10, fewer⟩ =
          ((coefficient + 5) / 10 * 10 : Nat) * (1 / 10 ^ (fewer + 1)) := by
      rw [Magnitude.number, pow_succ, Nat.cast_mul, Nat.cast_ofNat]
      field_simp
    have atMost : (((coefficient + 5) / 10 * 10 : Nat) : ℚ) ≤ coefficient + 5 := by
      exact_mod_cast Nat.div_mul_le_self _ _
    have least : (coefficient : ℚ) ≤ ((coefficient + 5) / 10 * 10 : Nat) + 4 := by
      have : coefficient ≤ (coefficient + 5) / 10 * 10 + 4 := by omega
      exact_mod_cast this
    have atMostParts := mul_le_mul_of_nonneg_right atMost place.le
    have leastParts := mul_le_mul_of_nonneg_right least place.le
    rw [add_mul, mul_one_div (coefficient : ℚ)] at atMostParts leastParts
    rw [shorter, tenfold, abs_lt]
    constructor <;> linarith

/--
A magnitude that was cut before a character.

What was tallied until then has all its places, or has no room for the character.
-/
structure CutBefore
    (tally : Tally)
    (character : Char)
    (rest : List Char)
    (magnitude : Magnitude) : Prop where
  pastPoint : tally.pastPoint = true
  limit : tally.places = 28 ∨ twoTo 96 ≤ (tally.take character).number
  idle : ∀ other ∈ character :: rest, isIdle other = true
  rounded :
    Magnitude.roundedBy? ⟨tally.number, tally.places⟩
        ((digit? character).getD 0) =
      some magnitude

namespace CutBefore

variable {tally : Tally} {character : Char} {rest : List Char}
  {magnitude : Magnitude}

/-- A cut magnitude has all its places, or is within a digit of the bound. -/
theorem filled (cut : CutBefore tally character rest magnitude) :
    magnitude.digits = 28 ∨ twoTo 96 ≤ magnitude.coefficient * 10 := by
  have taken :
      (tally.take character).number ≤
        tally.number * 10 + (digit? character).getD 0 := by
    rcases Tally.take_of_idle (cut.idle character List.mem_cons_self) with
        ⟨digit, -, read, taken⟩ | ⟨-, taken⟩
    · rw [taken, read]
      exact Nat.le_refl _
    · rw [taken]
      omega
  have single : (digit? character).getD 0 < 10 := by
    cases read : digit? character with
    | some digit => exact digit?_lt read
    | none => exact Nat.succ_pos 9
  have bound : twoTo 96 = 79228162514264337593543950336 := rfl
  have limit := cut.limit
  rcases roundedBy?_cases cut.rounded with
      ⟨below, rfl⟩ | ⟨above, rfl⟩ | ⟨fewer, above, full, places, rfl⟩
  · simp only
    omega
  · simp only
    omega
  · simp only
    omega

/-- What is cut off is at least the first digit of it, and less than one place. -/
theorem between (cut : CutBefore tally character rest magnitude) :
    tally.value + ((digit? character).getD 0 : Nat) / 10 ^ (tally.places + 1) ≤
        ((character :: rest).foldl Tally.take tally).value ∧
      ((character :: rest).foldl Tally.take tally).value <
        tally.value + 1 / 10 ^ tally.places := by
  obtain ⟨first, others⟩ := List.forall_mem_cons.mp cut.idle
  obtain ⟨-, -, -, below⟩ := Tally.foldl_of_idle cut.pastPoint cut.idle
  obtain ⟨-, -, atLeast, -⟩ :=
    Tally.foldl_of_idle
      ((Tally.pastPoint_take_of_idle first).trans cut.pastPoint) others
  rw [Tally.value_take_of_idle cut.pastPoint first] at atLeast
  exact ⟨atLeast, below⟩

/-- A cut magnitude is less than one last place off. -/
theorem near (cut : CutBefore tally character rest magnitude) :
    |magnitude.number - ((character :: rest).foldl Tally.take tally).value| <
      1 / 10 ^ magnitude.digits :=
  near_of_roundedBy? cut.rounded cut.between.1 cut.between.2

/-- A cut leaves out no digit unless there are more places or one outgrows the bound. -/
theorem eq_of_fits
    (cut : CutBefore tally character rest magnitude)
    (places : ((character :: rest).foldl Tally.take tally).places ≤ 28)
    (fits : ((character :: rest).foldl Tally.take tally).number < twoTo 96) :
    magnitude.coefficient = ((character :: rest).foldl Tally.take tally).number ∧
      magnitude.digits = ((character :: rest).foldl Tally.take tally).places := by
  have roomy : ¬ twoTo 96 ≤ (tally.take character).number := by
    have grown := (tally.take character).number_le_foldl rest
    rw [List.foldl_cons] at fits
    omega
  have limit := cut.limit.resolve_right roomy
  obtain ⟨more, same, -, -⟩ := Tally.foldl_of_idle cut.pastPoint cut.idle
  rw [same (by omega)]
  -- Without a further place it was cut before an underscore.
  have dropped : (digit? character).getD 0 = 0 := by
    have first := cut.idle character List.mem_cons_self
    rcases Tally.take_of_idle first with ⟨digit, -, -, taken⟩ | ⟨none, -⟩
    · have longer : (tally.take character).places = tally.places + 1 := by
        rw [taken, if_pos cut.pastPoint]
      have further :=
        (Tally.foldl_of_idle
          ((Tally.pastPoint_take_of_idle first).trans cut.pastPoint)
          (List.forall_mem_cons.mp cut.idle).2).1
      rw [← List.foldl_cons] at further
      omega
    · rw [none]
      rfl
  rcases roundedBy?_cases cut.rounded with
      ⟨-, rfl⟩ | ⟨above, -⟩ | ⟨_, above, -⟩
  · exact ⟨rfl, rfl⟩
  · omega
  · omega

end CutBefore

section Scan

variable {scanned : Scanned} {magnitude : Magnitude} {character : Char}
  {characters rest : List Char}

/-- What has been read, as it is tallied. -/
def Scanned.tally (scanned : Scanned) : Tally :=
  ⟨scanned.coefficient, scanned.digits, scanned.pastPoint⟩

theorem isDigit_of_digit?
    {digit : Nat}
    (read : digit? character = some digit) :
    character.isDigit = true :=
  (Option.ite_none_right_eq_some.mp read).1

theorem isExponentMark_of_isIdle
    (idle : isIdle character = true) :
    isExponentMark character = false := by
  by_contra mark
  rw [Bool.not_eq_false, isExponentMark, Bool.or_eq_true, beq_iff_eq,
    beq_iff_eq] at mark
  rcases mark with rfl | rfl <;> exact absurd idle (by decide)

theorem cutBefore_of_cut?
    (pastPoint : scanned.pastPoint = true)
    (limit :
      scanned.digits = 28 ∨ twoTo 96 ≤ (scanned.tally.take character).number)
    (found : cut? scanned character rest = some magnitude) :
    CutBefore scanned.tally character rest magnitude := by
  rw [cut?, Option.ite_none_right_eq_some, Bool.and_eq_true, List.all_eq_true] at found
  obtain ⟨⟨first, others⟩, rounded⟩ := found
  exact ⟨pastPoint, limit, List.forall_mem_cons.mpr ⟨first, others⟩, rounded⟩

/-- A character is tallied or passed over, or the magnitude is cut before it. -/
theorem scan?_cons_cases
    (found : scan? scanned (character :: rest) = some magnitude) :
    (∃ next : Scanned,
      next.tally = scanned.tally.take character ∧
        isExponentMark character = false ∧
        scan? next rest = some magnitude) ∨
      CutBefore scanned.tally character rest magnitude := by
  rw [scan?] at found
  split at found
  next full =>
    rw [Scanned.full, Bool.and_eq_true, beq_iff_eq] at full
    split at found
    next wide =>
      obtain rfl := wide.1
      exact .inl ⟨scanned, rfl, rfl, found⟩
    next =>
      exact .inr (cutBefore_of_cut? full.1 (.inl full.2) found)
  next =>
    split at found
    next digit read =>
      have taken :
          scanned.tally.take character =
            ⟨scanned.coefficient * 10 + digit,
              if scanned.pastPoint then scanned.digits + 1 else 0,
              scanned.pastPoint⟩ := by
        rw [Tally.take, read]
        rfl
      have noMark : isExponentMark character = false := by
        apply isExponentMark_of_isIdle
        rw [isIdle, isDigit_of_digit? read, Bool.true_or]
      split at found
      next longer pushed =>
        rw [Scanned.push?, Option.ite_none_right_eq_some] at pushed
        obtain ⟨-, pushed⟩ := pushed
        obtain rfl := Option.some.inj pushed
        refine .inl ⟨_, ?_, noMark, found⟩
        exact taken.symm
      next refused =>
        split at found
        next pastPoint =>
          rw [Scanned.push?, ite_eq_right_iff] at refused
          have noRoom : twoTo 96 ≤ scanned.coefficient * 10 + digit :=
            Nat.not_lt.mp fun fits => nomatch refused fits
          exact .inr (cutBefore_of_cut? pastPoint (.inr (taken ▸ noRoom)) found)
        next =>
          cases found
    next =>
      split at found
      next point =>
        obtain rfl := point.1
        exact .inl ⟨_, rfl, rfl, found⟩
      next =>
        split at found
        next underscore =>
          obtain rfl := underscore.1
          exact .inl ⟨scanned, rfl, rfl, found⟩
        next =>
          cases found

/-- What is read of a text is all that was tallied, or was cut. -/
theorem scan?_cases
    (found : scan? scanned characters = some magnitude) :
    (magnitude.coefficient = (characters.foldl Tally.take scanned.tally).number ∧
      magnitude.digits = (characters.foldl Tally.take scanned.tally).places) ∨
      ∃ front character rest,
        characters = front ++ character :: rest ∧
          CutBefore (front.foldl Tally.take scanned.tally) character rest
            magnitude := by
  induction characters generalizing scanned with
  | nil =>
      rw [scan?, Scanned.finish?, Option.ite_none_right_eq_some] at found
      obtain rfl := Option.some.inj found.2
      exact .inl ⟨rfl, rfl⟩
  | cons character rest inductionHypothesis =>
      rcases scan?_cons_cases found with ⟨next, taken, -, continued⟩ | cut
      · have remaining := inductionHypothesis continued
        rw [taken] at remaining
        refine remaining.imp_right ?_
        rintro ⟨front, before, behind, rfl, cut⟩
        exact ⟨character :: front, before, behind, rfl, cut⟩
      · exact .inr ⟨[], character, rest, rfl, cut⟩

/--
What is read of a text is the number tallied or within a digit of a limit, and
less than one last place off.
-/
theorem scan?_near
    (found : scan? scanned characters = some magnitude) :
    |magnitude.number - (characters.foldl Tally.take scanned.tally).value| <
        1 / 10 ^ magnitude.digits ∧
      (magnitude.number = (characters.foldl Tally.take scanned.tally).value ∨
        magnitude.digits = 28 ∨ twoTo 96 ≤ magnitude.coefficient * 10) := by
  rcases scan?_cases found with ⟨coefficient, digits⟩ | ⟨front, before, rest, rfl, cut⟩
  · have exactly :
        magnitude.number = (characters.foldl Tally.take scanned.tally).value := by
      rw [Magnitude.number, Tally.value, coefficient, digits]
    refine ⟨?_, .inl exactly⟩
    rw [exactly, sub_self, abs_zero]
    positivity
  · rw [List.foldl_append]
    exact ⟨cut.near, .inr cut.filled⟩

/-- Of at most 28 places, in range, every digit is read. -/
theorem scan?_of_fits
    (found : scan? scanned characters = some magnitude)
    (places : (characters.foldl Tally.take scanned.tally).places ≤ 28)
    (fits : (characters.foldl Tally.take scanned.tally).number < twoTo 96) :
    magnitude.coefficient = (characters.foldl Tally.take scanned.tally).number ∧
      magnitude.digits = (characters.foldl Tally.take scanned.tally).places := by
  rcases scan?_cases found with all | ⟨front, before, rest, rfl, cut⟩
  · exact all
  · rw [List.foldl_append] at places fits ⊢
    exact cut.eq_of_fits places fits

/-- A plain decimal has no exponent. -/
theorem isExponentMark_of_scan?
    (found : scan? scanned characters = some magnitude) :
    ∀ character ∈ characters, isExponentMark character = false := by
  induction characters generalizing scanned with
  | nil =>
      exact fun _ member => nomatch member
  | cons character rest inductionHypothesis =>
      rcases scan?_cons_cases found with ⟨next, -, noMark, continued⟩ | cut
      · exact List.forall_mem_cons.mpr ⟨noMark, inductionHypothesis continued⟩
      · exact fun other member => isExponentMark_of_isIdle (cut.idle other member)

end Scan

end PatronFees.Decimal
