import PatronFees.Money
import PatronFees.Proofs.Decimal.Value
import PatronFees.Proofs.Text.Bytes
import Mathlib.Tactic.IntervalCases
import Mathlib.Tactic.Ring

namespace PatronFees.Decimal

/-!
# Decimals that are read as they were written

A decimal is written with every digit of its coefficient, at most 28 of them
behind the point. Reading takes them one by one without outgrowing the
coefficient, so it never comes to a cut.
-/

theorem digit?_digitChar
    {digit : Nat}
    (single : digit < 10) :
    digit? (Nat.digitChar digit) = some digit := by
  interval_cases digit <;> rfl

/-- One more digit is taken where both it and the coefficient have room. -/
theorem scan?_digitChar
    {coefficient digits digit : Nat}
    {begun pastPoint : Bool}
    (room : pastPoint = true → digits < 28)
    (single : digit < 10)
    (fits : coefficient * 10 + digit < twoTo 96)
    (rest : List Char) :
    scan? ⟨coefficient, digits, begun, pastPoint⟩
        (Nat.digitChar digit :: rest) =
      scan?
        ⟨coefficient * 10 + digit, if pastPoint then digits + 1 else 0, true,
          pastPoint⟩
        rest := by
  have notFull :
      Scanned.full ⟨coefficient, digits, begun, pastPoint⟩ = false := by
    cases pastPoint with
    | false =>
        rfl
    | true =>
        have := room rfl
        simp only [Scanned.full, Bool.true_and, beq_eq_false_iff_ne]
        omega
  simp only [scan?, notFull, digit?_digitChar single, Scanned.push?, fits,
    ↓reduceIte, Bool.false_eq_true]

/-- The digits of a whole number are read as that number. -/
theorem scan?_toDigits
    {number : Nat}
    (fits : number < twoTo 96)
    (rest : List Char) :
    scan? .start (Nat.toDigits 10 number ++ rest) =
      scan? ⟨number, 0, true, false⟩ rest := by
  induction number using Nat.strongRecOn generalizing rest with
  | ind number inductionHypothesis =>
      rw [Nat.toDigits_eq_if (by decide)]
      split
      next single =>
        have read := @scan?_digitChar 0 0 number false false (by simp) single
          (by omega) rest
        simpa [Scanned.start] using read
      next several =>
        have shorter : number / 10 < number := by
          omega
        have last : number / 10 * 10 + number % 10 = number := by
          omega
        rw [List.append_assoc,
          inductionHypothesis (number / 10) shorter (by omega)]
        have read := @scan?_digitChar (number / 10) 0 (number % 10) true false
          (by simp) (Nat.mod_lt number (by decide)) (by omega) rest
        rw [last] at read
        exact read

/-- The last digits of a number are read behind those before them. -/
theorem scan?_lastDigits
    {coefficient digits number : Nat}
    (width : Nat)
    (room : digits + width ≤ 28)
    (fits : coefficient * tenTo width + number % tenTo width < twoTo 96)
    (rest : List Char) :
    scan? ⟨coefficient, digits, true, true⟩ (lastDigits width number ++ rest) =
      scan?
        ⟨coefficient * tenTo width + number % tenTo width, digits + width, true,
          true⟩
        rest := by
  induction width generalizing number rest with
  | zero =>
      simp [lastDigits, tenTo, Nat.mod_one]
  | succ width inductionHypothesis =>
      -- The number without its last digit has the digits before that one.
      have last :
          coefficient * tenTo (width + 1) + number % tenTo (width + 1) =
            (coefficient * tenTo width + number / 10 % tenTo width) * 10 +
              number % 10 := by
        rw [show tenTo (width + 1) = 10 * tenTo width from by
          simp only [tenTo, Nat.pow_eq]; ring, Nat.mod_mul]
        ring
      rw [last] at fits
      rw [lastDigits, List.append_assoc,
        inductionHypothesis (by omega) (by omega), List.singleton_append,
        scan?_digitChar (by omega) (Nat.mod_lt number (by decide)) fits, last]
      rfl

/-- The magnitude of a decimal is read as it was written. -/
theorem scan?_magnitude
    {number digits : Nat}
    (fits : number < twoTo 96)
    (room : digits ≤ 28) :
    scan? .start
        (Nat.toDigits 10 (number / tenTo digits) ++
          if digits = 0 then [] else '.' :: lastDigits digits number) =
      some ⟨number, digits⟩ := by
  have whole : number / tenTo digits < twoTo 96 :=
    Nat.lt_of_le_of_lt (Nat.div_le_self _ _) fits
  rw [scan?_toDigits whole]
  split
  next none =>
    subst none
    simp [scan?, Scanned.finish?, tenTo]
  next some =>
    have together :
        number / tenTo digits * tenTo digits + number % tenTo digits =
          number :=
      Nat.div_add_mod' number (tenTo digits)
    have point (rest : List Char) :
        scan? ⟨number / tenTo digits, 0, true, false⟩ ('.' :: rest) =
          scan? ⟨number / tenTo digits, 0, true, true⟩ rest :=
      rfl
    have read := @scan?_lastDigits (number / tenTo digits) 0 number digits
      (by omega) (together.symm ▸ fits) []
    rw [List.append_nil, together] at read
    rw [point, read]
    simp [scan?, Scanned.finish?]

/-- A text that begins with a digit has no sign. -/
theorem splitSign_toDigits
    (number : Nat)
    (rest : List Char) :
    splitSign (Nat.toDigits 10 number ++ rest) =
      (1, Nat.toDigits 10 number ++ rest) := by
  cases digits : Nat.toDigits 10 number with
  | nil =>
      exact absurd digits Nat.toDigits_ne_nil
  | cons first others =>
      have isDigit : first.isDigit :=
        Nat.isDigit_of_mem_toDigits (by decide) (by decide)
          (digits ▸ List.mem_cons_self)
      rw [List.cons_append, splitSign.eq_def]
      split
      next same =>
        obtain rfl := (List.cons.inj same).1
        exact absurd isDigit (by decide)
      next same =>
        obtain rfl := (List.cons.inj same).1
        exact absurd isDigit (by decide)
      next =>
        rfl

/-- A decimal is read as it was written. -/
theorem read?_characters (value : Decimal) :
    read? value.characters = some value := by
  have magnitude := scan?_magnitude value.coefficient_lt value.digits_le
  have plain : plain? value.characters = some value := by
    by_cases negative : value.coefficient < 0
    · have coefficient :
          (-1 : Int) * (value.coefficient.natAbs : Int) = value.coefficient := by
        omega
      simp only [characters, negative, ↓reduceIte, plain?, splitSign,
        List.cons_append, magnitude]
      simp only [Option.bind_eq_bind, Option.bind_some, coefficient, make?,
        value.coefficient_lt, value.digits_le, and_self, ↓reduceDIte]
    · have coefficient :
          (1 : Int) * (value.coefficient.natAbs : Int) = value.coefficient := by
        omega
      simp only [characters, negative, ↓reduceIte, plain?, splitSign_toDigits,
        magnitude]
      simp only [Option.bind_eq_bind, Option.bind_some, coefficient, make?,
        value.coefficient_lt, value.digits_le, and_self, ↓reduceDIte]
  rw [read?, plain]

theorem length_lastDigits (width number : Nat) :
    (lastDigits width number).length = width := by
  induction width generalizing number with
  | zero =>
      rfl
  | succ width inductionHypothesis =>
      simp [lastDigits, inductionHypothesis]

theorem isDigit_of_mem_lastDigits
    {width number : Nat}
    {character : Char}
    (member : character ∈ lastDigits width number) :
    character.isDigit = true := by
  induction width generalizing number with
  | zero =>
      cases member
  | succ width inductionHypothesis =>
      rcases List.mem_append.mp member with before | last
      · exact inductionHypothesis before
      · rw [List.mem_singleton.mp last]
        have single := Nat.mod_lt number (show 0 < 10 by decide)
        interval_cases number % 10 <;> rfl

/-- A decimal is written in digits, with a sign and a point at most. -/
theorem isDigit_of_mem_characters
    {value : Decimal}
    {character : Char}
    (member : character ∈ value.characters) :
    character.isDigit = true ∨ character = '-' ∨ character = '.' := by
  have unsigned
      (among :
        character ∈
          Nat.toDigits 10 (value.coefficient.natAbs / tenTo value.digits) ++
            if value.digits = 0 then
              []
            else
              '.' :: lastDigits value.digits value.coefficient.natAbs) :
      character.isDigit = true ∨ character = '-' ∨ character = '.' := by
    rcases List.mem_append.mp among with whole | fraction
    · exact .inl (Nat.isDigit_of_mem_toDigits (by decide) (by decide) whole)
    · split at fraction
      · cases fraction
      · rcases List.mem_cons.mp fraction with point | digit
        · exact .inr (.inr point)
        · exact .inl (isDigit_of_mem_lastDigits digit)
  simp only [characters] at member
  split at member
  next =>
    rcases List.mem_cons.mp member with minus | among
    · exact .inr (.inl minus)
    · exact unsigned among
  next =>
    exact unsigned member

theorem characters_ne_nil (value : Decimal) :
    value.characters ≠ [] := by
  simp only [characters]
  split <;> simp [Nat.toDigits_ne_nil]

end PatronFees.Decimal

namespace PatronFees

/-- A digit is no blank. -/
theorem Text.isBlank_of_isDigit
    {character : Char}
    (digit : character.isDigit = true) :
    Text.isBlank character = false := by
  simp only [Char.isDigit, Bool.and_eq_true, decide_eq_true_eq,
    UInt32.le_iff_toNat_le] at digit
  have lower : 48 ≤ character.toNat := digit.1
  have upper : character.toNat ≤ 57 := digit.2
  simp only [Text.isBlank, Bool.or_eq_false_iff, Bool.and_eq_false_iff,
    decide_eq_false_iff_not, beq_eq_false_iff_ne]
  omega

/-- A decimal is written without blanks. -/
theorem Decimal.isBlank_of_mem_characters
    {value : Decimal}
    {character : Char}
    (member : character ∈ value.characters) :
    Text.isBlank character = false := by
  rcases isDigit_of_mem_characters member with digit | rfl | rfl
  · exact Text.isBlank_of_isDigit digit
  · rfl
  · rfl

namespace Money

/-- The amount as it is after it was written: the value before rounding is lost. -/
def settled (money : Money) : Money :=
  { money with unrounded := money.amount }

/-- What amounts were before they were rounded takes no part in their sum. -/
theorem sum_map_settled
    (amounts : List Money)
    (scale : Nat) :
    sum (amounts.map settled) scale = sum amounts scale := by
  rw [sum, sum, List.foldlM_map]
  rfl

/-- A filled amount is at its scale already. -/
theorem ofDecimal_amount (money : Money) :
    ofDecimal money.amount money.scale = money.settled := by
  have scale : min money.scale maxScale = money.scale :=
    Nat.min_eq_left money.scale_le
  have padded :
      money.amount.padded (money.scale - money.amount.digits) = money.amount := by
    rcases money.filled with reached | full
    · rw [reached, Nat.sub_self]
      rfl
    · cases money.scale - money.amount.digits with
      | zero =>
          rfl
      | succ count =>
          rw [Decimal.padded, dif_neg]
          rintro ⟨fits, -⟩
          rw [Int.natAbs_mul] at fits
          exact absurd fits (Nat.not_lt.mpr full)
  have amount :
      money.amount.atScale .halfEven money.scale = money.amount := by
    rw [Decimal.atScale,
      Decimal.rounded_of_digits_le .halfEven money.digits_le, padded]
  simp only [ofDecimal, roundedBy, settled, amount, scale]

theorem trim_text (money : Money) :
    Text.trim money.text.toList = money.amount.characters := by
  rw [text, Decimal.text, String.toList_ofList]
  apply Text.trim_eq_self
  · exact fun _ first =>
      Decimal.isBlank_of_mem_characters (List.mem_of_mem_head? first)
  · exact fun _ last =>
      Decimal.isBlank_of_mem_characters (List.mem_of_mem_getLast? last)

/-- An amount is read at its scale as it was written. -/
theorem read_text (money : Money) :
    read money.text money.scale = .ok money.settled := by
  rw [read, trim_text, Decimal.read?_characters]
  exact congrArg Except.ok money.ofDecimal_amount

theorem trimmed_text (money : Money) :
    Text.trimmed money.text = money.text := by
  rw [Text.trimmed, trim_text]
  rfl

theorem text_ne_empty (money : Money) :
    money.text ≠ "" := by
  intro empty
  apply money.amount.characters_ne_nil
  rw [← money.trim_text, empty]
  rfl

end Money

end PatronFees
