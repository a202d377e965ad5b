import PatronFees.Proofs.Timestamp.Text

namespace PatronFees.Timestamp

/-!
# Timestamps that are read are on the clock

A fraction that is read is less than a second, and an offset is a whole number of
minutes. So a leap second that is read follows the last second of a minute.
-/

theorem digitOfByte?_lt
    {byte : UInt8}
    {digit : Nat}
    (isDigit : digitOfByte? byte = some digit) :
    digit < 10 := by
  rw [digitOfByte?] at isDigit
  split at isDigit
  next inRange =>
    obtain rfl := Option.some.inj isDigit
    omega
  next =>
    cases isDigit

theorem lt_of_mem_leadingDigits
    {bytes : List UInt8}
    {digit : Nat}
    (member : digit ∈ (leadingDigits bytes).1) :
    digit < 10 := by
  induction bytes with
  | nil =>
      cases member
  | cons byte rest inductionHypothesis =>
      rw [leadingDigits] at member
      cases isDigit : digitOfByte? byte with
      | none =>
          rw [isDigit] at member
          cases member
      | some first =>
          rw [isDigit] at member
          rcases List.mem_cons.mp member with rfl | behind
          · exact digitOfByte?_lt isDigit
          · exact inductionHypothesis behind

/-- Digits behind a number make it less than the next one followed by as many zeros. -/
theorem foldl_digits_lt
    {digits : List Nat}
    (single : ∀ digit ∈ digits, digit < 10)
    (start : Nat) :
    digits.foldl (fun total digit => total * 10 + digit) start <
      (start + 1) * 10 ^ digits.length := by
  induction digits generalizing start with
  | nil =>
      simp
  | cons digit rest inductionHypothesis =>
      have first := single digit List.mem_cons_self
      have others := inductionHypothesis
        (fun other member => single other (List.mem_cons_of_mem digit member))
        (start * 10 + digit)
      calc
        (digit :: rest).foldl (fun total digit => total * 10 + digit) start
          < (start * 10 + digit + 1) * 10 ^ rest.length := others
        _ ≤ (start + 1) * 10 * 10 ^ rest.length :=
          Nat.mul_le_mul_right _ (by omega)
        _ = (start + 1) * 10 ^ (digit :: rest).length := by
          rw [List.length_cons, Nat.pow_succ', Nat.mul_assoc]

/-- A fraction that is read is less than a second. -/
theorem readFraction_lt
    {bytes rest : List UInt8}
    {nanoseconds : Nat}
    (read : readFraction bytes = .ok (nanoseconds, rest)) :
    nanoseconds < 1000000000 := by
  rw [readFraction.eq_def] at read
  split at read
  next behind =>
    rcases leads : leadingDigits behind with ⟨digits, after⟩
    simp only [leads] at read
    split at read
    next =>
      cases read
    next =>
      obtain ⟨rfl, -⟩ := Prod.mk.inj (Except.ok.inj read)
      have single :
          ∀ digit ∈ (digits ++ List.replicate 9 0).take 9, digit < 10 := by
        intro digit member
        rcases List.mem_append.mp (List.mem_of_mem_take member) with leading | zero
        · have among : digit ∈ (leadingDigits behind).1 := by
            rwa [leads]
          exact lt_of_mem_leadingDigits among
        · rw [List.eq_of_mem_replicate zero]
          decide
      have nine : ((digits ++ List.replicate 9 0).take 9).length = 9 := by
        simp
      have less := foldl_digits_lt single 0
      rw [nine] at less
      exact less
  next =>
    obtain ⟨rfl, -⟩ := Prod.mk.inj (Except.ok.inj read)
    decide

theorem dvd_of_readOffsetSize
    {bytes rest : List UInt8}
    {offset : Int}
    (read : readOffsetSize bytes = .ok (offset, rest)) :
    60 ∣ offset := by
  obtain ⟨⟨hours, afterHours⟩, -, read⟩ := Outcome.bind_eq_ok_iff.mp read
  obtain ⟨afterColon, -, read⟩ := Outcome.bind_eq_ok_iff.mp read
  obtain ⟨⟨minutes, last⟩, -, read⟩ := Outcome.bind_eq_ok_iff.mp read
  dsimp only at read
  split at read
  next =>
    cases read
  next =>
    obtain ⟨rfl, -⟩ := Prod.mk.inj (Except.ok.inj read)
    omega

/-- An offset that is read is a whole number of minutes. -/
theorem dvd_of_readOffset
    {bytes rest : List UInt8}
    {offset : Int}
    (read : readOffset bytes = .ok (offset, rest)) :
    60 ∣ offset := by
  have west
      {others : List UInt8}
      (read :
        (readOffsetSize others >>= fun sized => .ok (-sized.1, sized.2)) =
          Except.ok (offset, rest)) :
      60 ∣ offset := by
    obtain ⟨⟨size, after⟩, sized, same⟩ := Outcome.bind_eq_ok_iff.mp read
    obtain ⟨rfl, -⟩ := Prod.mk.inj (Except.ok.inj same)
    exact Int.dvd_neg.mpr (dvd_of_readOffsetSize sized)
  rw [readOffset.eq_def] at read
  split at read
  next =>
    cases read
  next =>
    obtain ⟨rfl, -⟩ := Prod.mk.inj (Except.ok.inj read)
    exact Int.dvd_zero 60
  next =>
    obtain ⟨rfl, -⟩ := Prod.mk.inj (Except.ok.inj read)
    exact Int.dvd_zero 60
  next =>
    exact dvd_of_readOffsetSize read
  next =>
    exact west read
  next =>
    exact west read
  next =>
    cases read

theorem isOnClock_ofCivil
    {time : TimeOfDay}
    {nanoseconds : Nat}
    {offset : Int}
    (exists_ : time.exists? = true)
    (fraction : nanoseconds < 1000000000)
    (minutes : 60 ∣ offset)
    (date : CivilDate) :
    (ofCivil date time nanoseconds offset).IsOnClock := by
  simp only [TimeOfDay.exists?, Bool.and_eq_true, decide_eq_true_eq] at exists_
  simp only [IsOnClock, ofCivil]
  omega

/-- A timestamp that is read is on the clock. -/
theorem isOnClock_of_read
    {text : String}
    {timestamp : Timestamp}
    (read : read text = .ok timestamp) :
    timestamp.IsOnClock := by
  rw [Timestamp.read, readBytes] at read
  split at read
  next =>
    cases read
  next =>
    obtain ⟨⟨date, afterDate⟩, -, read⟩ := Outcome.bind_eq_ok_iff.mp read
    obtain ⟨afterSeparator, -, read⟩ := Outcome.bind_eq_ok_iff.mp read
    obtain ⟨⟨time, afterTime⟩, -, read⟩ := Outcome.bind_eq_ok_iff.mp read
    obtain ⟨⟨nanoseconds, afterFraction⟩, fraction, read⟩ :=
      Outcome.bind_eq_ok_iff.mp read
    dsimp only at read
    split at read
    next =>
      cases read
    next exists_ =>
      obtain ⟨⟨offset, rest⟩, minutes, read⟩ := Outcome.bind_eq_ok_iff.mp read
      dsimp only at read
      split at read
      next =>
        cases read
      next =>
        split at read
        next =>
          cases read
        next =>
          obtain rfl := Except.ok.inj read
          exact isOnClock_ofCivil (by simpa using exists_)
            (readFraction_lt fraction) (dvd_of_readOffset minutes) date

/-- The fraction of a second is not written. -/
theorem text_cut (timestamp : Timestamp) :
    timestamp.cut.text .seconds = timestamp.text .seconds := by
  simp [text, characters, cut, fractionCharacters]

theorem cut_cut (timestamp : Timestamp) :
    timestamp.cut.cut = timestamp.cut :=
  cut_of_isWhole (Nat.mul_mod_left _ _)

end PatronFees.Timestamp
