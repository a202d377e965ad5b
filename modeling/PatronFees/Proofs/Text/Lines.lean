import PatronFees.Proofs.Text.Bytes
import PatronFees.Text.Pieces
import Mathlib.Algebra.BigOperators.Group.List.Basic
import Mathlib.Algebra.Order.Ring.Int

namespace PatronFees.Text

/-!
# Lines of a text

The pieces between separators can be read off where texts are put together. Ink,
the characters that are no blanks, is neither lost nor made when a text is trimmed
or cut at a blank, so that it tells a whole text from one of its lines.
-/

section Pieces

variable {separator : Char}

theorem pieces_ne_nil (text : List Char) :
    pieces separator text ≠ [] := by
  cases text with
  | nil =>
      exact List.cons_ne_nil _ _
  | cons character rest =>
      rw [pieces]
      split
      next =>
        exact List.cons_ne_nil _ _
      next =>
        split <;> exact List.cons_ne_nil _ _

/-- A separator ends the first piece. -/
theorem pieces_cons_separator (rest : List Char) :
    pieces separator (separator :: rest) = [] :: pieces separator rest := by
  rw [pieces, if_pos rfl]

/-- Any other character belongs to the first piece. -/
theorem pieces_cons_of_ne
    {character : Char}
    (other : character ≠ separator)
    (rest : List Char) :
    pieces separator (character :: rest) =
      (pieces separator rest).modifyHead (character :: ·) := by
  rw [pieces, if_neg other]
  cases cut : pieces separator rest with
  | nil =>
      exact (pieces_ne_nil rest cut).elim
  | cons first others =>
      rfl

/-- So do several characters. -/
theorem pieces_append_of_not_mem
    {front : List Char}
    (without : separator ∉ front)
    (text : List Char) :
    pieces separator (front ++ text) =
      (pieces separator text).modifyHead (front ++ ·) := by
  induction front with
  | nil =>
      rw [List.nil_append]
      cases cut : pieces separator text with
      | nil =>
          exact (pieces_ne_nil text cut).elim
      | cons piece others =>
          rfl
  | cons character rest inductionHypothesis =>
      rw [List.mem_cons, not_or] at without
      rw [List.cons_append, pieces_cons_of_ne (Ne.symm without.1),
        inductionHypothesis without.2, List.modifyHead_modifyHead]
      rfl

/-- Texts on both sides of a separator have their pieces each. -/
theorem pieces_append_separator (first second : List Char) :
    pieces separator (first ++ separator :: second) =
      pieces separator first ++ pieces separator second := by
  induction first with
  | nil =>
      exact pieces_cons_separator second
  | cons character rest inductionHypothesis =>
      rw [List.cons_append]
      by_cases same : character = separator
      · subst same
        rw [pieces_cons_separator, pieces_cons_separator, inductionHypothesis]
        rfl
      · rw [pieces_cons_of_ne same, pieces_cons_of_ne same, inductionHypothesis]
        cases cut : pieces separator rest with
        | nil =>
            exact (pieces_ne_nil rest cut).elim
        | cons piece others =>
            rfl

/-- The first piece is what stands before the first separator. -/
theorem pieces_eq (text : List Char) :
    pieces separator text =
      text.takeWhile (· ≠ separator) :: (pieces separator text).tail := by
  induction text with
  | nil =>
      rfl
  | cons character rest inductionHypothesis =>
      by_cases same : character = separator
      · subst same
        rw [pieces_cons_separator]
        simp
      · rw [pieces_cons_of_ne same, inductionHypothesis]
        simp [same]

/-- A character at the end is at the end of the last piece. -/
theorem pieces_append_last
    {last : Char}
    (other : last ≠ separator)
    (text : List Char) :
    List.Forall₂ (fun piece longer => longer = piece ∨ longer = piece ++ [last])
      (pieces separator text) (pieces separator (text ++ [last])) := by
  induction text with
  | nil =>
      rw [List.nil_append, pieces_cons_of_ne other]
      exact .cons (.inr rfl) .nil
  | cons character rest inductionHypothesis =>
      rw [List.cons_append]
      by_cases same : character = separator
      · subst same
        rw [pieces_cons_separator, pieces_cons_separator]
        exact .cons (.inl rfl) inductionHypothesis
      · rw [pieces_cons_of_ne same, pieces_cons_of_ne same]
        revert inductionHypothesis
        generalize pieces separator rest = short
        generalize pieces separator (rest ++ [last]) = long
        rintro (_ | ⟨rfl | rfl, others⟩)
        · exact .nil
        · exact .cons (.inl rfl) others
        · exact .cons (.inr rfl) others

/-- What stands before the first separator does not hold it. -/
theorem cutAtFirst?_of_not_mem
    {front : List Char}
    (without : separator ∉ front)
    (rest : List Char) :
    cutAtFirst? separator (front ++ separator :: rest) = some (front, rest) := by
  induction front with
  | nil =>
      rw [List.nil_append, cutAtFirst?, if_pos rfl]
  | cons character others inductionHypothesis =>
      rw [List.mem_cons, not_or] at without
      rw [List.cons_append, cutAtFirst?, if_neg (Ne.symm without.1),
        inductionHypothesis without.2]
      rfl

/-- A character at the end stands behind the first separator. -/
theorem cutAtFirst?_append_last
    {last : Char}
    (other : last ≠ separator)
    (text : List Char) :
    cutAtFirst? separator (text ++ [last]) =
      (cutAtFirst? separator text).map fun cut => (cut.1, cut.2 ++ [last]) := by
  induction text with
  | nil =>
      have none : cutAtFirst? separator [last] = none := if_neg other
      rw [List.nil_append, none]
      rfl
  | cons character rest inductionHypothesis =>
      rw [List.cons_append, cutAtFirst?, cutAtFirst?]
      split
      next =>
        rfl
      next =>
        rw [inductionHypothesis, Option.map_map, Option.map_map]
        rfl

end Pieces

section Blanks

/-- Blanks before a text are trimmed. -/
theorem trim_cons_blank
    {character : Char}
    (blank : isBlank character = true)
    (text : List Char) :
    trim (character :: text) = trim text := by
  rw [trim, List.dropWhile_cons_of_pos blank]
  rfl

/-- A blank after a text is trimmed. -/
theorem trim_append_blank
    {character : Char}
    (blank : isBlank character = true)
    (text : List Char) :
    trim (text ++ [character]) = trim text := by
  rw [trim, trim, List.dropWhile_append]
  split
  next nothing =>
    have none : text.dropWhile isBlank = [] := by
      simpa using nothing
    rw [none, List.dropWhile_cons_of_pos blank]
    rfl
  next =>
    rw [List.reverse_append, List.reverse_singleton, List.singleton_append,
      List.dropWhile_cons_of_pos blank]

/-- Blanks after a text are trimmed. -/
theorem trim_append_of_blank
    {blanks : List Char}
    (allBlank : ∀ character ∈ blanks, isBlank character = true)
    (text : List Char) :
    trim (text ++ blanks) = trim text := by
  induction blanks generalizing text with
  | nil =>
      rw [List.append_nil]
  | cons character rest inductionHypothesis =>
      have isFirst := allBlank character List.mem_cons_self
      rw [List.append_cons, inductionHypothesis
        fun other member => allBlank other (List.mem_cons_of_mem _ member)]
      exact trim_append_blank isFirst text

end Blanks

section Ink

/-- The characters of a text that are no blanks. -/
def ink (text : List Char) : Nat :=
  text.countP fun character => !isBlank character

theorem ink_append (first second : List Char) :
    ink (first ++ second) = ink first + ink second :=
  List.countP_append

theorem ink_cons
    (character : Char)
    (text : List Char) :
    ink (character :: text) = ink [character] + ink text :=
  ink_append [character] text

theorem ink_cons_blank
    {character : Char}
    (blank : isBlank character = true)
    (text : List Char) :
    ink (character :: text) = ink text := by
  rw [ink, List.countP_cons_of_neg (by simp [blank])]
  rfl

/-- Only blanks have no ink. -/
theorem ink_eq_zero_iff (text : List Char) :
    ink text = 0 ↔ ∀ character ∈ text, isBlank character = true := by
  rw [ink, List.countP_eq_zero]
  simp

theorem ink_dropWhile (text : List Char) :
    ink (text.dropWhile isBlank) = ink text := by
  induction text with
  | nil =>
      rfl
  | cons character rest inductionHypothesis =>
      cases blank : isBlank character with
      | true =>
          rw [List.dropWhile_cons_of_pos blank, inductionHypothesis,
            ink_cons_blank blank]
      | false =>
          rw [List.dropWhile_cons_of_neg (by simp [blank])]

/-- A trimmed text has all its ink. -/
theorem ink_trim (text : List Char) :
    ink (trim text) = ink text := by
  have reversed (characters : List Char) : ink characters.reverse = ink characters :=
    List.countP_reverse
  rw [trim, reversed, ink_dropWhile, reversed, ink_dropWhile]

/-- The pieces between blanks have all the ink. -/
theorem sum_ink_pieces
    {separator : Char}
    (blank : isBlank separator = true)
    (text : List Char) :
    ((pieces separator text).map ink).sum = ink text := by
  induction text with
  | nil =>
      rfl
  | cons character rest inductionHypothesis =>
      by_cases same : character = separator
      · subst same
        rw [pieces_cons_separator, List.map_cons, List.sum_cons, inductionHypothesis,
          ink_cons_blank blank]
        exact Nat.zero_add _
      · rw [pieces_cons_of_ne same]
        revert inductionHypothesis
        cases cut : pieces separator rest with
        | nil =>
            exact (pieces_ne_nil rest cut).elim
        | cons piece others =>
            intro whole
            rw [ink_cons, ← whole, List.modifyHead_cons, List.map_cons, List.map_cons,
              List.sum_cons, List.sum_cons, ink_cons, Nat.add_assoc]

/-- A text that is cut has its ink before, in and after the separator. -/
theorem ink_of_cutAtFirst?
    {separator : Char}
    {text before after : List Char}
    (cut : cutAtFirst? separator text = some (before, after)) :
    ink text = ink before + ink [separator] + ink after := by
  induction text generalizing before with
  | nil =>
      cases cut
  | cons character rest inductionHypothesis =>
      rw [cutAtFirst?] at cut
      split at cut
      next same =>
        cases cut
        have nothing : ink [] = 0 := rfl
        rw [same, ink_cons, nothing, Nat.zero_add]
      next =>
        obtain ⟨⟨first, second⟩, cutRest, same⟩ := Option.map_eq_some_iff.mp cut
        cases same
        rw [ink_cons, inductionHypothesis cutRest, ink_cons character first]
        omega

end Ink

end PatronFees.Text
