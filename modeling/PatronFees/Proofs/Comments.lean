import PatronFees.Comments
import PatronFees.Proofs.Text.Lines
import Mathlib.Algebra.Order.BigOperators.Group.List
import Mathlib.Algebra.Order.Group.Nat

namespace PatronFees.Comments

open List

/-!
# Messages in comments

Comments have an entry a line. A message that is written into them is the value of
its key up to its first line break; what stands on further lines of a message is
read as entries of its own, and an entry with the key of a message counts in place
of the ones before it.
-/

section Messages

variable {key : String}

theorem lookup_entry
    (other value : String)
    (rest : List (String × String)) :
    ((other, value) :: rest).lookup key =
      if key = other then some value else rest.lookup key := by
  rw [lookup_cons]
  by_cases same : key = other
  · rw [if_pos same, beq_iff_eq.mpr same]
  · rw [if_neg same, beq_eq_false_iff_ne.mpr same]

/-- Setting a message changes that of its key and no other. -/
theorem lookup_set
    (other value : String)
    (messages : Messages) :
    (messages.set other value).lookup key =
      if key = other then some value else messages.lookup key := by
  induction messages with
  | nil =>
      exact lookup_entry other value []
  | cons first rest inductionHypothesis =>
      obtain ⟨firstKey, firstValue⟩ := first
      rw [Messages.set]
      by_cases isFirst : firstKey = other
      · subst isFirst
        rw [if_pos rfl, lookup_entry, lookup_entry]
        by_cases same : key = firstKey
        · rw [if_pos same, if_pos same]
        · rw [if_neg same, if_neg same, if_neg same]
      · rw [if_neg isFirst, lookup_entry, lookup_entry, inductionHypothesis]
        by_cases same : key = other
        · rw [if_neg (same ▸ Ne.symm isFirst), if_pos same, if_pos same]
        · rw [if_neg same, if_neg same]

/-- Of the entries of a key the last one counts. -/
theorem lookup_foldl_set
    (entries : List (String × String))
    (messages : Messages) :
    (entries.foldl (fun messages (key, value) => messages.set key value)
        messages).lookup key =
      (entries.reverse.lookup key).or (messages.lookup key) := by
  induction entries generalizing messages with
  | nil =>
      rfl
  | cons entry rest inductionHypothesis =>
      obtain ⟨entryKey, value⟩ := entry
      rw [foldl_cons, inductionHypothesis, lookup_set, reverse_cons, lookup_append,
        Option.or_assoc, lookup_entry]
      congr 1
      by_cases same : key = entryKey
      · rw [if_pos same, if_pos same]
        rfl
      · rw [if_neg same, if_neg same]
        rfl

end Messages

/-- The message of a key is the value of its last entry. -/
theorem message?_eq
    (key comments : String) :
    message? key comments = (pairs comments).reverse.lookup key := by
  rw [message?, read, lookup_foldl_set]
  exact Option.or_none

section Lines

open Text

/-- A line break is a blank. -/
theorem isBlank_lineBreak : isBlank '\n' = true := by
  decide

/-- A blank at the end of a line is not part of its entry. -/
theorem pairOfLine?_append_blank (line : List Char) :
    pairOfLine? (line ++ [' ']) = pairOfLine? line := by
  rw [pairOfLine?, pairOfLine?, cutAtFirst?_append_last (by decide)]
  cases cutAtFirst? ':' line with
  | none =>
      rfl
  | some cut =>
      rw [Option.map_some]
      simp only [trim_append_blank (show isBlank ' ' = true by decide)]

/-- Nor is one at the end of a text part of its last entry. -/
theorem filterMap_pieces_append_blank (text : List Char) :
    (pieces '\n' (text ++ [' '])).filterMap pairOfLine? =
      (pieces '\n' text).filterMap pairOfLine? := by
  have last := pieces_append_last (show ' ' ≠ '\n' by decide) text
  generalize pieces '\n' text = lines at last
  generalize pieces '\n' (text ++ [' ']) = longer at last
  induction last with
  | nil =>
      rfl
  | cons same others inductionHypothesis =>
      rw [filterMap_cons, filterMap_cons, inductionHypothesis]
      rcases same with rfl | rfl
      · rfl
      · rw [pairOfLine?_append_blank]

/-- An entry has less ink in its value than on its line. -/
theorem ink_lt_of_pairOfLine?
    {line : List Char}
    {entry : String × String}
    (isEntry : pairOfLine? line = some entry) :
    ink entry.2.toList < ink line := by
  rw [pairOfLine?] at isEntry
  split at isEntry
  next =>
    cases isEntry
  next before after cut =>
    dsimp only at isEntry
    split at isEntry
    next =>
      cases isEntry
    next =>
      obtain rfl := Option.some.inj isEntry
      have whole := ink_of_cutAtFirst? cut
      have colon : ink [':'] = 1 := by decide
      rw [String.toList_ofList, ink_trim]
      omega

section Keyed

variable {key front : List Char}

/-- A line that begins with a key has it, and what follows it as its value. -/
theorem pairOfLine?_keyed
    (without : ':' ∉ front)
    (isKey : trim front = key)
    (legible : key ≠ [])
    (value : List Char) :
    pairOfLine? (front ++ ':' :: ' ' :: value) =
      some (String.ofList key, String.ofList (trim value)) := by
  have notEmpty : key.isEmpty = false :=
    List.isEmpty_eq_false_iff.mpr legible
  rw [pairOfLine?, cutAtFirst?_of_not_mem without]
  simp only [isKey, notEmpty, trim_cons_blank (show isBlank ' ' = true by decide),
    Bool.false_eq_true, if_false]

/-- The message up to its first line break, without the blanks around it. -/
def firstLine (message : String) : String :=
  String.ofList (trim (message.toList.takeWhile (· ≠ '\n')))

/-- The entries that the further lines of a message are read as. -/
def furtherEntries (message : String) : List (String × String) :=
  (pieces '\n' message.toList).tail.filterMap pairOfLine?

/-- A message behind a key is its first line's entry, and those of its further lines. -/
theorem entries_keyed
    (oneLine : '\n' ∉ front)
    (without : ':' ∉ front)
    (isKey : trim front = key)
    (legible : key ≠ [])
    (message : String) :
    (pieces '\n' (front ++ ':' :: ' ' :: message.toList)).filterMap pairOfLine? =
      (String.ofList key, firstLine message) :: furtherEntries message := by
  have split : front ++ ':' :: ' ' :: message.toList =
      (front ++ [':', ' ']) ++ message.toList := by
    simp
  have keyed : '\n' ∉ front ++ [':', ' '] := by
    simpa using oneLine
  rw [split, pieces_append_of_not_mem keyed, pieces_eq, modifyHead_cons,
    append_assoc]
  exact filterMap_cons_some (pairOfLine?_keyed without isKey legible _)

end Keyed

/-- The entries that a message under a key is read as. -/
def entriesUnder (key : String) : Option String → List (String × String)
  | none => []
  | some message => (key, firstLine message) :: furtherEntries message

/-- The message for the staff is read before the one for the patron. -/
theorem pairs_of_write?
    {staff patron : Option String}
    {comments : String}
    (written : write? staff patron = some comments) :
    pairs comments = entriesUnder staffKey staff ++ entriesUnder patronKey patron := by
  have forStaff (message : String) :
      (pieces '\n' ("STAFF ".toList ++ ':' :: ' ' :: message.toList)).filterMap
          pairOfLine? =
        entriesUnder staffKey (some message) :=
    entries_keyed (by decide) (by decide) rfl (by decide) message
  rw [pairs]
  cases staff with
  | none =>
      cases patron with
      | none =>
          cases written
      | some message =>
          obtain rfl := Option.some.inj written
          have text :
              s!"{patronKey} : {message}".toList =
                "PATRON ".toList ++ ':' :: ' ' :: message.toList := by
            simp [patronKey, toString]
          rw [text]
          exact entries_keyed (by decide) (by decide) rfl (by decide) message
  | some message =>
      cases patron with
      | none =>
          obtain rfl := Option.some.inj written
          have text :
              s!"{staffKey} : {message}".toList =
                "STAFF ".toList ++ ':' :: ' ' :: message.toList := by
            simp [staffKey, toString]
          rw [text, forStaff]
          exact (append_nil _).symm
      | some other =>
          obtain rfl := Option.some.inj written
          have text :
              s!"{staffKey} : {message} \n {patronKey} : {other}".toList =
                (("STAFF ".toList ++ ':' :: ' ' :: message.toList) ++ [' ']) ++
                  '\n' :: (" PATRON ".toList ++ ':' :: ' ' :: other.toList) := by
            simp [staffKey, patronKey, toString]
          rw [text, pieces_append_separator, filterMap_append,
            filterMap_pieces_append_blank, forStaff]
          congr 1
          exact entries_keyed (by decide) (by decide) rfl (by decide) other

/-- What is read back under a key is the last entry that has it. -/
theorem bind_message?
    (key : String)
    (staff patron : Option String) :
    (write? staff patron).bind (message? key) =
      ((entriesUnder patronKey patron).reverse.lookup key).or
        ((entriesUnder staffKey staff).reverse.lookup key) := by
  rw [← lookup_append, ← reverse_append]
  cases written : write? staff patron with
  | none =>
      cases staff <;> cases patron <;> cases written
      rfl
  | some comments =>
      rw [Option.bind_some, message?_eq, pairs_of_write? written]

/-- Nothing but blanks follows the first line break of a message. -/
def IsOneLine (message : String) : Prop :=
  ∀ character ∈ message.toList.dropWhile (· ≠ '\n'), isBlank character = true

/-- The further lines of a message have the ink that follows its first line break. -/
theorem sum_ink_furtherLines (message : String) :
    ((pieces '\n' message.toList).tail.map ink).sum =
      ink (message.toList.dropWhile (· ≠ '\n')) := by
  have whole := sum_ink_pieces isBlank_lineBreak message.toList
  have parts := ink_append (message.toList.takeWhile (· ≠ '\n'))
    (message.toList.dropWhile (· ≠ '\n'))
  rw [takeWhile_append_dropWhile] at parts
  rw [pieces_eq, map_cons, sum_cons] at whole
  omega

/-- Each further entry has less ink in its value than follows the first line break. -/
theorem ink_lt_of_mem_furtherEntries
    {message : String}
    {entry : String × String}
    (member : entry ∈ furtherEntries message) :
    ink entry.2.toList < ink (message.toList.dropWhile (· ≠ '\n')) := by
  obtain ⟨line, isLine, isEntry⟩ := mem_filterMap.mp member
  have less := ink_lt_of_pairOfLine? isEntry
  have atMost :=
    List.single_le_sum (fun _ _ => Nat.zero_le _) _ (mem_map_of_mem (f := ink) isLine)
  rw [sum_ink_furtherLines] at atMost
  omega

/-- A message of one line has no further entries, and its first line is all of it. -/
theorem IsOneLine.entriesUnder_eq
    {message : String}
    (isOneLine : IsOneLine message)
    (key : String) :
    entriesUnder key (some message) = [(key, trimmed message)] := by
  have noInk := (ink_eq_zero_iff _).mpr isOneLine
  have nothing : furtherEntries message = [] := by
    rw [eq_nil_iff_forall_not_mem]
    intro entry member
    have less := ink_lt_of_mem_furtherEntries member
    omega
  have whole : firstLine message = trimmed message := by
    rw [firstLine, trimmed, ← trim_append_of_blank isOneLine,
      takeWhile_append_dropWhile]
  rw [entriesUnder, nothing, whole]

/-- Only a message of one line is the value of an entry that it is read as. -/
theorem isOneLine_of_mem
    {key : String}
    {message : String}
    {entry : String × String}
    (member : entry ∈ entriesUnder key (some message))
    (exactly : entry.2 = trimmed message) :
    IsOneLine message := by
  have parts := ink_append (message.toList.takeWhile (· ≠ '\n'))
    (message.toList.dropWhile (· ≠ '\n'))
  rw [takeWhile_append_dropWhile] at parts
  have inkOfEntry : ink entry.2.toList = ink message.toList := by
    rw [exactly, trimmed, String.toList_ofList, ink_trim]
  apply (ink_eq_zero_iff _).mp
  rcases mem_cons.mp member with rfl | further
  · rw [firstLine, String.toList_ofList, ink_trim] at inkOfEntry
    omega
  · have less := ink_lt_of_mem_furtherEntries further
    omega

/-- No further line of a message is read as an entry of a key. -/
def IsFreeOf
    (key : String)
    (message : String) : Prop :=
  ∀ entry ∈ furtherEntries message, entry.1 ≠ key

section ReadBack

variable {key : String} {message : Option String}

/-- Under its key a message is read back as its first line. -/
theorem lookup_entriesUnder
    (free : ∀ given ∈ message, IsFreeOf key given) :
    (entriesUnder key message).reverse.lookup key = message.map firstLine := by
  cases message with
  | none =>
      rfl
  | some given =>
      have further : (furtherEntries given).reverse.lookup key = none := by
        rw [lookup_eq_none_iff]
        intro entry member
        rw [bne_iff_ne]
        exact Ne.symm (free given rfl entry (mem_reverse.mp member))
      rw [entriesUnder, reverse_cons, lookup_append, further, lookup_entry, if_pos rfl]
      rfl

/-- Under another key nothing is read back of it. -/
theorem lookup_entriesUnder_other
    {other : String}
    (different : key ≠ other)
    (free : ∀ given ∈ message, IsFreeOf key given) :
    (entriesUnder other message).reverse.lookup key = none := by
  rw [lookup_eq_none_iff]
  intro entry member
  rw [bne_iff_ne]
  cases message with
  | none =>
      cases member
  | some given =>
      rcases mem_cons.mp (mem_reverse.mp member) with rfl | further
      · exact different
      · exact Ne.symm (free given rfl entry further)

/-- A message that is given has an entry of its key, and the last one is found. -/
theorem exists_lookup_entriesUnder
    (key given : String) :
    ∃ value,
      (entriesUnder key (some given)).reverse.lookup key = some value ∧
        (key, value) ∈ entriesUnder key (some given) := by
  cases found : (entriesUnder key (some given)).reverse.lookup key with
  | none =>
      have own : (key, firstLine given) ∈ (entriesUnder key (some given)).reverse :=
        mem_reverse.mpr mem_cons_self
      have different := lookup_eq_none_iff.mp found _ own
      rw [bne_self_eq_false] at different
      cases different
  | some value =>
      obtain ⟨before, after, parts, -⟩ := lookup_eq_some_iff.mp found
      refine ⟨value, rfl, mem_reverse.mp ?_⟩
      rw [parts]
      exact mem_append_right _ mem_cons_self

/-- Only a message of one line is found as it was given. -/
theorem isOneLine_of_lookup
    {given : String}
    (found :
      (entriesUnder key (some given)).reverse.lookup key = some (trimmed given)) :
    IsOneLine given := by
  obtain ⟨value, same, member⟩ := exists_lookup_entriesUnder key given
  rw [found] at same
  exact isOneLine_of_mem member (Option.some.inj same).symm

/-- A message of one line is found under its own key and under no other. -/
theorem lookup_of_isOneLine
    (oneLine : ∀ given ∈ message, IsOneLine given)
    (other : String) :
    (entriesUnder other message).reverse.lookup key =
      if key = other then message.map trimmed else none := by
  cases message with
  | none =>
      split <;> rfl
  | some given =>
      rw [(oneLine given rfl).entriesUnder_eq, reverse_singleton, lookup_entry]
      rfl

end ReadBack

end Lines

/-- The keys of the two messages differ. -/
theorem staffKey_ne_patronKey : staffKey ≠ patronKey := by
  decide

theorem bind_staffMessage? (staff patron : Option String) :
    (write? staff patron).bind staffMessage? =
      ((entriesUnder patronKey patron).reverse.lookup staffKey).or
        ((entriesUnder staffKey staff).reverse.lookup staffKey) :=
  bind_message? staffKey staff patron

theorem bind_patronMessage? (staff patron : Option String) :
    (write? staff patron).bind patronMessage? =
      ((entriesUnder patronKey patron).reverse.lookup patronKey).or
        ((entriesUnder staffKey staff).reverse.lookup patronKey) :=
  bind_message? patronKey staff patron

/-- Where a message for the patron is given, it alone decides what is read back. -/
theorem bind_patronMessage?_of_given
    (staff : Option String)
    (message : String) :
    (write? staff (some message)).bind patronMessage? =
      (entriesUnder patronKey (some message)).reverse.lookup patronKey := by
  obtain ⟨value, found, -⟩ := exists_lookup_entriesUnder patronKey message
  rw [bind_patronMessage?, found]
  rfl

/-- Messages are both read back as they were given when both are of one line. -/
theorem read_exactly_iff (staff patron : Option String) :
    (write? staff patron).bind staffMessage? = staff.map Text.trimmed ∧
        (write? staff patron).bind patronMessage? = patron.map Text.trimmed ↔
      ∀ message, message ∈ staff ∨ message ∈ patron → IsOneLine message := by
  constructor
  · rintro ⟨staffExactly, patronExactly⟩
    -- The message for the patron comes last, so that its own entries decide.
    have patronOneLine : ∀ message ∈ patron, IsOneLine message := by
      rintro message rfl
      rw [bind_patronMessage?_of_given] at patronExactly
      exact isOneLine_of_lookup patronExactly
    rintro message (rfl | isPatron)
    · rw [bind_staffMessage?, lookup_of_isOneLine patronOneLine,
        if_neg staffKey_ne_patronKey, Option.none_or] at staffExactly
      exact isOneLine_of_lookup staffExactly
    · exact patronOneLine message isPatron
  · intro oneLine
    have staffOneLine : ∀ message ∈ staff, IsOneLine message :=
      fun message given => oneLine message (.inl given)
    have patronOneLine : ∀ message ∈ patron, IsOneLine message :=
      fun message given => oneLine message (.inr given)
    rw [bind_staffMessage?, bind_patronMessage?, lookup_of_isOneLine patronOneLine,
      lookup_of_isOneLine patronOneLine, lookup_of_isOneLine staffOneLine,
      lookup_of_isOneLine staffOneLine, if_pos rfl, if_pos rfl,
      if_neg staffKey_ne_patronKey, if_neg (Ne.symm staffKey_ne_patronKey),
      Option.none_or, Option.or_none]
    exact ⟨rfl, rfl⟩

/--
Messages come back from comments as their first lines, as long as no further line of
either is an entry of their key. They come back exactly if and only if they are of
one line each. Where a message for the patron is given, what the patron is shown
does not depend on the one for the staff.
-/
theorem messages_read_back
    (staff patron : Option String) :
    ((∀ message, message ∈ staff ∨ message ∈ patron → IsFreeOf staffKey message) →
        (write? staff patron).bind staffMessage? = staff.map firstLine) ∧
      ((∀ message, message ∈ staff ∨ message ∈ patron → IsFreeOf patronKey message) →
        (write? staff patron).bind patronMessage? = patron.map firstLine) ∧
      ((write? staff patron).bind staffMessage? = staff.map Text.trimmed ∧
          (write? staff patron).bind patronMessage? = patron.map Text.trimmed ↔
        ∀ message, message ∈ staff ∨ message ∈ patron → IsOneLine message) ∧
      ∀ message other,
        (write? staff (some message)).bind patronMessage? =
          (write? other (some message)).bind patronMessage? := by
  refine ⟨?_, ?_, read_exactly_iff staff patron, ?_⟩
  · intro free
    rw [bind_staffMessage?,
      lookup_entriesUnder_other staffKey_ne_patronKey
        fun message given => free message (.inr given),
      lookup_entriesUnder fun message given => free message (.inl given),
      Option.none_or]
  · intro free
    rw [bind_patronMessage?,
      lookup_entriesUnder fun message given => free message (.inr given),
      lookup_entriesUnder_other (Ne.symm staffKey_ne_patronKey)
        fun message given => free message (.inl given),
      Option.or_none]
  · intro message other
    rw [bind_patronMessage?_of_given, bind_patronMessage?_of_given]

/--
A further line of a message for the staff is not read back with it. One that is an
entry of its own is shown to the patron, for whom no message was given.
-/
theorem messages_read_back_furtherLines :
    let twoLines := "waived\nsee the file"
    let entryLine := "late\nPATRON : go away"
    (write? (some twoLines) (some "hello")).bind staffMessage? = some "waived" ∧
      some "waived" ≠ (some twoLines).map Text.trimmed ∧
      (write? (some entryLine) none).bind patronMessage? = some "go away" ∧
      (write? none none).bind patronMessage? = none := by
  decide +kernel

end PatronFees.Comments
