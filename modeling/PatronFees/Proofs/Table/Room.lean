import PatronFees.Proofs.Table.Text

namespace PatronFees

/-!
# Tables in limited room

An outlet with limited room refuses a chunk, whole, that would outgrow it. The
chunks of a table are its text cut up, so one is refused exactly if the text has
no room, wherever the buffer cuts. Whichever chunk that is, the writing fails:
success says that all of the text is out, and what is out after a failure is
still the beginning of the text.
-/

namespace Table

/-- The outlet had no room for the last chunk or for one before it. -/
def IsRefusal (failure : Failure) : Prop :=
  failure = .inputOutput Outlet.refusal ∨
    failure = .malformed none (.other Outlet.refusal)

/-- A writing of a text into limited room succeeds where all of it is out. -/
structure WritesWhole
    (text : List UInt8)
    (room : Nat)
    (writing : Checked Unit × Outlet) : Prop where
  succeeds_iff : writing.1 = .ok () ↔ text.length ≤ room
  written_eq : writing.1 = .ok () → writing.2.written = text
  refused : ∀ failure, writing.1 = .error failure → IsRefusal failure
  begun : writing.2.written <+: text

namespace WritesWhole

variable {text : List UInt8} {room : Nat}

/-- A text that fits is written whole. -/
theorem of_fits (fits : text.length ≤ room) :
    WritesWhole text room (.ok (), ⟨some room, text⟩) where
  succeeds_iff := iff_of_true rfl fits
  written_eq _ := rfl
  refused _ failed := nomatch failed
  begun := List.prefix_rfl

/-- A text that does not fit is refused. -/
theorem of_refused
    {failure : Failure}
    {written : List UInt8}
    (refusal : IsRefusal failure)
    (begun : written <+: text)
    (tight : room < text.length) :
    WritesWhole text room (.error failure, ⟨some room, written⟩) where
  succeeds_iff := iff_of_false (fun succeeded => nomatch succeeded) (by omega)
  written_eq succeeded := nomatch succeeded
  refused other failed := by
    obtain rfl := Except.error.inj failed
    exact refusal
  begun := begun

end WritesWhole

namespace Buffer

/-- The buffer knows how many bytes it holds. -/
def IsCounted (buffer : Buffer) : Prop :=
  buffer.size = buffer.bytes.length

theorem isCounted_empty : empty.IsCounted :=
  rfl

theorem IsCounted.push
    {buffer : Buffer}
    (counted : buffer.IsCounted)
    (piece : Piece) :
    (buffer.push piece).IsCounted := by
  simp only [IsCounted, bytes, Buffer.push, List.length_reverse,
    List.length_append] at counted ⊢
  omega

@[simp]
theorem bytes_empty : empty.bytes = [] :=
  rfl

@[simp]
theorem bytes_push
    (buffer : Buffer)
    (piece : Piece) :
    (buffer.push piece).bytes = buffer.bytes ++ piece := by
  simp [bytes, push]

end Buffer

section Room

variable {buffer : Buffer} {written : List UInt8} {room : Nat}

/-- The last chunk is passed on, or nothing of it is. -/
theorem finish_writesWhole
    (counted : buffer.IsCounted)
    (within : written.length ≤ room) :
    WritesWhole (written ++ buffer.bytes) room
      (finish buffer ⟨some room, written⟩) := by
  rw [finish]
  split
  next passed =>
    apply WritesWhole.of_fits
    simp only [Buffer.IsCounted] at counted
    simp only [Outlet.accepts, Bool.or_eq_true, decide_eq_true_eq] at passed
    rw [List.length_append]
    omega
  next refused =>
    apply WritesWhole.of_refused (.inl rfl) (List.prefix_append _ _)
    simp only [Outlet.accepts, Bool.or_eq_true, decide_eq_true_eq, not_or] at refused
    rw [List.length_append]
    omega

/--
Whatever a buffer still holds and wherever it is cut, what is written, held and
to come is written whole or the writing fails.
-/
theorem writePieces_writesWhole
    (counted : buffer.IsCounted)
    (within : written.length ≤ room)
    (pieces : List Piece) :
    WritesWhole (written ++ buffer.bytes ++ pieces.flatten) room
      (writePieces buffer ⟨some room, written⟩ pieces) := by
  induction pieces generalizing buffer written with
  | nil =>
      rw [List.flatten_nil, List.append_nil]
      exact finish_writesWhole counted within
  | cons piece rest inductionHypothesis =>
      rw [writePieces]
      split
      next =>
        have later := inductionHypothesis (counted.push piece) within
        rw [Buffer.bytes_push, ← List.append_assoc, List.append_assoc _ piece] at later
        exact later
      next =>
        split
        next accepted =>
          -- The chunk moves from the buffer to the outlet; the text stays the same.
          have passed : (written ++ buffer.bytes).length ≤ room := by
            rw [List.length_append]
            exact decide_eq_true_eq.mp accepted
          have later := inductionHypothesis (Buffer.isCounted_empty.push piece) passed
          rw [Buffer.bytes_push, Buffer.bytes_empty, List.nil_append,
            List.append_assoc _ piece] at later
          exact later
        next refused =>
          apply WritesWhole.of_refused (.inr rfl)
          · rw [List.append_assoc]
            exact List.prefix_append _ _
          · have tooLong : room < written.length + buffer.bytes.length :=
              Nat.lt_of_not_le fun fits => refused (decide_eq_true_eq.mpr fits)
            simp only [List.length_append]
            omega

end Room

/-- A table is written whole into limited room, or the writing fails. -/
theorem write_writesWhole
    (table : List Row)
    (room : Nat) :
    WritesWhole (textOf table) room (write table (.ofRoom room)) := by
  have empty : ([] : List UInt8).length ≤ room := Nat.zero_le room
  rw [← bytes_eq]
  exact writePieces_writesWhole Buffer.isCounted_empty empty (pieces table)

end Table

/--
Writing accounts or ledger entries into room for so many bytes succeeds exactly if
the text of the table has no more, and then the outlet holds the text; otherwise it
is refused. The text has the names of the columns and a row for each record, and is
read as these rows.
-/
theorem no_table_is_cut_short (room : Nat) :
    (∀ accounts : List Account, ∃ listed,
      Account.IsListing accounts listed ∧
        let table := Table.rowsOfColumns Account.shownColumns listed
        Table.rows (Table.textOf table) = table ∧
          Table.WritesWhole (Table.textOf table) room
            (Account.writeTable accounts (.ofRoom room))) ∧
      ∀ entries : List LedgerEntry,
        let table :=
          if entries = [] then
            []
          else
            Table.rowsOfColumns LedgerEntry.shownColumns entries
        Table.rows (Table.textOf table) = table ∧
          Table.WritesWhole (Table.textOf table) room
            (LedgerEntry.writeTable entries (.ofRoom room)) := by
  constructor
  · intro accounts
    refine ⟨Account.sorted accounts, Account.isListing_sorted accounts, ?_, ?_⟩
    · rw [← Account.rows_eq, ← Table.bytes_eq, Account.rows_bytes]
    · exact Table.write_writesWhole (Account.rows accounts) room
  · intro entries table
    have rows : table = LedgerEntry.rows entries := (LedgerEntry.rows_eq entries).symm
    rw [rows]
    constructor
    · rw [← Table.bytes_eq, LedgerEntry.rows_bytes]
    · exact Table.write_writesWhole (LedgerEntry.rows entries) room

/-- An account with texts that have to be quoted has room for its text, and not for less. -/
theorem no_table_is_cut_short_toBeQuoted :
    let text :=
      ("id,user_id,fee_fine_type,amount,remaining,status,payment_status,created_at\n" ++
        "b;1,\"Müller, \"\"Ann\"\"\",\"lost\r\nor\nnot\",12.50,0.05,Open,\",\"," ++
        "9999-12-31T23:59:60Z\n").toUTF8.toList
    let written room := Account.writeTable [.toBeQuoted] (.ofRoom room)
    (written text.length).1 = .ok () ∧
      (written text.length).2.written = text ∧
      ∃ failure,
        (written (text.length - 1)).1 = .error failure ∧ Table.IsRefusal failure := by
  intro text written
  have shown :
      Table.textOf (Table.rowsOfColumns Account.shownColumns [.toBeQuoted]) = text := by
    decide +kernel
  have whole (room : Nat) : Table.WritesWhole text room (written room) := by
    obtain ⟨listed, listing, -, writes⟩ := (no_table_is_cut_short room).1 [.toBeQuoted]
    rwa [List.perm_singleton.mp listing.perm, shown] at writes
  have succeeds := (whole text.length).succeeds_iff.mpr (Nat.le_refl _)
  refine ⟨succeeds, (whole text.length).written_eq succeeds, ?_⟩
  cases ended : (written (text.length - 1)).1 with
  | ok =>
      have fits := (whole (text.length - 1)).succeeds_iff.mp ended
      have some : 0 < text.length := by
        decide +kernel
      omega
  | error failure =>
      exact ⟨failure, rfl, (whole (text.length - 1)).refused failure ended⟩

end PatronFees
