import PatronFees.Proofs.Outcome
import PatronFees.Record.Tables
import Mathlib.Algebra.Order.Ring.Nat

namespace PatronFees

/-!
# Reading in batches

What becomes of a row depends on the header, the row and its line, and on
nothing that was read before it. Under a header that is text, a batch is
therefore a stretch of what becomes of all rows, and batches of any sizes put
one behind the other are that list itself.
-/

namespace TableReader

variable {Value : Type} {format : TableFormat Value} {reader : TableReader}
  {size : Nat}

/-- What becomes of each row that has not been read, in order. -/
def outcomes
    (format : TableFormat Value)
    (reader : TableReader) :
    List (Except Event Value) :=
  reader.rows.zipIdx.map fun (row, index) =>
    readRow format reader.header (reader.nextLine + index) row

/--
Rows from a line on yield values and warnings: each of them one value, or one
warning that names its line, in their order.
-/
inductive Yields
    (format : TableFormat Value)
    (header : Table.Header) :
    Nat → List Table.Row → List Value → List Event → Prop where
  | none {line : Nat} :
      Yields format header line [] [] []
  | value
      {line : Nat}
      {row : Table.Row}
      {rows : List Table.Row}
      {cells : Table.Cells}
      {value : Value}
      {values : List Value}
      {warnings : List Event}
      (readable : format.layout.cells? header row = some cells)
      (converted : format.convert cells = .ok value)
      (later : Yields format header (line + 1) rows values warnings) :
      Yields format header line (row :: rows) (value :: values) warnings
  | invalid
      {line : Nat}
      {row : Table.Row}
      {rows : List Table.Row}
      {cells : Table.Cells}
      {failure : Failure}
      {values : List Value}
      {warnings : List Event}
      (readable : format.layout.cells? header row = some cells)
      (refused : format.convert cells = .error failure)
      (later : Yields format header (line + 1) rows values warnings) :
      Yields format header line (row :: rows) values
        (.recordInvalid line failure :: warnings)
  | unreadable
      {line : Nat}
      {row : Table.Row}
      {rows : List Table.Row}
      {values : List Value}
      {warnings : List Event}
      (noCells : format.layout.cells? header row = Option.none)
      (later : Yields format header (line + 1) rows values warnings) :
      Yields format header line (row :: rows) values
        (.recordUnreadable line :: warnings)

/-- The reader behind the next rows, as many as there are up to `size`. -/
def skip
    (reader : TableReader)
    (size : Nat) : TableReader where
  header := reader.header
  rows := reader.rows.drop size
  rowsRead := reader.rowsRead + min size reader.rows.length

/-- Read batches of some sizes, one after another. -/
def readBatches
    (format : TableFormat Value) :
    List Nat → TableReader → List (TableBatch Value) × TableReader
  | [], reader => ([], reader)
  | size :: rest, reader =>
      let batch := readBatch format size reader
      let (batches, after) := readBatches format rest batch.reader
      (batch :: batches, after)

theorem rows_ofBytes (bytes : List UInt8) :
    (ofBytes bytes).rows = (Table.rows bytes).tail := by
  rw [ofBytes]
  split
  next none =>
    rw [none]
    rfl
  next some =>
    rw [some]
    rfl

theorem rowsRead_ofBytes (bytes : List UInt8) :
    (ofBytes bytes).rowsRead = 0 := by
  rw [ofBytes]
  split <;> rfl

theorem length_outcomes (format : TableFormat Value) :
    (reader.outcomes format).length = reader.rows.length := by
  simp [outcomes]

/-- What becomes of the next rows is known from these rows alone. -/
theorem take_outcomes (size : Nat) :
    (reader.outcomes format).take size =
      (reader.rows.take size).zipIdx.map fun (row, index) =>
        readRow format reader.header (reader.nextLine + index) row :=
  List.ext_getElem (by simp [outcomes]) fun _ _ _ => by simp [outcomes]

theorem outcomes_skip :
    (reader.skip size).outcomes format =
      (reader.outcomes format).drop size := by
  apply List.ext_getElem
  · simp [outcomes, skip]
  · intro index within _
    have behind : size + index < reader.rows.length := by
      simp only [length_outcomes, skip, List.length_drop] at within
      omega
    have line :
        (reader.skip size).nextLine + index =
          reader.nextLine + (size + index) := by
      simp only [nextLine, skip]
      omega
    simp only [outcomes, List.getElem_map, List.getElem_zipIdx,
      List.getElem_drop, line, Nat.zero_add]
    simp only [skip, List.getElem_drop]

theorem skip_skip (first second : Nat) :
    (reader.skip first).skip second = reader.skip (first + second) := by
  simp only [skip, List.drop_drop, List.length_drop, TableReader.mk.injEq,
    true_and]
  omega

/-- No more rows can be read than there are. -/
theorem skip_min (reader : TableReader) (size : Nat) :
    reader.skip (min size reader.rows.length) = reader.skip size := by
  have rows :
      reader.rows.drop (min size reader.rows.length) = reader.rows.drop size := by
    simp
  simp only [skip, rows, Nat.min_assoc, Nat.min_self]

theorem gather_append (first second : List (Except Event Value)) :
    gather (first ++ second) =
      ((gather first).1 ++ (gather second).1,
        (gather first).2 ++ (gather second).2) := by
  induction first with
  | nil =>
      rfl
  | cons outcome rest inductionHypothesis =>
      cases outcome <;> simp [gather, inductionHypothesis]

/-- There is one value or one warning for each row. -/
theorem Yields.length_eq
    {header : Table.Header}
    {line : Nat}
    {rows : List Table.Row}
    {values : List Value}
    {warnings : List Event}
    (yields : Yields format header line rows values warnings) :
    values.length + warnings.length = rows.length := by
  induction yields with
  | none =>
      rfl
  | value _ _ _ inductionHypothesis =>
      simp only [List.length_cons]
      omega
  | invalid _ _ _ inductionHypothesis =>
      simp only [List.length_cons]
      omega
  | unreadable _ _ inductionHypothesis =>
      simp only [List.length_cons]
      omega

/-- What is gathered of rows is what they yield. -/
theorem yields_gather
    (format : TableFormat Value)
    (header : Table.Header)
    (first index : Nat)
    (rows : List Table.Row) :
    let gathered :=
      gather
        ((rows.zipIdx index).map fun (row, index) =>
          readRow format header (first + index) row)
    Yields format header (first + index) rows gathered.1 gathered.2 := by
  induction rows generalizing index with
  | nil =>
      exact .none
  | cons row rest inductionHypothesis =>
      have later := inductionHypothesis (index + 1)
      cases readable : format.layout.cells? header row with
      | none =>
          simpa [readRow, readable, gather] using Yields.unreadable readable later
      | some cells =>
          cases converted : format.convert cells with
          | ok value =>
              simpa [readRow, readable, converted, gather] using
                Yields.value readable converted later
          | error failure =>
              simpa [readRow, readable, converted, gather] using
                Yields.invalid readable converted later

/-- A batch under a header that is text is a stretch of what becomes of the rows. -/
theorem readBatch_eq
    (format : TableFormat Value)
    (named : reader.header ≠ .unreadable)
    (size : Nat) :
    readBatch format size reader =
      ⟨(gather ((reader.outcomes format).take size)).1,
        (gather ((reader.outcomes format).take size)).2,
        reader.skip size⟩ := by
  have rows : readBatch format size reader = readRows format size reader := by
    rw [readBatch.eq_def]
    split
    next unreadable =>
      exact absurd unreadable named
    next =>
      rfl
  rw [rows]
  simp only [readRows, take_outcomes, List.length_take, skip]

/-- The rows that are left yield what becomes of them. -/
theorem yields_outcomes
    (format : TableFormat Value)
    (reader : TableReader) :
    Yields format reader.header (reader.rowsRead + 2) reader.rows
      (gather (reader.outcomes format)).1 (gather (reader.outcomes format)).2 :=
  yields_gather format reader.header reader.nextLine 0 reader.rows

/-- The rows of a batch under a header that is text yield the batch. -/
theorem yields_readBatch
    (format : TableFormat Value)
    (named : reader.header ≠ .unreadable)
    (size : Nat) :
    Yields format reader.header (reader.rowsRead + 2) (reader.rows.take size)
      (readBatch format size reader).values
      (readBatch format size reader).warnings := by
  rw [readBatch_eq format named, take_outcomes]
  exact yields_gather format reader.header reader.nextLine 0 _

/-- All rows are read at once, whatever the size of a batch. -/
theorem readAll_eq
    (format : TableFormat Value)
    (named : reader.header ≠ .unreadable)
    (positive : 0 < size) :
    readAll format size reader =
      .ok
        ⟨(gather (reader.outcomes format)).1,
          (gather (reader.outcomes format)).2,
          reader.skip reader.rows.length⟩ := by
  fun_induction readAll format size reader with
  | case1 reader batch same =>
      have empty : reader.rows = [] := by
        simp only [batch, readBatch_eq format named, skip] at same
        exact List.eq_nil_of_length_eq_zero (by omega)
      have nothing : reader.outcomes format = [] := by
        simp [outcomes, empty]
      simp only [batch, readBatch_eq format named, nothing, List.take_nil]
      simp [skip, empty]
  | case2 reader batch counted fewer inductionHypothesis =>
      have read := readBatch_eq format named size
      have behind : batch.reader = reader.skip size :=
        congrArg TableBatch.reader read
      have later := inductionHypothesis (behind ▸ named)
      rw [behind, outcomes_skip, skip_skip] at later
      have whole := gather_append ((reader.outcomes format).take size)
        ((reader.outcomes format).drop size)
      rw [List.take_append_drop] at whole
      have everything :
          reader.skip (size + (reader.skip size).rows.length) =
            reader.skip reader.rows.length := by
        rw [← skip_min]
        congr 1
        simp only [skip, List.length_drop]
        omega
      rw [behind, later, everything, Outcome.ok_bind]
      simp only [batch, read, whole]
      rfl
  | case3 reader batch counted notFewer =>
      simp only [batch, readBatch_eq format named, skip, List.length_drop]
        at counted notFewer
      omega

/-- Batches of some sizes are the rows up to their sum. -/
theorem readBatches_eq
    (format : TableFormat Value)
    (named : reader.header ≠ .unreadable)
    (sizes : List Nat) :
    let read := readBatches format sizes reader
    read.2 = reader.skip sizes.sum ∧
      (read.1.flatMap (·.values), read.1.flatMap (·.warnings)) =
        gather ((reader.outcomes format).take sizes.sum) := by
  induction sizes generalizing reader with
  | nil =>
      simp [readBatches, skip, gather]
  | cons size rest inductionHypothesis =>
      have read := readBatch_eq format named size
      obtain ⟨behind, later⟩ := @inductionHypothesis (reader.skip size) named
      simp only [readBatches, read, List.sum_cons, List.flatMap_cons]
      rw [outcomes_skip] at later
      refine ⟨behind.trans (skip_skip size rest.sum), ?_⟩
      rw [List.take_add, gather_append, ← later]

end TableReader

open TableReader

/--
Batches of any sizes and then all that is left are the table read at once, in which
each row is one value or one warning. A call reads as many rows as it is asked for, or
those that are left, and makes of them what they are in the whole table.
-/
theorem batches_lose_and_repeat_nothing
    {Value : Type}
    (format : TableFormat Value)
    (bytes : List UInt8)
    (named : (TableReader.ofBytes bytes).header ≠ .unreadable)
    (sizes : List Nat)
    (last one : Nat)
    (lastPositive : 0 < last)
    (onePositive : 0 < one) :
    let reader := TableReader.ofBytes bytes
    let (batches, after) := readBatches format sizes reader
    reader.rows = (Table.rows bytes).tail ∧
      (∃ rest whole,
        readAll format last after = .ok rest ∧
          readAll format one reader = .ok whole ∧
          batches.flatMap (·.values) ++ rest.values = whole.values ∧
          batches.flatMap (·.warnings) ++ rest.warnings = whole.warnings ∧
          rest.reader.rowsRead = whole.reader.rowsRead ∧
          rest.reader.rowsRead = after.rowsRead + after.rows.length ∧
          whole.reader.rowsRead = reader.rows.length ∧
          Yields format reader.header 2 reader.rows whole.values
            whole.warnings) ∧
      after.rows = reader.rows.drop after.rowsRead ∧
      ∀ size,
        let batch := readBatch format size after
        let used := min size after.rows.length
        batch.reader.rowsRead = after.rowsRead + used ∧
          batch.reader.rows = after.rows.drop used ∧
          batch.values.length + batch.warnings.length = used ∧
          Yields format reader.header (after.rowsRead + 2) (after.rows.take used)
            batch.values batch.warnings := by
  intro reader
  have start : reader.rowsRead = 0 := rowsRead_ofBytes bytes
  have rows : reader.rows = (Table.rows bytes).tail := rows_ofBytes bytes
  have namedReader : reader.header ≠ .unreadable := named
  clear_value reader
  have read := readBatches_eq format namedReader sizes
  rcases batched : readBatches format sizes reader with ⟨batches, after⟩
  rw [batched] at read
  obtain ⟨rfl, gathered⟩ := read
  have namedAfter : (reader.skip sizes.sum).header ≠ .unreadable := namedReader
  have position :
      (reader.skip sizes.sum).rows =
        reader.rows.drop (reader.skip sizes.sum).rowsRead := by
    simp only [skip, start, Nat.zero_add]
    exact List.drop_eq_drop_min
  refine ⟨rows, ?_, position, ?_⟩
  · have whole := gather_append ((reader.outcomes format).take sizes.sum)
      ((reader.outcomes format).drop sizes.sum)
    rw [List.take_append_drop, ← gathered, ← outcomes_skip] at whole
    refine ⟨_, _, readAll_eq format namedAfter lastPositive,
      readAll_eq format namedReader onePositive, ?_, ?_, ?_, ?_, ?_, ?_⟩
    · exact (congrArg Prod.fst whole).symm
    · exact (congrArg Prod.snd whole).symm
    · simp only [skip, List.length_drop]
      omega
    · simp [skip]
    · simp [skip, start]
    · have yields := yields_outcomes format reader
      rwa [start] at yields
  · intro size batch used
    have yields : Yields format reader.header ((reader.skip sizes.sum).rowsRead + 2)
        ((reader.skip sizes.sum).rows.take used) batch.values batch.warnings := by
      rw [← List.take_eq_take_min]
      exact yields_readBatch format namedAfter size
    have length := yields.length_eq
    rw [List.length_take, Nat.min_eq_left (Nat.min_le_right _ _)] at length
    refine ⟨?_, ?_, length, yields⟩
    · simp only [batch, readBatch_eq format namedAfter]
      rfl
    · simp only [batch, used, readBatch_eq format namedAfter]
      exact List.drop_eq_drop_min

/-- A table with a row that is too short, read one row, then the next, then the rest. -/
theorem batches_lose_and_repeat_nothing_shortRow :
    let reader :=
      TableReader.ofBytes "action,accounts\npay,a\nwaive\npay,b\n".toUTF8.toList
    let (batches, after) := readBatches TableFormat.actions [1, 1] reader
    reader.header ≠ .unreadable ∧
      ∃ rest whole,
        readAll TableFormat.actions 5 after = .ok rest ∧
          readAll TableFormat.actions 2 reader = .ok whole ∧
          batches.flatMap (·.values) ++ rest.values = whole.values ∧
          batches.flatMap (·.warnings) ++ rest.warnings = whole.warnings ∧
          Yields TableFormat.actions reader.header 2 reader.rows whole.values
            whole.warnings ∧
          whole.values =
            [⟨.pay, ["a"], none, .none⟩, ⟨.pay, ["b"], none, .none⟩] ∧
          whole.warnings = [.recordUnreadable 3] ∧
          rest.reader.rowsRead = 3 := by
  intro reader
  have named : reader.header ≠ .unreadable := by
    decide +kernel
  have valued :
      (readAll TableFormat.actions 2 reader).map (·.values) =
        .ok [⟨.pay, ["a"], none, .none⟩, ⟨.pay, ["b"], none, .none⟩] := by
    decide +kernel
  have warned :
      (readAll TableFormat.actions 2 reader).map (·.warnings) =
        .ok [.recordUnreadable 3] := by
    decide +kernel
  have counted :
      (readAll TableFormat.actions 2 reader).map (·.reader.rowsRead) =
        .ok 3 := by
    decide +kernel
  obtain ⟨-, ⟨rest, whole, readRest, readWhole, values, warnings, count, -, -, yields⟩,
      -⟩ :=
    batches_lose_and_repeat_nothing TableFormat.actions
      "action,accounts\npay,a\nwaive\npay,b\n".toUTF8.toList named [1, 1] 5 2
      (by decide) (by decide)
  rw [readWhole] at valued warned counted
  exact ⟨named, rest, whole, readRest, readWhole, values, warnings, yields,
    Except.ok.inj valued, Except.ok.inj warned, count.trans (Except.ok.inj counted)⟩

end PatronFees
