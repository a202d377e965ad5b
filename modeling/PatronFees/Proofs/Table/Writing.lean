import PatronFees.Table.Writing

namespace PatronFees.Table

/-!
# Tables that are read as they were written

Whatever bytes its fields hold, a written table has the rows that it was written
from. Row by row and field by field, the reader stands before the next comma or
line feed with exactly the field in hand; only an empty field that is alone in
its row would be passed over as an empty line, and it is quoted.
-/

/-- The reader is within a row, and the next comma or line feed ends the field. -/
def Place.endsField : Place → Bool
  | .fieldStart | .inField | .afterQuote => true
  | .betweenRows | .inQuotes => false

/-- A comma behind a field leads to the next field. -/
theorem rowsFrom_comma
    {place : Place}
    (ends : place.endsField = true ∨ place = .betweenRows)
    (fields : List Field)
    (field : Field)
    (rest : List UInt8) :
    rowsFrom place fields field (comma :: rest) =
      rowsFrom .fieldStart (field.reverse :: fields) [] rest := by
  cases place <;> first | rfl | (rcases ends with no | no <;> cases no)

/-- A line feed behind a field ends the row. -/
theorem rowsFrom_lineFeed
    {place : Place}
    (ends : place.endsField = true)
    (fields : List Field)
    (field : Field)
    (rest : List UInt8) :
    rowsFrom place fields field (lineFeed :: rest) =
      (field.reverse :: fields).reverse :: rowsFrom .betweenRows [] [] rest := by
  cases place <;> first | rfl | cases ends

/-- The bytes of a quoted field are taken as they are. -/
theorem rowsFrom_quoted
    (fields : List Field)
    (read field : Field)
    (rest : List UInt8) :
    rowsFrom .inQuotes fields read ((field.map quotedPiece).flatten ++ rest) =
      rowsFrom .inQuotes fields (field.reverse ++ read) rest := by
  induction field generalizing read with
  | nil =>
      rfl
  | cons byte later inductionHypothesis =>
      have step :
          rowsFrom .inQuotes fields read
              (quotedPiece byte ++ ((later.map quotedPiece).flatten ++ rest)) =
            rowsFrom .inQuotes fields (byte :: read)
              ((later.map quotedPiece).flatten ++ rest) := by
        by_cases isQuote : byte = quote
        · subst isQuote
          rfl
        · simp [quotedPiece, isQuote, rowsFrom, Place.effect]
      rw [List.map_cons, List.flatten_cons, List.append_assoc, step,
        inductionHypothesis]
      simp

/-- The bytes of a field without special ones are taken as they are. -/
theorem rowsFrom_plain
    {field : Field}
    (plain : needsQuotes field = false)
    (fields : List Field)
    (read : Field)
    (rest : List UInt8) :
    rowsFrom .inField fields read (field ++ rest) =
      rowsFrom .inField fields (field.reverse ++ read) rest := by
  induction field generalizing read with
  | nil =>
      rfl
  | cons byte later inductionHypothesis =>
      simp only [needsQuotes, List.any_cons, Bool.or_eq_false_iff] at plain
      obtain ⟨⟨⟨notComma, -⟩, notEnd⟩, plainLater⟩ := plain
      have step :
          rowsFrom .inField fields read (byte :: (later ++ rest)) =
            rowsFrom .inField fields (byte :: read) (later ++ rest) := by
        simp [rowsFrom, Place.effect, plainEffect, beq_eq_false_iff_ne.mp notComma,
          notEnd]
      rw [List.cons_append, step, inductionHypothesis plainLater]
      simp

/-- The first byte of a field without special ones begins it. -/
theorem rowsFrom_plain_cons
    {place : Place}
    (start : place = .betweenRows ∨ place = .fieldStart)
    {byte : UInt8}
    {later : Field}
    (plain : needsQuotes (byte :: later) = false)
    (fields : List Field)
    (rest : List UInt8) :
    rowsFrom place fields [] (byte :: rest) =
      rowsFrom .inField fields [byte] rest := by
  simp only [needsQuotes, List.any_cons, Bool.or_eq_false_iff] at plain
  obtain ⟨⟨⟨notComma, notQuote⟩, notEnd⟩, -⟩ := plain
  rcases start with rfl | rfl <;>
    simp [rowsFrom, Place.effect, plainEffect, beq_eq_false_iff_ne.mp notComma,
      beq_eq_false_iff_ne.mp notQuote, notEnd]

/--
Behind a written field the reader has the field in hand, and the next comma or line
feed ends it; of an empty field at the start of a row it has not taken notice.
-/
theorem exists_rowsFrom_fieldPieces
    {place : Place}
    (start : place = .betweenRows ∨ place = .fieldStart)
    (fields : List Field)
    (field : Field) :
    ∃ behind : Place,
      (behind.endsField = true ∨
          behind = .betweenRows ∧ field = [] ∧ place = .betweenRows) ∧
        ∀ rest,
          rowsFrom place fields [] ((fieldPieces field).flatten ++ rest) =
            rowsFrom behind fields field.reverse rest := by
  cases quoted : needsQuotes field with
  | true =>
      refine ⟨.afterQuote, .inl rfl, fun rest => ?_⟩
      have opened (more : List UInt8) :
          rowsFrom place fields [] (quote :: more) =
            rowsFrom .inQuotes fields [] more := by
        rcases start with rfl | rfl <;> rfl
      have closed (more : List UInt8) :
          rowsFrom .inQuotes fields field.reverse (quote :: more) =
            rowsFrom .afterQuote fields field.reverse more :=
        rfl
      simp [fieldPieces, quoted, opened, rowsFrom_quoted, closed]
  | false =>
      have bytes : (fieldPieces field).flatten = field := by
        simp [fieldPieces, quoted, ← List.flatMap_def]
      rw [bytes]
      cases field with
      | nil =>
          refine ⟨place, ?_, fun rest => rfl⟩
          rcases start with rfl | rfl
          · exact .inr ⟨rfl, rfl, rfl⟩
          · exact .inl rfl
      | cons byte later =>
          refine ⟨.inField, .inl rfl, fun rest => ?_⟩
          have plain : needsQuotes later = false := by
            simp only [needsQuotes, List.any_cons, Bool.or_eq_false_iff] at quoted
            exact quoted.2
          rw [List.cons_append, rowsFrom_plain_cons start quoted,
            rowsFrom_plain plain]
          simp

/-- Behind the first field of a row, a written row is read to its end. -/
theorem rowsFrom_laterFields
    (fields : List Field)
    (later : List Field)
    {place : Place}
    (ends : place.endsField = true)
    (field : Field)
    (rest : List UInt8) :
    rowsFrom place fields field
        ((later.flatMap fun other => comma :: (fieldPieces other).flatten) ++
          lineFeed :: rest) =
      (fields.reverse ++ field.reverse :: later) ::
        rowsFrom .betweenRows [] [] rest := by
  induction later generalizing fields field place with
  | nil =>
      rw [List.flatMap_nil, List.nil_append, rowsFrom_lineFeed ends]
      simp
  | cons next others inductionHypothesis =>
      obtain ⟨behind, endsNext, read⟩ :=
        exists_rowsFrom_fieldPieces (.inr rfl) (field.reverse :: fields) next
      rw [List.flatMap_cons, List.append_assoc, List.cons_append,
        rowsFrom_comma (.inl ends), read,
        inductionHypothesis _ (endsNext.resolve_right (by simp))]
      simp

/-- The bytes of a row without its line feed. -/
theorem flatten_fieldsPieces (field : Field) (later : List Field) :
    (fieldsPieces (field :: later)).flatten =
      (fieldPieces field).flatten ++
        later.flatMap fun other => comma :: (fieldPieces other).flatten := by
  rw [fieldsPieces]
  induction later generalizing field with
  | nil =>
      simp
  | cons next others inductionHypothesis =>
      have tail := inductionHypothesis next
      simp only [List.map_cons] at tail
      simp [List.intercalate_cons_cons, tail]

/-- A row with fields is read as it was written. -/
theorem rowsFrom_rowPieces
    {row : Row}
    (nonempty : row ≠ [])
    (rest : List UInt8) :
    rowsFrom .betweenRows [] [] ((rowPieces row).flatten ++ rest) =
      row :: rowsFrom .betweenRows [] [] rest := by
  rw [rowPieces]
  split
  next alone =>
    have empty : row = [[]] := by
      match row, nonempty, alone with
      | [field], _, alone =>
          simpa using alone
      | _ :: _ :: _, _, alone =>
          simp at alone
    rw [empty]
    rfl
  next notAlone =>
    cases row with
    | nil =>
        exact absurd rfl nonempty
    | cons field later =>
        obtain ⟨behind, ends, read⟩ :=
          exists_rowsFrom_fieldPieces (.inl rfl) [] field
        simp only [List.flatten_append, List.flatten_singleton,
          flatten_fieldsPieces, List.append_assoc, List.singleton_append, read]
        rcases ends with ends | ⟨rfl, rfl, -⟩
        · rw [rowsFrom_laterFields [] later ends]
          simp
        · cases later with
          | nil =>
              exact absurd rfl notAlone
          | cons next others =>
              obtain ⟨behind, endsNext, read⟩ :=
                exists_rowsFrom_fieldPieces (.inr rfl) [[]] next
              rw [List.flatMap_cons, List.append_assoc, List.cons_append,
                rowsFrom_comma (.inr rfl)]
              simp only [List.reverse_nil, read]
              rw [rowsFrom_laterFields _ others (endsNext.resolve_right (by simp))]
              simp

/-- A text of fields that begins with no byte order mark has its rows. -/
theorem rows_bytes
    {table : List Row}
    (nonempty : ∀ row ∈ table, row ≠ [])
    (unmarked : withoutMark (bytes table) = bytes table) :
    rows (bytes table) = table := by
  rw [rows, unmarked]
  clear unmarked
  induction table with
  | nil =>
      rfl
  | cons row later inductionHypothesis =>
      have split :
          bytes (row :: later) = (rowPieces row).flatten ++ bytes later := by
        simp [bytes, pieces]
      rw [split, rowsFrom_rowPieces (nonempty row List.mem_cons_self),
        inductionHypothesis fun other member =>
          nonempty other (List.mem_cons_of_mem row member)]

/-- The bytes that a buffer and an outlet have taken reach an unbounded outlet. -/
theorem writePieces_unbounded
    (buffer : Buffer)
    (written : List UInt8)
    (pieces : List Piece) :
    writePieces buffer ⟨none, written⟩ pieces =
      (.ok (), ⟨none, written ++ buffer.bytes ++ pieces.flatten⟩) := by
  induction pieces generalizing buffer written with
  | nil =>
      simp [writePieces, finish, Outlet.accepts, Outlet.take]
  | cons piece rest inductionHypothesis =>
      rw [writePieces]
      split
      · simp [inductionHypothesis, Buffer.push, Buffer.bytes]
      · simp [inductionHypothesis, Buffer.push, Buffer.bytes, Buffer.empty,
          Outlet.accepts, Outlet.take]

/-- An outlet that takes everything holds the table's bytes once it is written. -/
theorem write_unbounded (table : List Row) :
    write table .unbounded = (.ok (), ⟨none, bytes table⟩) := by
  rw [write, Outlet.unbounded, writePieces_unbounded]
  rfl

end PatronFees.Table
