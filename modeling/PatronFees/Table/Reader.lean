import PatronFees.Event
import PatronFees.Table.Layout

namespace PatronFees

/-!
# Reading tables

A table is read in batches of rows. A row that cannot be read, or whose record
is refused, is skipped with a warning that names its line: the header is line
one and every row one more. A header that is no text makes every call begin
with such a warning, which counts as a row but uses none up.
-/

/-- How the rows of a kind of table become values. -/
structure TableFormat (Value : Type) where
  layout : Table.Layout
  convert : Table.Cells → Checked Value

/-- A table that has been read up to some row. -/
structure TableReader where
  header : Table.Header
  /-- The rows that have not been read. -/
  rows : List Table.Row
  /-- How many rows have been read, skipped ones included. -/
  rowsRead : Nat
  deriving Repr, DecidableEq

/-- The values and warnings of some rows, and the reader behind them. -/
structure TableBatch (Value : Type) where
  values : List Value
  warnings : List Event
  reader : TableReader

namespace TableReader

/-- The reader before the first row of a table. -/
def ofBytes (bytes : List UInt8) : TableReader :=
  match Table.rows bytes with
  | [] => ⟨.names [], [], 0⟩
  | header :: rows => ⟨Table.Header.ofRow header, rows, 0⟩

/-- The value of the row at a line, or the warning that it is skipped. -/
def readRow
    {Value : Type}
    (format : TableFormat Value)
    (header : Table.Header)
    (line : Nat)
    (row : Table.Row) :
    Except Event Value :=
  match format.layout.cells? header row with
  | none => .error (.recordUnreadable line)
  | some cells =>
      match format.convert cells with
      | .ok value => .ok value
      | .error failure => .error (.recordInvalid line failure)

/-- Gather what became of some rows, in order. -/
def gather
    {Value : Type} :
    List (Except Event Value) → List Value × List Event
  | [] => ([], [])
  | .ok value :: rest =>
      let (values, warnings) := gather rest
      (value :: values, warnings)
  | .error warning :: rest =>
      let (values, warnings) := gather rest
      (values, warning :: warnings)

/-- The line of the next row that a reader counts. -/
def nextLine (reader : TableReader) : Nat :=
  reader.rowsRead + 2

/-- Read up to `size` rows, whatever the header is. -/
def readRows
    {Value : Type}
    (format : TableFormat Value)
    (size : Nat)
    (reader : TableReader) : TableBatch Value :=
  let taken := reader.rows.take size
  let (values, warnings) :=
    gather
      (taken.zipIdx.map fun (row, index) =>
        readRow format reader.header (reader.nextLine + index) row)
  { values := values
    warnings := warnings
    reader :=
      { reader with
        rows := reader.rows.drop size
        rowsRead := reader.rowsRead + taken.length } }

def readBatch
    {Value : Type}
    (format : TableFormat Value)
    (size : Nat)
    (reader : TableReader) : TableBatch Value :=
  match reader.header, size with
  | .unreadable, later + 1 =>
      let batch :=
        readRows format later { reader with rowsRead := reader.rowsRead + 1 }
      { batch with
        warnings := .recordUnreadable reader.nextLine :: batch.warnings }
  | _, size => readRows format size reader

/--
Read all rows, batch by batch, until a batch counts no row.

Batches that count a row but use none up would go on forever.
-/
def readAll
    {Value : Type}
    (format : TableFormat Value)
    (size : Nat)
    (reader : TableReader) :
    Outcome (TableBatch Value) :=
  let batch := readBatch format size reader
  if batch.reader.rowsRead = reader.rowsRead then
    .ok batch
  else if batch.reader.rows.length < reader.rows.length then do
    let later ← readAll format size batch.reader
    return {
      values := batch.values ++ later.values
      warnings := batch.warnings ++ later.warnings
      reader := later.reader
    }
  else
    .error .endless
termination_by reader.rows.length

end TableReader

end PatronFees
