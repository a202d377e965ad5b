import PatronFees.Table.Outlet
import PatronFees.Table.Row

namespace PatronFees.Table

/-!
# Writing tables

Fields are written with commas between them and a line feed behind each row. A
field is quoted if it holds a comma, a quote or a line end, its quotes doubled;
so is an empty field that is alone in its row.

The text is buffered. It reaches the outlet in chunks of at most 8192 bytes, cut
where a comma, a line feed or a byte of a field no longer fits; the two bytes of
a doubled quote stay together. A chunk that the outlet refuses ends the writing:
the last one as a failure of output, any earlier one as a failure of the table.
-/

/-- Bytes that are never cut apart. -/
abbrev Piece := List UInt8

/-- The field has to be quoted. -/
def needsQuotes (field : Field) : Bool :=
  field.any fun byte => byte == comma || byte == quote || isRowEnd byte

/-- A byte within quotes. -/
def quotedPiece (byte : UInt8) : Piece :=
  if byte = quote then [quote, quote] else [byte]

/-- A field as it is written. -/
def fieldPieces (field : Field) : List Piece :=
  if needsQuotes field then
    [quote] :: field.map quotedPiece ++ [[quote]]
  else
    field.map fun byte => [byte]

/-- The fields of a row with commas between them. -/
def fieldsPieces (row : Row) : List Piece :=
  [[comma]].intercalate (row.map fieldPieces)

/-- A row as it is written. -/
def rowPieces (row : Row) : List Piece :=
  if row.all List.isEmpty && row.length ≤ 1 then
    [[quote, quote], [lineFeed]]
  else
    fieldsPieces row ++ [[lineFeed]]

/-- A table as it is written. -/
def pieces (rows : List Row) : List Piece :=
  rows.flatMap rowPieces

def bytes (rows : List Row) : List UInt8 :=
  (pieces rows).flatten

/-- The fields of a row of texts. -/
def rowOfTexts (texts : List String) : Row :=
  texts.map fun text => text.toUTF8.toList

/-- The most bytes that are held back. -/
def bufferSize : Nat := 8192

/-- Bytes that are held back, the latest first, with their number. -/
structure Buffer where
  held : List UInt8
  size : Nat
  deriving Repr, DecidableEq

namespace Buffer

def empty : Buffer :=
  ⟨[], 0⟩

def bytes (buffer : Buffer) : List UInt8 :=
  buffer.held.reverse

/-- Hold back a piece as well. -/
def push
    (buffer : Buffer)
    (piece : Piece) : Buffer :=
  ⟨piece.reverse ++ buffer.held, piece.length + buffer.size⟩

end Buffer

/-- Pass the last chunk on, if there is one. -/
def finish
    (buffer : Buffer)
    (outlet : Outlet) :
    Checked Unit × Outlet :=
  if buffer.size = 0 || outlet.accepts buffer.bytes then
    (.ok (), outlet.take buffer.bytes)
  else
    (.error (.inputOutput Outlet.refusal), outlet)

/-- Write pieces, passing a chunk on whenever the next piece does not fit. -/
def writePieces
    (buffer : Buffer)
    (outlet : Outlet) :
    List Piece → Checked Unit × Outlet
  | [] => finish buffer outlet
  | piece :: rest =>
      if piece.length + buffer.size ≤ bufferSize then
        writePieces (buffer.push piece) outlet rest
      else if outlet.accepts buffer.bytes then
        writePieces (Buffer.empty.push piece) (outlet.take buffer.bytes) rest
      else
        (.error (.malformed none (.other Outlet.refusal)), outlet)

def write
    (rows : List Row)
    (outlet : Outlet) :
    Checked Unit × Outlet :=
  writePieces Buffer.empty outlet (pieces rows)

end PatronFees.Table
