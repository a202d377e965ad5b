import PatronFees.Text.Blank

namespace PatronFees.Table

/-!
# Rows

A table is text in rows of fields. Commas divide the fields of a row; a line
feed or a carriage return ends it, and empty lines between rows count for
nothing. A field that opens with a quote runs to the next single quote and may
hold commas and line ends; a quote within it is written twice. What follows the
closing quote belongs to the field as it stands, and a field left open runs to
the end. Nothing here fails: every text has rows.
-/

/-- The bytes of one field, without its quotes. -/
abbrev Field := List UInt8

/-- The fields of one row. -/
abbrev Row := List Field

/-- The byte between two fields. -/
def comma : UInt8 := 44

/-- The byte around a quoted field. -/
def quote : UInt8 := 34

/-- The byte that ends a written row. -/
def lineFeed : UInt8 := 10

/-- The other byte that may end a row. -/
def carriageReturn : UInt8 := 13

/-- The byte ends a row. -/
def isRowEnd (byte : UInt8) : Bool :=
  byte == lineFeed || byte == carriageReturn

/-- Where a reader stands between two bytes. -/
inductive Place where
  /-- Before a row or an empty line. -/
  | betweenRows
  | fieldStart
  | inField
  | inQuotes
  /-- After a quote in quotes, which closes them or is the first of two. -/
  | afterQuote
  deriving Repr, DecidableEq

/-- What a byte does to the row that is being read. -/
inductive Effect where
  | skip (next : Place)
  | keep (next : Place)
  | endField
  | endRow
  deriving Repr, DecidableEq

/-- The effect of a byte outside quotes, where no quote is special. -/
def plainEffect (byte : UInt8) : Effect :=
  if byte = comma then
    .endField
  else if isRowEnd byte then
    .endRow
  else
    .keep .inField

/-- The effect of a byte. -/
def Place.effect (place : Place) (byte : UInt8) : Effect :=
  match place with
  | .betweenRows =>
      if isRowEnd byte then
        .skip .betweenRows
      else if byte = quote then
        .skip .inQuotes
      else
        plainEffect byte
  | .fieldStart =>
      if byte = quote then .skip .inQuotes else plainEffect byte
  | .inField => plainEffect byte
  | .inQuotes =>
      if byte = quote then .skip .afterQuote else .keep .inQuotes
  | .afterQuote =>
      if byte = quote then .keep .inQuotes else plainEffect byte

/--
The rows from a place on.

`fields` are the finished fields of the row at hand and `field` the bytes of
the field at hand, both with the latest first.
-/
def rowsFrom
    (place : Place)
    (fields : List Field)
    (field : Field) :
    List UInt8 → List Row
  | [] =>
      if place = .betweenRows then
        []
      else
        [(field.reverse :: fields).reverse]
  | byte :: rest =>
      match place.effect byte with
      | .skip next => rowsFrom next fields field rest
      | .keep next => rowsFrom next fields (byte :: field) rest
      | .endField => rowsFrom .fieldStart (field.reverse :: fields) [] rest
      | .endRow =>
          (field.reverse :: fields).reverse :: rowsFrom .betweenRows [] [] rest

/-- The text without a byte order mark at its start. -/
def withoutMark : List UInt8 → List UInt8
  | 0xEF :: 0xBB :: 0xBF :: rest => rest
  | bytes => bytes

def rows (bytes : List UInt8) : List Row :=
  rowsFrom .betweenRows [] [] (withoutMark bytes)

/-- The text of a field without blanks around it, if it is text at all. -/
def Field.text? (field : Field) : Option String :=
  (String.fromUTF8? ⟨field.toArray⟩).map Text.trimmed

/-- The texts of a row, if all of them are text. -/
def Row.texts? (row : Row) : Option (List String) :=
  row.mapM Field.text?

end PatronFees.Table
