import PatronFees.Table.Row

namespace PatronFees.Table

/-!
# Layouts

A layout says by name which columns a kind of table must and may have. The
first row of a table names its columns, in any order and possibly with others
among them. A row is unreadable if its bytes are no text, if a wanted column is
named twice or a required one is not named, or if the row ends before a
required column or one that nobody asked for. Under a header that is no text
itself, columns count by position and a row must reach the last of them.
-/

/-- The columns of a kind of table. -/
structure Layout where
  required : List String
  /-- These columns, or their cells, may be left out. -/
  optional : List String
  deriving Repr, DecidableEq

namespace Layout

/-- All columns, in the order that counts where there are no names. -/
def columns (layout : Layout) : List String :=
  layout.required ++ layout.optional

/-- The header names every required column, and none twice. -/
def fitsHeader
    (layout : Layout)
    (names : List String) : Bool :=
  layout.required.all names.contains &&
    layout.columns.all fun column => names.count column ≤ 1

/-- Every column behind the end of a row of some length may be left out. -/
def fitsLength
    (layout : Layout)
    (names : List String)
    (length : Nat) : Bool :=
  (names.drop length).all layout.optional.contains

end Layout

/-- The names of the columns, unless they are no text. -/
inductive Header where
  | names (names : List String)
  | unreadable
  deriving Repr, DecidableEq

/-- The header that a row makes. -/
def Header.ofRow (row : Row) : Header :=
  match row.texts? with
  | some texts => .names texts
  | none => .unreadable

/-- The cells of a row by the names of their columns. -/
abbrev Cells := List (String × String)

namespace Cells

/-- The text of a cell; nothing is text as well. -/
def text
    (cells : Cells)
    (column : String) : String :=
  (cells.lookup column).getD ""

/-- The text of a cell that is there and not empty. -/
def text?
    (cells : Cells)
    (column : String) :
    Option String :=
  (cells.lookup column).filter (· != "")

end Cells

/-- The cells of a row under a header, if the row is readable. -/
def Layout.cells?
    (layout : Layout)
    (header : Header)
    (row : Row) :
    Option Cells :=
  match header, row.texts? with
  | _, none => none
  | .names names, some texts =>
      if layout.fitsHeader names && layout.fitsLength names texts.length then
        some (names.zip texts)
      else
        none
  | .unreadable, some texts =>
      if layout.columns.length ≤ texts.length then
        some (layout.columns.zip texts)
      else
        none

end PatronFees.Table
