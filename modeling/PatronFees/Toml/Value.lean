namespace PatronFees.Toml

/-!
# Values and tables

The values of TOML 1.0. A table remembers how it came about, for that decides
who may still add to it: a table with a header of its own or written in braces
is complete, one that a longer header implies may yet get its own header, and
one that dotted keys made takes more dotted keys but no header.
-/

/-- How a table came about. -/
inductive Origin where
  /-- It was written in braces. -/
  | braces
  /-- It has a header of its own, or is the whole document. -/
  | header
  /-- The header of a table below it implies it. -/
  | implied
  /-- Dotted keys made it. -/
  | dotted
  deriving Repr, DecidableEq

/-- A value of a document. -/
inductive Value where
  | text (text : String)
  | integer (integer : Int)
  /-- A number that is no integer, as it is written. -/
  | float (written : String)
  | boolean (boolean : Bool)
  /-- A date, a time or both, as it is written. -/
  | moment (written : String)
  | array (items : List Value)
  | table (origin : Origin) (entries : List (String × Value))
  /-- Tables that share a header, in order. -/
  | tables (elements : List (List (String × Value)))

/-- The entries of a table, in order. -/
abbrev Entries := List (String × Value)

namespace Entries

/-- Give a key a new value; a key that is missing comes last. -/
def set
    (key : String)
    (value : Value) :
    Entries → Entries
  | [] => [(key, value)]
  | (first, old) :: rest =>
      if first = key then
        (key, value) :: rest
      else
        (first, old) :: set key value rest

/-- Add an entry, unless the key has a value already. -/
def add?
    (key : String)
    (value : Value)
    (entries : Entries) :
    Option Entries :=
  match entries.lookup key with
  | none => some (entries.set key value)
  | some _ => none

end Entries

/-- A change to the entries of a table of some origin, where it is allowed. -/
abbrev Change := Origin → Entries → Option Entries

/-- Where a path leads: by the headers of tables or by dotted keys. -/
inductive PathKind where
  | headers
  | dottedKeys
  deriving Repr, DecidableEq

namespace PathKind

/-- The origin of the tables that a path makes on its way. -/
def origin : PathKind → Origin
  | .headers => .implied
  | .dottedKeys => .dotted

/-- A path may lead through a table of some origin. -/
def enters : PathKind → Origin → Bool
  | _, .braces => false
  | .headers, _ => true
  | .dottedKeys, .header => false
  | .dottedKeys, _ => true

end PathKind

/--
Change the table at the end of a path from a table of some origin.

Missing tables are made on the way. Among tables that share a header the path
leads through the last.
-/
def changeAt
    (kind : PathKind)
    (change : Change) :
    (path : List String) → Change
  | [], origin, entries => change origin entries
  | key :: rest, _, entries =>
      match entries.lookup key with
      | none => do
          let inner ← changeAt kind change rest kind.origin []
          return entries.set key (.table kind.origin inner)
      | some (.table origin inner) =>
          if kind.enters origin then do
            let changed ← changeAt kind change rest origin inner
            return entries.set key (.table origin changed)
          else
            none
      | some (.tables elements) => do
          let last ← elements.getLast?
          let changed ← changeAt kind change rest .header last
          return entries.set key (.tables (elements.dropLast ++ [changed]))
      | some _ => none

/-- Assign a value at a dotted path from a table that takes assignments. -/
def assign?
    (path : List String)
    (key : String)
    (value : Value)
    (entries : Entries) :
    Option Entries :=
  changeAt .dottedKeys
    (fun origin inner =>
      if path.isEmpty || origin = .dotted then
        inner.add? key value
      else
        none)
    path .header entries

/-- Begin the table of a header within the table above it. -/
def beginTable? (key : String) : Change
  | _, entries =>
      match entries.lookup key with
      | none => some (entries.set key (.table .header []))
      | some (.table .implied inner) =>
          some (entries.set key (.table .header inner))
      | some _ => none

/-- Begin the next of the tables that share a header. -/
def beginElement? (key : String) : Change
  | _, entries =>
      match entries.lookup key with
      | none => some (entries.set key (.tables [[]]))
      | some (.tables elements) =>
          some (entries.set key (.tables (elements ++ [[]])))
      | some _ => none

end PatronFees.Toml
