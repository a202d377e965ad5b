import PatronFees.Failure

namespace PatronFees.Table

/-!
# Outlets

An outlet takes bytes in chunks. One with limited room refuses, whole, a chunk
that it has no room for.
-/

/-- Where a table is written to. -/
structure Outlet where
  /-- How many bytes fit in all; without a number, any. -/
  room : Option Nat
  /-- The bytes taken so far. -/
  written : List UInt8
  deriving Repr, DecidableEq

namespace Outlet

/-- An empty outlet that takes everything. -/
def unbounded : Outlet :=
  ⟨none, []⟩

def ofRoom (room : Nat) : Outlet :=
  ⟨some room, []⟩

/-- What an outlet says of a chunk that it has no room for. -/
def refusal : String := "disk full"

/-- The chunk fits. -/
def accepts
    (outlet : Outlet)
    (chunk : List UInt8) : Bool :=
  match outlet.room with
  | none => true
  | some room => outlet.written.length + chunk.length ≤ room

def take
    (outlet : Outlet)
    (chunk : List UInt8) : Outlet :=
  { outlet with written := outlet.written ++ chunk }

end Outlet

end PatronFees.Table
