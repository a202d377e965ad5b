import PatronFees.Action

namespace PatronFees

/-!
# Lanes

The requests of a batch are divided into lanes that share no account, so that
lanes can be carried out side by side while each account sees its requests in
order. A request joins the lanes of all its accounts into one.

While a batch is divided, lanes stand in slots, and every account that was named
has its slot. Lanes are joined in the first of their slots, and the others stay
behind empty.
-/

/-- A request with its position in the batch. -/
structure PlacedRequest where
  position : Nat
  request : ActionRequest
  deriving Repr, DecidableEq

/-- Requests in the order of the batch. -/
abbrev Lane := List PlacedRequest

namespace Lane

/-- Lanes in slots, and the slots of the accounts that they name. -/
structure Slots where
  lanes : List Lane
  /-- Slots by account; the first one of an account counts. -/
  owners : List (AccountId × Nat)
  deriving Repr, DecidableEq

namespace Slots

def empty : Slots :=
  ⟨[], []⟩

/-- The slots of some accounts, each once, in ascending order. -/
def touched
    (slots : Slots)
    (accounts : List AccountId) : List Nat :=
  (accounts.filterMap fun account =>
    slots.owners.lookup account).eraseDups.mergeSort

/-- Move the lane of one slot behind that of another. -/
def move
    (first : Nat)
    (lanes : List Lane)
    (other : Nat) : List Lane :=
  (lanes.set other []).modify first (· ++ lanes.getD other [])

/-- The slot of an account once other slots are joined to the first. -/
def redirected
    (first : Nat)
    (others : List Nat)
    (slot : Nat) : Nat :=
  if others.contains slot then first else slot

/-- Join the lanes of other slots to that of the first, in the order of the batch. -/
def join
    (slots : Slots)
    (first : Nat)
    (others : List Nat) : Slots :=
  if others.isEmpty then
    slots
  else
    { lanes :=
        (others.foldl (move first) slots.lanes).modify first fun lane =>
          lane.mergeSort fun one another => one.position ≤ another.position
      owners := slots.owners.map (Prod.map id (redirected first others)) }

/-- The slot for a request on some accounts, once their lanes are joined. -/
def slotFor
    (slots : Slots)
    (accounts : List AccountId) : Nat × Slots :=
  match slots.touched accounts with
  | [] => (slots.lanes.length, { slots with lanes := slots.lanes ++ [[]] })
  | first :: others => (first, slots.join first others)

/-- Place the next request of a batch, and have its accounts in its slot. -/
def place
    (slots : Slots)
    (placed : PlacedRequest) : Slots :=
  let accounts := placed.request.accounts
  let (slot, joined) := slots.slotFor accounts
  { lanes := joined.lanes.modify slot (· ++ [placed])
    owners := accounts.map (·, slot) ++ joined.owners }

end Slots

/-- The lanes of a batch, ordered by their first requests. -/
def ofBatch (batch : List ActionRequest) : List Lane :=
  let placed := batch.zipIdx.map fun (request, position) => ⟨position, request⟩
  (placed.foldl Slots.place .empty).lanes.filter (!·.isEmpty)

end Lane

end PatronFees
