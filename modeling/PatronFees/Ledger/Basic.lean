import PatronFees.Ledger.Entry

namespace PatronFees

/-!
# The ledger

The ledger only grows. It keeps the entries of each account together, numbered
in the order in which they were recorded, so that an account's history is at
hand and the whole can be listed in order. No identifier is recorded twice: a
single entry that repeats one is refused, and so is a whole batch in which one
is repeated, within the batch or from before.
-/

/-- An entry with its number in the order of recording. -/
structure NumberedEntry where
  number : Nat
  entry : LedgerEntry
  deriving Repr, DecidableEq

/-- The recorded entries, by account. -/
structure Ledger where
  histories : List (AccountId × List NumberedEntry)
  /-- The identifiers of all entries. -/
  ids : List EntryId
  /-- The number of the next entry. -/
  next : Nat
  deriving Repr, DecidableEq

namespace Ledger

def empty : Ledger :=
  ⟨[], [], 0⟩

/-- Append an entry to the history of its account. -/
def file
    (numbered : NumberedEntry) :
    List (AccountId × List NumberedEntry) →
      List (AccountId × List NumberedEntry)
  | [] => [(numbered.entry.account, [numbered])]
  | (account, history) :: rest =>
      if account = numbered.entry.account then
        (account, history ++ [numbered]) :: rest
      else
        (account, history) :: file numbered rest

/-- Append an entry, its identifier unchecked. -/
def append
    (ledger : Ledger)
    (entry : LedgerEntry) : Ledger where
  histories := file ⟨ledger.next, entry⟩ ledger.histories
  ids := entry.id :: ledger.ids
  next := ledger.next + 1

/-- The refusal of an identifier that is already in use. -/
def conflict (entry : LedgerEntry) : StoreFailure :=
  .conflict entry.id.text "ledger entry already exists"

def record
    (ledger : Ledger)
    (entry : LedgerEntry) :
    Except StoreFailure Ledger :=
  if ledger.ids.contains entry.id then
    .error (conflict entry)
  else
    .ok (ledger.append entry)

/-- The first entry whose identifier is in use before it. -/
def firstRepeated?
    (used : List EntryId) :
    List LedgerEntry → Option LedgerEntry
  | [] => none
  | entry :: rest =>
      if used.contains entry.id then
        some entry
      else
        firstRepeated? (entry.id :: used) rest

/-- Record a batch of entries, all or none. -/
def recordBatch
    (ledger : Ledger)
    (entries : List LedgerEntry) :
    Except StoreFailure Ledger :=
  match firstRepeated? ledger.ids entries with
  | some repeated =>
      .error (.batchRejected entries.length (conflict repeated).message)
  | none => .ok (entries.foldl append ledger)

/-- Entries in the order of their numbers. -/
def inOrder (entries : List NumberedEntry) : List LedgerEntry :=
  (entries.mergeSort fun first second => first.number ≤ second.number).map
    (·.entry)

def entries (ledger : Ledger) : List LedgerEntry :=
  inOrder (ledger.histories.flatMap Prod.snd)

def numberedOf
    (ledger : Ledger)
    (account : AccountId) :
    List NumberedEntry :=
  (ledger.histories.lookup account).getD []

/-- The entries of one account in the order of recording. -/
def historyOf
    (ledger : Ledger)
    (account : AccountId) :
    List LedgerEntry :=
  (ledger.numberedOf account).map (·.entry)

/--
The entries of the given accounts in the order of recording: those of the given
kinds, or all of them if no kind is given.
-/
def find
    (ledger : Ledger)
    (accounts : List AccountId)
    (kinds : List ActionKind) :
    List LedgerEntry :=
  inOrder
    (accounts.eraseDups.flatMap fun account =>
      (ledger.numberedOf account).filter fun numbered =>
        kinds.isEmpty || numbered.entry.isOneOf kinds)

def size (ledger : Ledger) : Nat :=
  ledger.ids.length

def isEmpty (ledger : Ledger) : Bool :=
  ledger.ids.isEmpty

end Ledger

end PatronFees
