import PatronFees.Engine.Procedure
import PatronFees.Ledger.Basic

namespace PatronFees

/-!
# The office

The office holds the account book and the ledger in memory, sends notices and
keeps a record of events. It answers every request of a procedure, save those
that an outage makes it refuse.
-/

/-- The state of the stores, the notices and the events. -/
structure Office where
  accounts : AccountBook
  ledger : Ledger
  /-- The number of notices sent. -/
  sent : Nat
  /-- What was reported, the latest first. -/
  reported : List Event
  /-- The number of the next ledger entry identifier. -/
  nextId : Nat
  /-- The time at which entries are stamped. -/
  clock : Timestamp
  deriving Repr, DecidableEq

/-- Which services are out of order. -/
structure Outages where
  /-- Accounts cannot be loaded. -/
  loading : Bool
  /-- These accounts cannot be saved. -/
  unsavable : List AccountId
  /-- How many more single entries can be recorded; without a number, any. -/
  entriesLeft : Option Nat
  /-- Batches of entries are refused. -/
  batches : Bool
  /-- Histories cannot be read. -/
  histories : Bool
  /-- These patrons cannot be reached. -/
  unreachable : List UserId
  deriving Repr, DecidableEq

/-- Everything works. -/
def Outages.none : Outages :=
  ⟨false, [], Option.none, false, false, []⟩

namespace Office

/-- An office with an account book and nothing recorded yet. -/
def opened
    (accounts : AccountBook)
    (firstId : Nat)
    (clock : Timestamp) : Office :=
  ⟨accounts, Ledger.empty, 0, [], firstId, clock⟩

def events (office : Office) : List Event :=
  office.reported.reverse

def report
    (office : Office)
    (event : Event) : Office :=
  { office with reported := event :: office.reported }

def drawStamp (office : Office) : Stamp × Office :=
  (⟨EntryId.ofNat office.nextId, office.clock⟩,
    { office with nextId := office.nextId + 1 })

def recordEntry
    (office : Office)
    (entry : LedgerEntry) :
    Except StoreFailure Unit × Office :=
  match office.ledger.record entry with
  | .ok ledger => (.ok (), { office with ledger := ledger })
  | .error failure => (.error failure, office)

/-- Record a batch of entries, all or none. -/
def recordBatch
    (office : Office)
    (entries : List LedgerEntry) :
    Except StoreFailure Unit × Office :=
  match office.ledger.recordBatch entries with
  | .ok ledger => (.ok (), { office with ledger := ledger })
  | .error failure => (.error failure, office)

def saveAccount
    (office : Office)
    (account : Account) : Office :=
  { office with accounts := office.accounts.save account }

/-- Send a notice, which is itself reported. -/
def sendNotice
    (office : Office)
    (entry : LedgerEntry) : Office :=
  { office.report (.noticeSent entry.posting) with sent := office.sent + 1 }

/-- The refusal of a service that is out of order. -/
def down (service : String) : StoreFailure :=
  .unavailable s!"{service} down"

/-- Answer a request when every service works. -/
def answer :
    (request : Request) → Office → request.Reply × Office
  | .loadAccounts ids, office => (.ok (office.accounts.only ids), office)
  | .readHistory ids kinds, office => (.ok (office.ledger.find ids kinds), office)
  | .drawStamp, office => office.drawStamp
  | .recordEntry entry, office => office.recordEntry entry
  | .recordBatch entries, office => office.recordBatch entries
  | .saveAccount account, office => (.ok (), office.saveAccount account)
  | .sendNotice entry, office => (.ok (), office.sendNotice entry)
  | .report event, office => ((), office.report event)

/-- An office together with its outages. -/
structure Troubled where
  office : Office
  outages : Outages
  deriving Repr, DecidableEq

namespace Troubled

/-- Answer as the office would if every service worked. -/
def serve
    (request : Request)
    (troubled : Troubled) :
    request.Reply × Troubled :=
  let (reply, office) := Office.answer request troubled.office
  (reply, { troubled with office := office })

/-- Answer a request, or refuse it for an outage. -/
def answer
    (request : Request)
    (troubled : Troubled) :
    request.Reply × Troubled :=
  match request with
  | .loadAccounts ids =>
      if troubled.outages.loading then
        (.error (down "accounts"), troubled)
      else
        serve (.loadAccounts ids) troubled
  | .readHistory ids kinds =>
      if troubled.outages.histories then
        (.error (down "history"), troubled)
      else
        serve (.readHistory ids kinds) troubled
  | .drawStamp => serve .drawStamp troubled
  | .recordEntry entry =>
      match troubled.outages.entriesLeft with
      | none => serve (.recordEntry entry) troubled
      | some 0 => (.error (down "ledger"), troubled)
      | some (left + 1) =>
          let (reply, after) := serve (.recordEntry entry) troubled
          (reply,
            { after with
              outages := { after.outages with entriesLeft := some left } })
  | .recordBatch entries =>
      if troubled.outages.batches then
        (.error (.batchRejected entries.length "read-only"), troubled)
      else
        serve (.recordBatch entries) troubled
  | .saveAccount account =>
      if troubled.outages.unsavable.contains account.id then
        (.error (down account.id), troubled)
      else
        serve (.saveAccount account) troubled
  | .sendNotice entry =>
      if troubled.outages.unreachable.contains entry.posting.user then
        (.error ⟨entry.posting.user, "mail server down"⟩, troubled)
      else
        serve (.sendNotice entry) troubled
  | .report event => serve (.report event) troubled

end Troubled

end Office

end PatronFees
