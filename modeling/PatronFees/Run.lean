import PatronFees.Batch
import PatronFees.Engine.Office
import PatronFees.Record.Tables
import PatronFees.Settings

namespace PatronFees

/-!
# Runs

A run loads a table of accounts, carries out a table of actions batch by batch,
and writes the accounts as they stand afterwards and, if wanted, the ledger.
Refused requests are reported and the run goes on; it fails only if a table
cannot be opened or a result cannot be written. What was done before a failure
stays done.
-/

/-- The files that a run may read, and where it may create one. -/
structure Workplace where
  /-- The bytes of a file, or why it cannot be read. -/
  contents : (path : String) → Except String (List UInt8)
  /-- Why a file cannot be created, if so. -/
  creationRefusal : (path : String) → Option String

/-- Why a file that does not exist cannot be read. -/
def Workplace.noSuchFile : String :=
  "No such file or directory (os error 2)"

/-- The files of a run. -/
structure RunPaths where
  accounts : String
  actions : String
  /-- Where the ledger is written to, if it is wanted. -/
  ledger : Option String
  deriving Repr, DecidableEq

/-- What is counted at the end of a run. -/
structure RunSummary where
  accounts : Nat
  applied : Nat
  refused : Nat
  entries : Nat
  notices : Nat
  deriving Repr, DecidableEq

/-- What comes of a run. -/
structure RunReport where
  outcome : Outcome RunSummary
  /-- What was written of the table of accounts. -/
  accounts : List UInt8
  /-- What was written of the ledger, if its file was created. -/
  ledger : Option (List UInt8)
  events : List Event

namespace Verdict

def isApplied : Verdict → Bool
  | .applied _ => true
  | .refused _ => false

end Verdict

namespace Processed

/-- The event of a refusal. -/
def refusal? (processed : Processed) : Option Event :=
  match processed.verdict with
  | .applied _ => none
  | .refused failure => some (.requestRefused processed.request failure)

end Processed

namespace Run

def reportAll (events : List Event) : Attempt Unit :=
  events.forM fun event => Attempt.ask (.report event)

/--
Carry out the actions of a table, batch by batch, until a batch counts no row.

Batches that count a row but use none up would go on forever.
-/
def carryOut
    (engine : Engine)
    (size : Nat)
    (reader : TableReader) :
    Attempt (List Processed) := do
  let batch := reader.readBatch TableFormat.actions size
  reportAll batch.warnings
  if batch.reader.rowsRead = reader.rowsRead then
    return []
  else if batch.reader.rows.length < reader.rows.length then
    let processed ← Batch.process engine batch.values
    reportAll (processed.filterMap Processed.refusal?)
    return processed ++ (← carryOut engine size batch.reader)
  else
    throw .endless
termination_by reader.rows.length

/-- The counts of a run over the accounts that were loaded. -/
def summary
    (loaded : AccountBook)
    (processed : List Processed)
    (office : Office) : RunSummary where
  accounts := loaded.size
  applied := processed.countP (·.verdict.isApplied)
  refused := processed.countP (!·.verdict.isApplied)
  entries := office.ledger.size
  notices := office.sent

/-- The failure to read a table. -/
def openFailure (path reason : String) : Failure :=
  .inputOutput s!"Failed to open file '{path}': {reason}"

/-- The failure to create the file of the ledger. -/
def ledgerFailure (path reason : String) : Failure :=
  .inputOutput s!"Failed to create ledger file '{path}': {reason}"

/-- The reader of a table in a file. -/
def openTable
    (workplace : Workplace)
    (path : String) :
    Outcome TableReader :=
  match workplace.contents path with
  | .ok bytes => .ok (TableReader.ofBytes bytes)
  | .error reason => Outcome.fail (openFailure path reason)

/-- The ledger as its file, if it can be created. -/
def writeLedger
    (workplace : Workplace)
    (path : String)
    (office : Office) :
    Checked Unit × Option (List UInt8) :=
  match workplace.creationRefusal path with
  | some reason => (.error (ledgerFailure path reason), none)
  | none =>
      let (written, outlet) :=
        LedgerEntry.writeTable office.ledger.entries Table.Outlet.unbounded
      (written, some outlet.written)

/-- Write the results: the accounts, and then the ledger if it is wanted. -/
def deliver
    (workplace : Workplace)
    (ledgerPath : Option String)
    (office : Office)
    (outlet : Table.Outlet) :
    Checked Unit × List UInt8 × Option (List UInt8) :=
  match Account.writeTable office.accounts.accounts outlet, ledgerPath with
  | (.error failure, after), _ => (.error failure, after.written, none)
  | (.ok (), after), none => (.ok (), after.written, none)
  | (.ok (), after), some path =>
      let (written, ledger) := writeLedger workplace path office
      (written, after.written, ledger)

/-- A report of a run that ended without results. -/
def halted (halt : Halt) (events : List Event) : RunReport :=
  ⟨.error halt, [], none, events⟩

/-- The run from the moment its accounts are in the office. -/
def runFrom
    (settings : Settings)
    (paths : RunPaths)
    (workplace : Workplace)
    (outlet : Table.Outlet)
    (office : Office) : RunReport :=
  match openTable workplace paths.actions with
  | .error halt => halted halt office.events
  | .ok reader =>
      let engine := Engine.new settings.currency.fractionDigits
      let (outcome, after) :=
        (carryOut engine settings.batch.size reader).run.run Office.answer office
      match outcome with
      | .error halt => halted halt after.events
      | .ok processed =>
          let (delivered, accounts, ledger) :=
            deliver workplace paths.ledger after outlet
          { outcome :=
              (Outcome.ofChecked delivered).map fun _ =>
                summary office.accounts processed after
            accounts := accounts
            ledger := ledger
            events := after.events }

/-- Run on the files of a workplace; `first` stamps the first ledger entry. -/
def run
    (settings : Settings)
    (paths : RunPaths)
    (workplace : Workplace)
    (first : Stamp)
    (outlet : Table.Outlet) : RunReport :=
  let loaded := do
    let reader ← openTable workplace paths.accounts
    reader.readAll (TableFormat.accounts settings.currency.fractionDigits)
      settings.batch.size
  match loaded with
  | .error halt => halted halt []
  | .ok batch =>
      let office :=
        Office.opened (AccountBook.ofList batch.values) first.id.number.toNat
          first.createdAt
      runFrom settings paths workplace outlet
        { office with reported := batch.warnings.reverse }

end Run

end PatronFees
