import PatronFees.CommandLine.Basic
import PatronFees.Run

namespace PatronFees

/-!
# Carrying out a command line

Settings come from the configuration file, if one is named, and then from the
options. The accounts go to the standard output, logged events and complaints to
the standard error, and the exit code says how it went: 0 for a finished run or
for help, 1 for a failure, 2 for words that make no command line.
-/

/-- What carrying out a command line leaves behind. -/
structure CommandResult where
  exitCode : Nat
  output : List UInt8
  complaint : String
  /-- The bytes of the file of the ledger, if it is to be created. -/
  ledger : Option (List UInt8)
  /-- The events that are logged, in order. -/
  events : List Event
  deriving Repr, DecidableEq

namespace CommandLine

/-- The failure to read a configuration file. -/
def configFailure (path reason : String) : Failure :=
  .inputOutput s!"Failed to read config '{path}': {reason}"

/-- The settings of a configuration file. -/
def settingsOfFile
    (workplace : Workplace)
    (path : String) :
    Checked Settings :=
  match workplace.contents path with
  | .error reason => .error (configFailure path reason)
  | .ok bytes =>
      match String.fromUTF8? ⟨bytes.toArray⟩ with
      | some document => Settings.read document
      | none =>
          .error (configFailure path "stream did not contain valid UTF-8")

/-- The settings with those of the options in their stead. -/
def override
    (line : CommandLine)
    (settings : Settings) : Settings where
  currency := settings.currency
  logging :=
    { settings.logging with
      level := line.logLevel.getD settings.logging.level }
  batch :=
    { size := line.batchSize.getD settings.batch.size
      workers := line.workerThreads <|> settings.batch.workers }

/-- The settings of a command line. -/
def settings
    (line : CommandLine)
    (workplace : Workplace) :
    Checked Settings := do
  match line.config with
  | none => return line.override .standard
  | some path => return line.override (← settingsOfFile workplace path)

/-- The files of a command line. -/
def paths (line : CommandLine) : RunPaths where
  accounts := line.accounts
  actions := line.actions
  ledger := line.ledgerOut

/-- The complaint about a computation that ended without a result. -/
def complaintOf : Halt → String
  | .failed failure => s!"run failed: {failure.message}\n"
  | .overflow operation => s!"run failed: {operation.overflowMessage}\n"
  | .endless => "run failed: the table has no end\n"

/-- Run with the settings of a command line, zeros in them replaced. -/
def runWith
    (line : CommandLine)
    (settings : Settings)
    (workplace : Workplace)
    (first : Stamp) : CommandResult :=
  let (batch, warnings) := settings.batch.normalized
  let report :=
    Run.run { settings with batch := batch } line.paths workplace first .unbounded
  let (exitCode, complaint) :=
    match report.outcome with
    | .ok _ => (0, "")
    | .error halt => (1, complaintOf halt)
  { exitCode := exitCode
    output := report.accounts
    complaint := complaint
    ledger := report.ledger
    events := (warnings ++ report.events).filter settings.logging.shows }

/-- The result of ending before anything was done. -/
def ended
    (exitCode : Nat)
    (output complaint : String) : CommandResult :=
  ⟨exitCode, output.toUTF8.toList, complaint, none, []⟩

/-- Carry out the words of a command line. -/
def execute
    (words : List String)
    (workplace : Workplace)
    (first : Stamp) : CommandResult :=
  match read words with
  | .error .helpWanted => ended 0 helpText ""
  | .error error => ended 2 "" s!"error: {error.message}\n"
  | .ok line =>
      match line.settings workplace with
      | .error failure => ended 1 "" s!"Error: {failure.message}\n"
      | .ok settings => line.runWith settings workplace first

end CommandLine

end PatronFees
