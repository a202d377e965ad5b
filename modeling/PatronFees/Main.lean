import PatronFees.CommandLine.Execution
import Std.Time.DateTime.Timestamp

/-!
# The program

The outermost layer reads the files that a command line names, carries it out,
and writes what comes of it.
-/

namespace PatronFees.Program

/-- Why a file cannot be read or written. -/
def reasonOf : IO.Error → String
  | .noFileOrDirectory _ _ _ => Workplace.noSuchFile
  | .permissionDenied _ _ _ => "Permission denied (os error 13)"
  | .inappropriateType _ _ _ => "Is a directory (os error 21)"
  | error => toString error

/-- The bytes of a file, or why it cannot be read. -/
def contentsOf (path : String) : IO (Except String (List UInt8)) := do
  try
    return .ok (← IO.FS.readBinFile path).toList
  catch error =>
    return .error (reasonOf error)

/-- The files that a command line reads. -/
def inputPaths (line : CommandLine) : List String :=
  line.config.toList ++ [line.accounts, line.actions]

/-- A workplace with the files that the words of a command line name. -/
def openWorkplace (words : List String) : IO Workplace := do
  let paths :=
    match CommandLine.read words with
    | .ok line => inputPaths line
    | .error _ => []
  let files ← paths.mapM fun path => do
    return (path, ← contentsOf path)
  return {
    contents := fun path =>
      (files.lookup path).getD (.error Workplace.noSuchFile)
    creationRefusal := fun _ => none
  }

/-- A stamp with the time of day and a random identifier. -/
def firstStamp : IO Stamp := do
  let random ← IO.getRandomBytes 16
  let now ← Std.Time.Timestamp.now
  let number := random.toList.foldl (fun total byte => total * 256 + byte.toNat) 0
  return ⟨EntryId.ofNat number, ⟨now.toSecondsSinceUnixEpoch.val, 0⟩⟩

/-- Create the file of the ledger; the exit code and complaint if that fails. -/
def createLedger (path : String) (bytes : List UInt8) : IO (Option String) := do
  try
    IO.FS.writeBinFile path ⟨bytes.toArray⟩
    return none
  catch error =>
    let failure := Run.ledgerFailure path (reasonOf error)
    return some (CommandLine.complaintOf (.failed failure))

/-- Write the ledger of a result where its command line wants it. -/
def deliverLedger (words : List String) (result : CommandResult) :
    IO (Option String) := do
  match CommandLine.read words, result.ledger with
  | .ok line, some bytes =>
      match line.ledgerOut with
      | some path => createLedger path bytes
      | none => return none
  | _, _ => return none

end PatronFees.Program

open PatronFees in
/-- Carry out the command line. -/
def main (words : List String) : IO UInt32 := do
  let workplace ← Program.openWorkplace words
  let result := CommandLine.execute words workplace (← Program.firstStamp)
  let output ← IO.getStdout
  let errors ← IO.getStderr
  for event in result.events do
    errors.putStr event.logLine
  output.write ⟨result.output.toArray⟩
  output.flush
  match ← Program.deliverLedger words result with
  | some complaint =>
      errors.putStr complaint
      return 1
  | none =>
      errors.putStr result.complaint
      return UInt32.ofNat result.exitCode
