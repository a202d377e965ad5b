import PatronFees.Timestamp.Reading

namespace PatronFees

/-!
# Failures

A failure says why a request, a record or a file was refused. Each kind of
failure has one wording and one status code; codes below 500 are for the person
who made the request to mend. Two more ways to end without a result are not
failures that anyone can handle: arithmetic that leaves the range of decimals,
and a computation that repeats itself forever.
-/

/-- An identifier of a fee or fine account. -/
abbrev AccountId := String

/-- An identifier of a library patron. -/
abbrev UserId := String

/-- Why a store of accounts or of ledger entries refused an operation. -/
inductive StoreFailure where
  | unavailable (reason : String)
  | conflict (id : String) (reason : String)
  | batchRejected (size : Nat) (reason : String)
  deriving Repr, DecidableEq

def StoreFailure.message : StoreFailure → String
  | .unavailable reason => s!"storage unavailable: {reason}"
  | .conflict id reason => s!"conflicting record {id}: {reason}"
  | .batchRejected size reason => s!"batch of {size} entries rejected: {reason}"

/-- A notice that could not be delivered to a patron. -/
structure NoticeFailure where
  user : UserId
  reason : String
  deriving Repr, DecidableEq

def NoticeFailure.message (failure : NoticeFailure) : String :=
  s!"failed to notify patron {failure.user}: {failure.reason}"

/-- What is wrong with a record or a configuration. -/
inductive Defect where
  | unknownAction (entered : String)
  | unknownStatus (entered : String)
  | badTimestamp (entered : String) (account : AccountId) (error : TimestampError)
  | remainingOutside (remaining : String) (account : AccountId) (amount : String)
  | closedOwing (account : AccountId) (remaining : String)
  | noAccounts (action : String)
  | badNotifyFlag (entered : String)
  | malformedConfiguration
  | tooManyFractionDigits (digits limit : Nat)
  | other (description : String)
  deriving Repr, DecidableEq

def Defect.message : Defect → String
  | .unknownAction entered => s!"Invalid action '{entered}'"
  | .unknownStatus entered => s!"Invalid account status '{entered}'"
  | .badTimestamp entered account error =>
      s!"Invalid created_at '{entered}' for account {account}: " ++ error.message
  | .remainingOutside remaining account amount =>
      s!"Remaining {remaining} of account {account} is outside 0..={amount}"
  | .closedOwing account remaining =>
      s!"Account {account} is closed but still owes {remaining}"
  | .noAccounts action => s!"Action '{action}' names no accounts"
  | .badNotifyFlag entered => s!"Invalid notify flag '{entered}'"
  | .malformedConfiguration => "Invalid configuration: TOML parse error"
  | .tooManyFractionDigits digits limit =>
      s!"Invalid configuration: fraction_digits {digits} exceeds the maximum of {limit}"
  | .other description => description

/-- Why a request, a record or a file was refused. -/
inductive Failure where
  | invalidAmount (entered : String)
  | unsupportedAction (action : String)
  | divisionByZero
  | accountNotFound (account : AccountId)
  | alreadyClosed (account : AccountId)
  | exceedsAvailable (requested available : String)
  /-- The shares of an allocation do not add up to its total. -/
  | unbalancedAllocation (expected actual : String)
  | store (cause : StoreFailure)
  | inputOutput (description : String)
  /-- A record that cannot be read, with its line where that is known. -/
  | malformed (line : Option Nat) (defect : Defect)
  deriving Repr, DecidableEq

namespace Failure

def message : Failure → String
  | .invalidAmount entered => s!"Invalid amount entered: '{entered}'"
  | .unsupportedAction action => s!"Action '{action}' cannot be performed directly"
  | .divisionByZero => "Division by zero"
  | .accountNotFound account => s!"Fee/fine {account} was not found"
  | .alreadyClosed account => s!"Fee/fine {account} is already closed"
  | .exceedsAvailable requested available =>
      s!"Requested amount {requested} exceeds available amount {available}"
  | .unbalancedAllocation _ _ =>
      "Internal error while distributing the requested amount"
  | .store cause => "Storage error: " ++ cause.message
  | .inputOutput description => s!"I/O error: {description}"
  | .malformed none defect => "CSV parse error: " ++ defect.message
  | .malformed (some line) defect =>
      s!"CSV parse error at line {line}: " ++ defect.message

/-- The status code of a failure, by the conventions of web services. -/
def status : Failure → Nat
  | .invalidAmount _ | .unsupportedAction _ | .malformed _ _ => 400
  | .accountNotFound _ => 404
  | .alreadyClosed _ | .exceedsAvailable _ _ => 422
  | .divisionByZero | .unbalancedAllocation _ _ | .store _ | .inputOutput _ => 500

/-- The person who made the request can mend it and try again. -/
def isRecoverable (failure : Failure) : Bool :=
  failure.status < 500

end Failure

/-- The operations of decimal arithmetic that can leave the range of decimals. -/
inductive Arithmetic where
  | addition
  | subtraction
  | multiplication
  deriving Repr, DecidableEq

/-- The wording for arithmetic that leaves the range of decimals. -/
def Arithmetic.overflowMessage : Arithmetic → String
  | .addition => "Addition overflowed"
  | .subtraction => "Subtraction overflowed"
  | .multiplication => "Multiplication overflowed"

/-- Why a computation ends without a result. -/
inductive Halt where
  | failed (failure : Failure)
  | overflow (operation : Arithmetic)
  /-- The computation would repeat the same state forever. -/
  | endless
  deriving Repr, DecidableEq

/-- A value that was read or checked, or why it was refused. -/
abbrev Checked (α : Type) := Except Failure α

/-- A result, or why there is none. -/
abbrev Outcome (α : Type) := Except Halt α

namespace Outcome

/-- The outcome of a failed request. -/
def fail {α : Type} (failure : Failure) : Outcome α :=
  .error (.failed failure)

/-- The outcome of a check. -/
def ofChecked {α : Type} (checked : Checked α) : Outcome α :=
  checked.mapError .failed

end Outcome

end PatronFees
