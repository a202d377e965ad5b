import PatronFees.Account
import PatronFees.Timestamp.Reading

namespace PatronFees

/-!
# Account records

An account record is an account as it is written in a table, all text. What may
be left out is filled in: nothing has been paid yet, the account is open, and
it dates from the epoch, before all dated accounts. A record is refused unless
its balance lies between nothing and its amount, and is nothing if it is closed.
-/

/-- An account as it is written in a table. -/
structure AccountRecord where
  id : String
  user : String
  feeFineType : String
  amount : String
  remaining : Option String
  status : Option String
  paymentStatus : Option String
  createdAt : Option String
  deriving Repr, DecidableEq

namespace AccountRecord

/-- The time at which the account was created. -/
def readCreatedAt (record : AccountRecord) : Checked Timestamp :=
  match record.createdAt.bind Text.nonBlank with
  | none => .ok Timestamp.epoch
  | some entered =>
      match Timestamp.read entered with
      | .ok timestamp => .ok timestamp
      | .error error =>
          .error (.malformed none (.badTimestamp entered record.id error))

/-- What is still owed. -/
def readRemaining
    (record : AccountRecord)
    (amount : Money)
    (scale : Nat) :
    Checked Money :=
  match record.remaining.bind Text.nonBlank with
  | none => .ok amount
  | some entered => Money.read entered scale

/-- Whether the account is open. -/
def readStatus (record : AccountRecord) : Checked AccountStatus :=
  match record.status.bind Text.nonBlank with
  | none => .ok .opened
  | some entered => AccountStatus.read entered

/-- The account that a record describes, its balance unchecked. -/
def readFields
    (record : AccountRecord)
    (scale : Nat) :
    Checked Account := do
  let amount ← Money.read record.amount scale
  let createdAt ← record.readCreatedAt
  let remaining ← record.readRemaining amount scale
  let status ← record.readStatus
  return {
    id := record.id
    user := record.user
    feeFineType := record.feeFineType
    amount := amount
    remaining := remaining
    paymentStatus :=
      (record.paymentStatus.bind Text.nonBlank).getD Account.outstanding
    status := status
    createdAt := createdAt
  }

end AccountRecord

namespace Account

/-- No less than nothing and no more than the amount is owed. -/
def owesWithinAmount (account : Account) : Bool :=
  !account.remaining.isNegative && account.remaining ≤ account.amount

/-- Refuse a balance outside the amount, and a closed account that owes. -/
def checkBalance (account : Account) : Checked Account :=
  if !account.owesWithinAmount then
    .error (.malformed none
      (.remainingOutside account.remaining.text account.id account.amount.text))
  else if account.isClosed && !account.remaining.isZero then
    .error (.malformed none
      (.closedOwing account.id account.remaining.text))
  else
    .ok account

end Account

def AccountRecord.toAccount
    (record : AccountRecord)
    (scale : Nat) :
    Checked Account := do
  (← record.readFields scale).checkBalance

end PatronFees
