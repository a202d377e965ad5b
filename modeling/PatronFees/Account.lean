import PatronFees.Money
import PatronFees.Text.LetterCase

namespace PatronFees

/-!
# Accounts

An account is one fee or fine that a patron owes. Applying an action leaves it
with a new balance and the label of the action; an account with nothing left to
pay is closed, and any other is open.
-/

/-- Whether an account still awaits payment. -/
inductive AccountStatus where
  | opened
  | closed
  deriving Repr, DecidableEq

namespace AccountStatus

def name : AccountStatus → String
  | .opened => "Open"
  | .closed => "Closed"

/-- Read a status, blanks around it and letter case aside. -/
def read (entered : String) : Checked AccountStatus :=
  let word := Text.lowercased (Text.trimmed entered)
  if word = "open" then
    .ok .opened
  else if word = "closed" then
    .ok .closed
  else
    .error (.malformed none (.unknownStatus entered))

end AccountStatus

/-- A fee or fine owed by a patron. -/
structure Account where
  id : AccountId
  user : UserId
  /-- What the fee or fine is for. -/
  feeFineType : String
  /-- What was owed at first. -/
  amount : Money
  /-- What is still owed. -/
  remaining : Money
  /-- The label of the last action. -/
  paymentStatus : String
  status : AccountStatus
  createdAt : Timestamp
  deriving Repr, DecidableEq

namespace Account

/-- The payment status of an account that no action has touched. -/
def outstanding : String := "Outstanding"

/-- A new account, on which everything is still owed. -/
def new
    (id : AccountId)
    (user : UserId)
    (feeFineType : String)
    (amount : Money)
    (createdAt : Timestamp) : Account where
  id := id
  user := user
  feeFineType := feeFineType
  amount := amount
  remaining := amount
  paymentStatus := outstanding
  status := .opened
  createdAt := createdAt

def isOpen (account : Account) : Bool :=
  account.status == .opened

def isClosed (account : Account) : Bool :=
  account.status == .closed

/-- The account after an action that left `remaining` to pay. -/
def apply
    (account : Account)
    (label : String)
    (remaining : Money) : Account :=
  if remaining.isZero then
    { account with
      paymentStatus := label
      remaining := Money.zero remaining.scale
      status := .closed }
  else
    { account with
      paymentStatus := label
      remaining := remaining
      status := .opened }

end Account

end PatronFees
