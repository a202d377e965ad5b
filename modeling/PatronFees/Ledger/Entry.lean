import PatronFees.Account
import PatronFees.Action

namespace PatronFees

/-!
# Ledger entries

A posting says what an action did to one account. Recorded in the ledger it
becomes an entry: it is stamped with an identifier of its own and the time.
-/

/-- An identifier of a ledger entry, a number of 128 bits. -/
structure EntryId where
  number : BitVec 128
  deriving Repr, DecidableEq

namespace EntryId

/-- The identifier with a number, which counts modulo `2 ^ 128`. -/
def ofNat (number : Nat) : EntryId :=
  ⟨BitVec.ofNat 128 number⟩

/-- The last `width` hexadecimal digits of a number, with leading zeros. -/
def hexDigits : (width : Nat) → (number : Nat) → List Char
  | 0, _ => []
  | width + 1, number =>
      hexDigits width (number / 16) ++ [Nat.digitChar (number % 16)]

/-- The text of an identifier: 32 hexadecimal digits in five groups. -/
def text (id : EntryId) : String :=
  let digits := hexDigits 32 id.number.toNat
  String.ofList
    (digits.take 8 ++
      '-' :: (digits.drop 8).take 4 ++
      '-' :: (digits.drop 12).take 4 ++
      '-' :: (digits.drop 16).take 4 ++
      '-' :: digits.drop 20)

end EntryId

/-- What an action did to one account. -/
structure Posting where
  account : AccountId
  user : UserId
  /-- The label of the action. -/
  actionType : String
  amount : Money
  /-- What the account owes after the action. -/
  balance : Money
  comments : Option String
  paymentMethod : Option String
  transactionInformation : Option String
  servicePoint : Option String
  source : Option String
  /-- The patron is to be told. -/
  notify : Bool
  deriving Repr, DecidableEq

namespace Posting

/-- The posting of an action on an account. -/
def ofAction
    (account : Account)
    (actionType : String)
    (amount balance : Money)
    (options : ActionOptions) : Posting where
  account := account.id
  user := account.user
  actionType := actionType
  amount := amount
  balance := balance
  comments := options.comments
  paymentMethod := options.paymentMethod
  transactionInformation := options.transactionInformation
  servicePoint := options.servicePoint
  source := options.source
  notify := options.notifyPatron

/-- The kind of action, read off the label. -/
def kind? (posting : Posting) : Option ActionKind :=
  ActionKind.ofLabel? posting.actionType

end Posting

/-- What sets one recording of a posting apart from another. -/
structure Stamp where
  id : EntryId
  createdAt : Timestamp
  deriving Repr, DecidableEq

/-- A posting recorded in the ledger. -/
structure LedgerEntry where
  stamp : Stamp
  posting : Posting
  deriving Repr, DecidableEq

namespace LedgerEntry

def id (entry : LedgerEntry) : EntryId :=
  entry.stamp.id

def account (entry : LedgerEntry) : AccountId :=
  entry.posting.account

/-- The kind of action of an entry, read off its label. -/
def kind? (entry : LedgerEntry) : Option ActionKind :=
  entry.posting.kind?

/-- The entry's kind is among the given ones. -/
def isOneOf
    (kinds : List ActionKind)
    (entry : LedgerEntry) : Bool :=
  match entry.kind? with
  | some kind => kinds.contains kind
  | none => false

end LedgerEntry

end PatronFees
