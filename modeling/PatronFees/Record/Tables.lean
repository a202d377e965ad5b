import PatronFees.Ledger.Entry
import PatronFees.Record.Account
import PatronFees.Record.Action
import PatronFees.Table.Reader
import PatronFees.Table.Writing
import PatronFees.Timestamp.Printing

namespace PatronFees

/-!
# Tables of records

The tables of accounts and of actions are read, and the tables of accounts and
of ledger entries are written. Accounts are written in the columns that they
are read from, in the order of their identifiers, and with their names even if
there are none; a table of no entries is empty.
-/

/-- The columns of accounts. -/
def AccountRecord.layout : Table.Layout where
  required := ["id", "user_id", "fee_fine_type", "amount"]
  optional := ["remaining", "status", "payment_status", "created_at"]

/-- The record in a row of accounts. -/
def AccountRecord.ofCells (cells : Table.Cells) : AccountRecord where
  id := cells.text "id"
  user := cells.text "user_id"
  feeFineType := cells.text "fee_fine_type"
  amount := cells.text "amount"
  remaining := cells.text? "remaining"
  status := cells.text? "status"
  paymentStatus := cells.text? "payment_status"
  createdAt := cells.text? "created_at"

/-- The columns of actions. -/
def ActionRecord.layout : Table.Layout where
  required := ["action", "accounts"]
  optional :=
    ["amount", "payment_method", "transaction_info", "comments", "notify",
      "service_point", "user_name", "reason"]

/-- The record in a row of actions. -/
def ActionRecord.ofCells (cells : Table.Cells) : ActionRecord where
  action := cells.text "action"
  accounts := cells.text "accounts"
  amount := cells.text? "amount"
  paymentMethod := cells.text? "payment_method"
  transactionInformation := cells.text? "transaction_info"
  comments := cells.text? "comments"
  notify := cells.text? "notify"
  servicePoint := cells.text? "service_point"
  source := cells.text? "user_name"
  reason := cells.text? "reason"

namespace TableFormat

def accounts (scale : Nat) : TableFormat Account where
  layout := AccountRecord.layout
  convert cells := (AccountRecord.ofCells cells).toAccount scale

def actions : TableFormat ActionRequest where
  layout := ActionRecord.layout
  convert cells := (ActionRecord.ofCells cells).toRequest

end TableFormat

namespace Account

/-- An account in the columns of accounts. -/
def texts (account : Account) : List String :=
  [account.id, account.user, account.feeFineType, account.amount.text,
    account.remaining.text, account.status.name, account.paymentStatus,
    account.createdAt.text .seconds]

/-- Accounts in the order of their identifiers. -/
def sorted (accounts : List Account) : List Account :=
  accounts.mergeSort fun first second => (compare first.id second.id).isLE

/-- The rows of a table of accounts, its header first. -/
def rows (accounts : List Account) : List Table.Row :=
  Table.rowOfTexts AccountRecord.layout.columns ::
    (sorted accounts).map fun account => Table.rowOfTexts account.texts

def writeTable
    (accounts : List Account)
    (outlet : Table.Outlet) :
    Checked Unit × Table.Outlet :=
  Table.write (rows accounts) outlet

end Account

namespace LedgerEntry

/-- The columns of ledger entries. -/
def columns : List String :=
  ["id", "account_id", "user_id", "action_type", "amount", "balance",
    "payment_method", "transaction_information", "service_point", "source",
    "comments", "notify", "created_at"]

/-- An entry in the columns of ledger entries. -/
def texts (entry : LedgerEntry) : List String :=
  [entry.id.text, entry.posting.account, entry.posting.user,
    entry.posting.actionType, entry.posting.amount.text,
    entry.posting.balance.text, entry.posting.paymentMethod.getD "",
    entry.posting.transactionInformation.getD "",
    entry.posting.servicePoint.getD "", entry.posting.source.getD "",
    entry.posting.comments.getD "",
    if entry.posting.notify then "true" else "false",
    entry.stamp.createdAt.text .seconds]

/-- The rows of a table of entries, its header first; none without entries. -/
def rows (entries : List LedgerEntry) : List Table.Row :=
  if entries.isEmpty then
    []
  else
    Table.rowOfTexts columns ::
      entries.map fun entry => Table.rowOfTexts entry.texts

/-- Write a table of ledger entries, in their order. -/
def writeTable
    (entries : List LedgerEntry)
    (outlet : Table.Outlet) :
    Checked Unit × Table.Outlet :=
  Table.write (rows entries) outlet

end LedgerEntry

end PatronFees
