import PatronFees.Action
import PatronFees.Text.Pieces

namespace PatronFees

/-!
# Action records

An action record is a request as it is written in a table, all text. It names
its accounts in one cell, divided by semicolons. The amount stays as it was
entered; it is judged with the rest of the request.
-/

/-- A request as it is written in a table. -/
structure ActionRecord where
  action : String
  accounts : String
  amount : Option String
  paymentMethod : Option String
  transactionInformation : Option String
  comments : Option String
  notify : Option String
  servicePoint : Option String
  source : Option String
  reason : Option String
  deriving Repr, DecidableEq

namespace ActionRecord

/-- The accounts that the record names, in its order. -/
def accountIds (record : ActionRecord) : List AccountId :=
  (Text.pieces ';' record.accounts.toList).filterMap fun piece =>
    Text.nonBlank (String.ofList piece)

/-- Whether the patron is to be told; by default not. -/
def readNotify (record : ActionRecord) : Checked Bool :=
  match record.notify.bind Text.nonBlank with
  | none => .ok false
  | some entered =>
      let word := Text.lowercased entered
      if ["false", "no", "0"].contains word then
        .ok false
      else if ["true", "yes", "1"].contains word then
        .ok true
      else
        .error (.malformed none (.badNotifyFlag word))

def toRequest (record : ActionRecord) : Checked ActionRequest := do
  let kind ← ActionKind.read record.action
  if record.accountIds.isEmpty then
    .error (.malformed none (.noAccounts record.action))
  else
    let notify ← record.readNotify
    return {
      kind := kind
      accounts := record.accountIds
      amount := record.amount.bind Text.nonBlank
      options := {
        comments := record.comments.bind Text.nonBlank
        notifyPatron := notify
        paymentMethod := record.paymentMethod.bind Text.nonBlank
        transactionInformation :=
          record.transactionInformation.bind Text.nonBlank
        servicePoint := record.servicePoint.bind Text.nonBlank
        source := record.source.bind Text.nonBlank
        reason := record.reason.bind Text.nonBlank
      }
    }

end ActionRecord

end PatronFees
