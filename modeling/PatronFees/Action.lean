import PatronFees.Failure
import PatronFees.Text.Blank
import PatronFees.Text.LetterCase

namespace PatronFees

/-!
# Actions

An action pays, waives, transfers, refunds or cancels what is owed on one or
more accounts. Refunds also record credits, which nobody can request. Each kind
has a label for an action that settles the whole balance and one for an action
that settles a part; a ledger entry's kind is read off its label.
-/

/-- What an action does to an account. -/
inductive ActionKind where
  | pay
  | waive
  | transfer
  | refund
  | cancel
  | credit
  deriving Repr, DecidableEq

namespace ActionKind

def all : List ActionKind :=
  [.pay, .waive, .transfer, .refund, .cancel, .credit]

/-- The name of a kind in requests and messages. -/
def name : ActionKind → String
  | .pay => "pay"
  | .waive => "waive"
  | .transfer => "transfer"
  | .refund => "refund"
  | .cancel => "cancel"
  | .credit => "credit"

/-- The label of an entry that settles a part. -/
def partialLabel : ActionKind → String
  | .pay => "Paid partially"
  | .waive => "Waived partially"
  | .transfer => "Transferred partially"
  | .refund => "Refunded partially"
  | .cancel => "Cancelled as error"
  | .credit => "Credited partially"

/-- The label of an entry that settles everything. -/
def fullLabel : ActionKind → String
  | .pay => "Paid fully"
  | .waive => "Waived fully"
  | .transfer => "Transferred fully"
  | .refund => "Refunded fully"
  | .cancel => "Cancelled as error"
  | .credit => "Credited fully"

/-- The label of an entry, by whether it settles everything. -/
def label (kind : ActionKind) (full : Bool) : String :=
  if full then kind.fullLabel else kind.partialLabel

/-- The kind that a label stands for; other labels stand for none. -/
def ofLabel? (label : String) : Option ActionKind :=
  all.find? fun kind => label == kind.fullLabel || label == kind.partialLabel

/-- Callers may request every kind but credits. -/
def isRequestable : ActionKind → Bool
  | .credit => false
  | .pay | .waive | .transfer | .refund | .cancel => true

/-- Read a requested kind, blanks around it and letter case aside. -/
def read (entered : String) : Checked ActionKind :=
  let word := Text.lowercased (Text.trimmed entered)
  match (all.filter isRequestable).find? (·.name == word) with
  | some kind => .ok kind
  | none => .error (.malformed none (.unknownAction entered))

end ActionKind

/-- What a caller adds to an action. -/
structure ActionOptions where
  comments : Option String
  notifyPatron : Bool
  paymentMethod : Option String
  transactionInformation : Option String
  servicePoint : Option String
  /-- The name of the member of staff. -/
  source : Option String
  /-- Why the action is taken; a cancellation is labelled with it. -/
  reason : Option String
  deriving Repr, DecidableEq

/-- Nothing added, no notice wanted. -/
def ActionOptions.none : ActionOptions :=
  ⟨Option.none, false, Option.none, Option.none, Option.none, Option.none, Option.none⟩

/-- An action asked for on one or more accounts. -/
structure ActionRequest where
  kind : ActionKind
  accounts : List AccountId
  /-- The amount as it was entered. -/
  amount : Option String
  options : ActionOptions
  deriving Repr, DecidableEq

/-- The request names several accounts. -/
def ActionRequest.isBulk (request : ActionRequest) : Bool :=
  1 < request.accounts.length

end PatronFees
