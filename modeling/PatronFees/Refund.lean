import PatronFees.Ledger.Entry

namespace PatronFees

/-!
# Refunds

A refund first credits money back to the account and then records that it was
refunded, so the last balance is the one it started from. Money that the patron
paid goes back before money that was transferred to the bursar, each with a
credit and a refund of its own; nothing is recorded for a part that is zero.
Patrons are told about refunds, never about credits.
-/

namespace Refund

/-- The sum of the amounts of the given kinds in a history. -/
def sumOf
    (history : List Posting)
    (kinds : List ActionKind)
    (scale : Nat) :
    Outcome Money :=
  Money.sum
    ((history.filter fun posting =>
      kinds.any fun kind => posting.kind? == some kind).map (·.amount))
    scale

/-- What was paid and transferred, less what was refunded. -/
def refundable
    (history : List Posting)
    (scale : Nat) :
    Outcome Money := do
  let received ← sumOf history [.pay, .transfer] scale
  let refunded ← sumOf history [.refund] scale
  received.subtract refunded

/-- How a refund divides into payments and transfers. -/
structure Breakdown where
  /-- All that was paid and transferred, earlier refunds aside. -/
  received : Money
  paid : Money
  forPayments : Money
  forTransfers : Money
  /-- The refund gives back everything received. -/
  isFull : Bool
  deriving Repr, DecidableEq

namespace Breakdown

/-- Refund payments first, and transfers with what is left of the request. -/
def calculate
    (history : List Posting)
    (requested : Money) :
    Outcome Breakdown := do
  let paid ← sumOf history [.pay] requested.scale
  let transferred ← sumOf history [.transfer] requested.scale
  let received ← paid.add transferred
  let forPayments := min requested paid
  let forTransfers ← requested.subtract forPayments
  return {
    received := received
    paid := paid
    forPayments := forPayments
    forTransfers := forTransfers
    isFull := received ≤ requested
  }

/-- One posting of a refund before its balance is known. -/
structure Step where
  kind : ActionKind
  amount : Money
  information : String
  deriving Repr, DecidableEq

/-- The steps of a refund, those of nothing left out. -/
def steps (breakdown : Breakdown) : List Step :=
  [⟨.credit, breakdown.forPayments, "Refund to patron"⟩,
    ⟨.credit, breakdown.forTransfers, "Refund to Bursar"⟩,
    ⟨.refund, breakdown.forPayments, "Refunded to patron"⟩,
    ⟨.refund, breakdown.forTransfers, "Refunded to Bursar"⟩].filter
      fun step => !step.amount.isZero

/-- The balance after a step: credits lower it and refunds raise it. -/
def Step.balanceAfter
    (step : Step)
    (balance : Money) :
    Outcome Money :=
  if step.kind = .credit then
    balance.subtract step.amount
  else
    balance.add step.amount

/-- The postings of the steps, from a balance on. -/
def postingsFrom
    (account : Account)
    (options : ActionOptions)
    (full : Bool)
    (balance : Money) :
    List Step → Outcome (List Posting)
  | [] => .ok []
  | step :: rest => do
      let after ← step.balanceAfter balance
      let posting :=
        { Posting.ofAction account (step.kind.label full) step.amount after options with
          transactionInformation := some step.information
          notify := options.notifyPatron && step.kind != .credit }
      let later ← postingsFrom account options full after rest
      return posting :: later

/-- The postings of a refund on an account. -/
def postings
    (breakdown : Breakdown)
    (account : Account)
    (options : ActionOptions) :
    Outcome (List Posting) :=
  postingsFrom account options breakdown.isFull account.remaining breakdown.steps

end Breakdown

end Refund

end PatronFees
