import PatronFees.Allocation
import PatronFees.Validation

namespace PatronFees

/-!
# Plans

A plan says, before anything is written, what an accepted request will record:
for every account that takes part, its postings and the account as it will be.
A cancellation closes each account over its whole balance. Any other action is
allocated among the accounts: by what is owed on them, or for refunds by what
is refundable.
-/

/-- What an action will do to one account. -/
structure AccountPlan where
  /-- The account as it will be. -/
  account : Account
  postings : List Posting
  deriving Repr, DecidableEq

/-- A request that has been checked against the accounts it names. -/
structure Reviewed where
  /-- The identifiers, each once, in the order of the request. -/
  ids : List AccountId
  accounts : AccountBook
  /-- What was paid, transferred and refunded, for refunds alone. -/
  history : List Posting
  preview : Preview
  deriving Repr, DecidableEq

namespace Reviewed

/-- The accounts that take part, in the order of the request. -/
def targets (reviewed : Reviewed) : List Account :=
  reviewed.ids.filterMap reviewed.accounts.find?

def historyOf
    (reviewed : Reviewed)
    (account : AccountId) :
    List Posting :=
  reviewed.history.filter (·.account == account)

end Reviewed

namespace AccountPlan

/-- The label of a cancellation: its reason, if one is given. -/
def cancellationLabel (options : ActionOptions) : String :=
  (options.reason.bind Text.nonBlank).getD ActionKind.cancel.fullLabel

/-- Close the whole balance of an account as an error. -/
def cancelling
    (account : Account)
    (scale : Nat)
    (options : ActionOptions) : AccountPlan :=
  let label := cancellationLabel options
  { account := account.apply label (Money.zero scale)
    postings :=
      [Posting.ofAction account label account.remaining (Money.zero scale) options] }

/-- Pay, waive or transfer a share of what is owed on an account. -/
def settling
    (kind : ActionKind)
    (account : Account)
    (share : Money)
    (options : ActionOptions) :
    Outcome AccountPlan := do
  let remaining ← account.remaining.subtract share
  let label := kind.label remaining.isZero
  return {
    account := account.apply label remaining
    postings := [Posting.ofAction account label share remaining options]
  }

/-- Refund a share of what an account's history has received. -/
def refunding
    (account : Account)
    (history : List Posting)
    (share : Money)
    (options : ActionOptions) :
    Outcome AccountPlan := do
  let breakdown ← Refund.Breakdown.calculate history share
  let postings ← breakdown.postings account options
  match postings.getLast? with
  | some last =>
      return ⟨account.apply last.actionType last.balance, postings⟩
  | none => return ⟨account, postings⟩

/-- The most that an action may allocate to an account. -/
def target
    (kind : ActionKind)
    (reviewed : Reviewed)
    (scale : Nat)
    (account : Account) :
    Outcome Target :=
  if kind = .refund then do
    let refundable ← Refund.refundable (reviewed.historyOf account.id) scale
    return ⟨account.id, refundable, account.createdAt⟩
  else
    .ok (Target.ofRemaining account)

/-- The plan for one share of an allocation. -/
def ofShare
    (kind : ActionKind)
    (reviewed : Reviewed)
    (options : ActionOptions)
    (share : AccountId × Money) :
    Outcome AccountPlan :=
  match reviewed.accounts.find? share.1 with
  | none => Outcome.fail (.accountNotFound share.1)
  | some account =>
      if kind = .refund then
        refunding account (reviewed.historyOf share.1) share.2 options
      else
        settling kind account share.2 options

/-- The plans for all accounts that a request affects. -/
def plans
    (kind : ActionKind)
    (reviewed : Reviewed)
    (scale : Nat)
    (options : ActionOptions) :
    Outcome (List AccountPlan) :=
  if kind = .cancel then
    .ok (reviewed.targets.map fun account => cancelling account scale options)
  else do
    let targets ← reviewed.targets.mapM (target kind reviewed scale)
    let allocation ← Allocation.split reviewed.preview.allowed targets
    allocation.shares.mapM (ofShare kind reviewed options)

end AccountPlan

end PatronFees
