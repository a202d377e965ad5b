import PatronFees.AccountBook
import PatronFees.Refund

namespace PatronFees

/-!
# Validation

A request is checked against the accounts it names before anything is written.
Every account must exist; the amount, where there is one, must be a positive
decimal; closed accounts take no action but refunds; and the amount may not
exceed what is owed, or for refunds what is refundable. The first rule broken
decides the failure.
-/

/-- Which rules a request is checked by. -/
inductive Validation where
  /-- Payments, waivers and transfers: up to what is owed. -/
  | settlement
  /-- Cancellations: always all that is owed. -/
  | cancellation
  /-- Refunds: up to what was received and not yet refunded. -/
  | refunding
  deriving Repr, DecidableEq

def ActionKind.validation : ActionKind → Validation
  | .cancel => .cancellation
  | .refund => .refunding
  | .pay | .waive | .transfer | .credit => .settlement

/-- What an action would do. -/
structure Preview where
  /-- The amount that would be applied. -/
  allowed : Money
  /-- What would still be owed, or for refunds be refundable. -/
  remaining : Money
  deriving Repr, DecidableEq

namespace Validation

/-- The accounts with the given identifiers, in their order. -/
def findAll
    (ids : List AccountId)
    (accounts : AccountBook) :
    Outcome (List Account) :=
  ids.mapM fun id =>
    match accounts.find? id with
    | some account => .ok account
    | none => Outcome.fail (.accountNotFound id)

/-- Read an amount above zero; a missing amount is an empty one. -/
def readPositive
    (entered : Option String)
    (scale : Nat) :
    Outcome Money := do
  let text := entered.getD ""
  let amount ← Outcome.ofChecked (Money.read text scale)
  if amount.isPositive then
    return amount
  else
    Outcome.fail (.invalidAmount text)

/-- Refuse the first closed account that the test holds for. -/
def refuseClosed
    (blocks : Account → Bool)
    (accounts : List Account) :
    Outcome Unit :=
  match accounts.find? fun account => account.isClosed && blocks account with
  | some account => Outcome.fail (.alreadyClosed account.id)
  | none => .ok ()

/-- What is left of `available` after `requested`, if it suffices. -/
def within (requested available : Money) : Outcome Money :=
  if available < requested then
    Outcome.fail (.exceedsAvailable requested.text available.text)
  else
    available.subtract requested

def check
    (rules : Validation)
    (ids : List AccountId)
    (accounts : AccountBook)
    (history : List Posting)
    (entered : Option String)
    (scale : Nat) :
    Outcome Preview := do
  let targets ← findAll ids accounts
  let owed ← Money.sum (targets.map (·.remaining)) scale
  match rules with
  | .cancellation =>
      refuseClosed (fun _ => true) targets
      return ⟨owed, Money.zero scale⟩
  | .settlement =>
      let requested ← readPositive entered scale
      refuseClosed (·.remaining.isZero) targets
      return ⟨requested, ← within requested owed⟩
  | .refunding =>
      let requested ← readPositive entered scale
      let refundable ← Refund.refundable history scale
      return ⟨requested, ← within requested refundable⟩

end Validation

end PatronFees
