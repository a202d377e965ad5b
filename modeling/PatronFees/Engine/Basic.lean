import PatronFees.Engine.Plan
import PatronFees.Engine.Procedure

namespace PatronFees

/-!
# The engine

The engine carries out requests as procedures. Each first loads the accounts
and checks the request, then plans what to record; nothing is written unless
both succeed. Entries are written before accounts: for a single account one by
one, for several accounts as one batch. Notices come last, and one that cannot
be delivered is reported and changes nothing else.
-/

/-- Carries out requests at the scale of a currency. -/
structure Engine where
  /-- The fraction digits of the currency. -/
  scale : Nat
  scale_le : scale ≤ Money.maxScale
  deriving Repr

/-- What an action did to one account. -/
structure ActionResult where
  /-- The amount applied. -/
  amount : Money
  /-- What is still owed, or for refunds is still refundable. -/
  remaining : Money
  /-- The account as saved. -/
  account : Account
  /-- The entries recorded, in order. -/
  entries : List LedgerEntry
  deriving Repr, DecidableEq

/-- What an action did to several accounts. -/
structure BulkResult where
  /-- The amount applied in all. -/
  amount : Money
  /-- What is still owed in all, or for refunds is still refundable. -/
  remaining : Money
  /-- Every account of the request, in its order, as it stands afterwards. -/
  accounts : List Account
  /-- The entries recorded, in the order of allocation. -/
  entries : List LedgerEntry
  deriving Repr, DecidableEq

/--
An order in which accounts come to be saved when none of them waits for another.
-/
structure SaveOrder where
  arrange : List Account → List Account
  perm (accounts : List Account) : (arrange accounts).Perm accounts

/-- The order of the list, as it is when no save takes its time. -/
def SaveOrder.listed : SaveOrder :=
  ⟨id, fun _ => .refl _⟩

namespace Engine

/-- The engine for a scale; scales above the greatest count as that one. -/
def new (scale : Nat) : Engine :=
  ⟨min scale Money.maxScale, Nat.min_le_right _ _⟩

/-- The kinds of entry that a refund is measured by. -/
def refundHistory : List ActionKind :=
  [.pay, .transfer, .refund]

/-- Load the accounts and the history that a request needs, and check it. -/
def review
    (engine : Engine)
    (kind : ActionKind)
    (accounts : List AccountId)
    (amount : Option String) :
    Attempt Reviewed := do
  if kind.isRequestable then
    let ids := accounts.eraseDups
    let book ← Attempt.ofStore (← Attempt.ask (.loadAccounts ids))
    let history ←
      if kind = .refund then do
        let entries ← Attempt.ofStore (← Attempt.ask (.readHistory ids refundHistory))
        pure (entries.map (·.posting))
      else
        pure []
    let preview ←
      Attempt.ofOutcome (kind.validation.check ids book history amount engine.scale)
    return ⟨ids, book, history, preview⟩
  else
    Attempt.ofOutcome (Outcome.fail (.unsupportedAction kind.name))

/-- Report an allocation that does not add up, the one failure of a plan. -/
def reportUnbalanced
    (targets : Nat) :
    Halt → Attempt Unit
  | .failed (.unbalancedAllocation expected actual) =>
      Attempt.ask (.report (.unbalancedAllocation expected actual targets))
  | _ => pure ()

def plan
    (engine : Engine)
    (kind : ActionKind)
    (reviewed : Reviewed)
    (options : ActionOptions) :
    Attempt (List AccountPlan) :=
  match AccountPlan.plans kind reviewed engine.scale options with
  | .ok plans => pure plans
  | .error halt => do
      reportUnbalanced reviewed.targets.length halt
      throw halt

def stamp (postings : List Posting) : Attempt (List LedgerEntry) :=
  postings.mapM fun posting => do
    let stamp ← Attempt.ask .drawStamp
    return ⟨stamp, posting⟩

/-- Save accounts in order; the first that cannot be saved ends it. -/
def saveAll (accounts : List Account) : Attempt Unit :=
  accounts.forM fun account => do
    Attempt.ofStore (← Attempt.ask (.saveAccount account))

/-- Send a notice, or report that it could not be delivered. -/
def notifyOne (entry : LedgerEntry) : Attempt Unit := do
  match ← Attempt.ask (.sendNotice entry) with
  | .ok () => pure ()
  | .error failure => Attempt.ask (.report (.noticeUndelivered failure))

/-- Send the notices that the entries ask for. -/
def notify (entries : List LedgerEntry) : Attempt Unit :=
  (entries.filter (·.posting.notify)).forM notifyOne

/-- Carry out an action on one account, its entries recorded one by one. -/
def single
    (engine : Engine)
    (kind : ActionKind)
    (account : AccountId)
    (amount : Option String)
    (options : ActionOptions) :
    Attempt ActionResult := do
  let reviewed ← engine.review kind [account] amount
  let plans ← engine.plan kind reviewed options
  let entries ← stamp (plans.flatMap (·.postings))
  entries.forM fun entry => do
    Attempt.ofStore (← Attempt.ask (.recordEntry entry))
  saveAll (plans.map (·.account))
  notify entries
  match (plans.map (·.account)).getLast? <|> reviewed.accounts.find? account with
  | some saved =>
      return ⟨reviewed.preview.allowed, reviewed.preview.remaining, saved, entries⟩
  | none => Attempt.ofOutcome (Outcome.fail (.accountNotFound account))

/-- The accounts of a request as its plans leave them. -/
def standing
    (reviewed : Reviewed)
    (plans : List AccountPlan) :
    List Account :=
  reviewed.ids.filterMap fun id =>
    (plans.map (·.account)).find? (·.id == id) <|> reviewed.accounts.find? id

/--
Carry out one action over several accounts. Its entries are recorded at once, and
its accounts are saved side by side: in an order that no one can rely on.
-/
def bulkSaving
    (engine : Engine)
    (order : SaveOrder)
    (kind : ActionKind)
    (accounts : List AccountId)
    (amount : Option String)
    (options : ActionOptions) :
    Attempt BulkResult := do
  let reviewed ← engine.review kind accounts amount
  let plans ← engine.plan kind reviewed options
  let entries ← stamp (plans.flatMap (·.postings))
  Attempt.ofStore (← Attempt.ask (.recordBatch entries))
  saveAll (order.arrange (plans.map (·.account)))
  notify entries
  return {
    amount := reviewed.preview.allowed
    remaining := reviewed.preview.remaining
    accounts := standing reviewed plans
    entries := entries
  }

/-- Carry out one action over several accounts, which are saved as listed. -/
def bulk
    (engine : Engine)
    (kind : ActionKind)
    (accounts : List AccountId)
    (amount : Option String)
    (options : ActionOptions) :
    Attempt BulkResult :=
  engine.bulkSaving .listed kind accounts amount options

/-- What an action would do. Nothing is written and no notice is sent. -/
def check
    (engine : Engine)
    (kind : ActionKind)
    (accounts : List AccountId)
    (amount : Option String) :
    Attempt Preview := do
  return (← engine.review kind accounts amount).preview

/-- How much of an amount can be refunded and what would stay refundable. -/
def refundPreview
    (engine : Engine)
    (accounts : List AccountId)
    (amount : String) :
    Attempt Preview :=
  engine.check .refund accounts (some amount)

end Engine

end PatronFees
