import PatronFees.Proofs.Engine.Effect
import PatronFees.Proofs.Engine.Stores

namespace PatronFees

/-!
# Calls

A call asks the engine for an action on one account or over several. What any
call does to stores in range comes down to what it does to each account: the
account and its history stay as they are, or a plan for it is carried out, or
the first postings of a refund are recorded while the account stays.
-/

/-- One call of the engine. -/
inductive Call where
  /-- An action on one account. -/
  | single
    (kind : ActionKind)
    (account : AccountId)
    (amount : Option String)
    (options : ActionOptions)
  /-- One action over several accounts. -/
  | bulk
    (kind : ActionKind)
    (accounts : List AccountId)
    (amount : Option String)
    (options : ActionOptions)
  deriving Repr, DecidableEq

namespace Call

def kind : Call → ActionKind
  | .single kind _ _ _ => kind
  | .bulk kind _ _ _ => kind

def accounts : Call → List AccountId
  | .single _ account _ _ => [account]
  | .bulk _ accounts _ _ => accounts

/-- The amount as it was entered. -/
def amount : Call → Option String
  | .single _ _ amount _ => amount
  | .bulk _ _ amount _ => amount

/-- What the caller adds. -/
def options : Call → ActionOptions
  | .single _ _ _ options => options
  | .bulk _ _ _ options => options

end Call

/-- What a call returns. -/
structure Receipt where
  /-- The amount applied. -/
  amount : Money
  /-- What is still owed, or for refunds is still refundable. -/
  remaining : Money
  /-- The entries recorded, in order. -/
  entries : List LedgerEntry
  deriving Repr, DecidableEq

namespace Engine

variable {engine : Engine} {office : Office} {call : Call}
  {entries : List LedgerEntry}

/-- Carry out a call, whose accounts are saved in an order if they are several. -/
def performSaving
    (engine : Engine)
    (order : SaveOrder) :
    Call → Attempt Receipt
  | .single kind account amount options => do
      let result ← engine.single kind account amount options
      return ⟨result.amount, result.remaining, result.entries⟩
  | .bulk kind accounts amount options => do
      let result ← engine.bulkSaving order kind accounts amount options
      return ⟨result.amount, result.remaining, result.entries⟩

/-- Carry out a call, whose accounts are saved as listed. -/
def perform
    (engine : Engine)
    (call : Call) :
    Attempt Receipt :=
  engine.performSaving .listed call

/-- What the caller is told once plans are carried out. -/
def receiptFor
    (office : Office)
    (reviewed : Reviewed)
    (plans : List AccountPlan) : Receipt :=
  ⟨reviewed.preview.allowed, reviewed.preview.remaining,
    entriesOf office plans⟩

/-- What a call ends with, and the office then. -/
inductive Effect
    (engine : Engine)
    (office : Office)
    (call : Call) :
    Outcome Receipt × Office → Prop where
  /-- Nothing was written. -/
  | refused
      {halt : Halt}
      {after : Office}
      (same : HasStoresOf after office) :
      Effect engine office call (.error halt, after)
  /-- Everything was written. -/
  | carriedOut
      {reviewed : Reviewed}
      {plans : List AccountPlan}
      {after : Office}
      (isRead :
        engine.IsReadFrom office call.kind call.accounts call.amount reviewed)
      (accepted : reviewed.IsAccepted call.kind engine.scale)
      (planned : reviewed.IsCarriedOutBy call.kind engine.scale plans)
      (done : HasCarriedOut office plans after) :
      Effect engine office call (.ok (receiptFor office reviewed plans), after)
  /-- An entry for a single account was refused after others were recorded. -/
  | cutShort
      {reviewed : Reviewed}
      {plans : List AccountPlan}
      {kept rest : List LedgerEntry}
      {repeated : LedgerEntry}
      {failure : StoreFailure}
      {after : Office}
      (isRead :
        engine.IsReadFrom office call.kind call.accounts call.amount reviewed)
      (accepted : reviewed.IsAccepted call.kind engine.scale)
      (planned : reviewed.IsCarriedOutBy call.kind engine.scale plans)
      (alone : plans.length ≤ 1)
      (split : entriesOf office plans = kept ++ repeated :: rest)
      (sameAccounts : after.accounts = office.accounts)
      (ledger : after.ledger = kept.foldl Ledger.append office.ledger) :
      Effect engine office call (.error (.failed (.store failure)), after)

/-- A request for one account plans for no more than one. -/
theorem length_plans_le
    {kind : ActionKind}
    {accounts : List AccountId}
    {amount : Option String}
    {reviewed : Reviewed}
    {plans : List AccountPlan}
    (isRead : engine.IsReadFrom office kind accounts amount reviewed)
    (planned : reviewed.IsCarriedOutBy kind engine.scale plans) :
    plans.length ≤ accounts.length := by
  have named : plans.map (·.account.id) ⊆ accounts := by
    intro id member
    obtain ⟨plan, among, rfl⟩ := List.mem_map.mp member
    have inIds := (planned.each plan among).1
    rw [isRead.ids_eq, List.mem_eraseDups] at inIds
    exact inIds
  have few := (planned.distinct.subperm named).length_le
  rwa [List.length_map] at few

/-- Every account that an accepted request names is found. -/
theorem IsReadFrom.found
    {kind : ActionKind}
    {accounts : List AccountId}
    {amount : Option String}
    {reviewed : Reviewed}
    (isRead : engine.IsReadFrom office kind accounts amount reviewed)
    (accepted : reviewed.IsAccepted kind engine.scale) :
    ∀ id ∈ accounts, (reviewed.accounts.find? id).isSome := by
  intro id member
  apply accepted.accepts.found
  rw [isRead.ids_eq, List.mem_eraseDups]
  exact member

/-- Every account that a reviewed request names is found. -/
theorem found_of_review
    {kind : ActionKind}
    {accounts : List AccountId}
    {amount : Option String}
    (accepted : engine.reviewIn office kind accounts amount = .ok reviewed) :
    ∀ id ∈ accounts, (reviewed.accounts.find? id).isSome := by
  have isRead := isReadFrom_of_review accepted
  obtain ⟨targets, all, -⟩ := Outcome.bind_eq_ok_iff.mp isRead.checked
  obtain ⟨-, found⟩ := Validation.findAll_eq_ok all
  intro id member
  apply found
  rw [isRead.ids_eq, List.mem_eraseDups]
  exact member

/-- What the review of a call refuses changes nothing. -/
theorem run_perform_refused
    {halt : Halt}
    (refused :
      engine.reviewIn office call.kind call.accounts call.amount =
        .error halt) :
    office.run (engine.perform call) = (.error halt, office) := by
  cases call with
  | single kind account amount options =>
      exact Office.run_bind_error (run_single_refused refused options)
  | bulk kind accounts amount options =>
      exact Office.run_bind_error (run_bulkSaving_refused .listed refused options)

/-- A call that cannot be planned fails as its plan and changes no store. -/
theorem run_perform_unplanned
    {reviewed : Reviewed}
    {halt : Halt}
    (accepted :
      engine.reviewIn office call.kind call.accounts call.amount =
        .ok reviewed)
    (failed :
      AccountPlan.plans call.kind reviewed engine.scale call.options =
        .error halt) :
    ∃ after,
      office.run (engine.perform call) = (.error halt, after) ∧
        HasStoresOf after office := by
  cases call with
  | single kind account amount options =>
      obtain ⟨after, ended, same⟩ := run_single_unplanned accepted failed
      exact ⟨after, Office.run_bind_error ended, same⟩
  | bulk kind accounts amount options =>
      obtain ⟨after, ended, same⟩ :=
        run_bulkSaving_unplanned .listed accepted failed
      exact ⟨after, Office.run_bind_error ended, same⟩

/-- With fresh identifiers a call that was planned is carried out. -/
theorem run_perform_fresh
    {reviewed : Reviewed}
    {plans : List AccountPlan}
    (accepted :
      engine.reviewIn office call.kind call.accounts call.amount =
        .ok reviewed)
    (planned :
      AccountPlan.plans call.kind reviewed engine.scale call.options =
        .ok plans)
    (found : ∀ id ∈ call.accounts, (reviewed.accounts.find? id).isSome)
    (fresh :
      Ledger.firstRepeated? office.ledger.ids (entriesOf office plans) = none) :
    ∃ after,
      office.run (engine.perform call) =
          (.ok (receiptFor office reviewed plans), after) ∧
        HasCarriedOut office plans after := by
  cases call with
  | single kind account amount options =>
      obtain ⟨saved, after, -, ended, done⟩ :=
        run_single_fresh accepted planned
          (found account (List.mem_singleton_self account)) fresh
      exact ⟨after, Office.run_bind_ok ended, done⟩
  | bulk kind accounts amount options =>
      obtain ⟨after, ended, saved, ledger⟩ :=
        run_bulkSaving_fresh .listed accepted planned fresh
      exact ⟨after, Office.run_bind_ok ended, saved, ledger⟩

/-- A call on stores in range is refused, carried out or cut short. -/
theorem perform_effect
    (engine : Engine)
    (call : Call)
    (recorded : office.ledger = Ledger.ofEntries entries)
    (owed : office.accounts.IsInRange engine.scale)
    (posted : ArePostedInRange engine.scale entries) :
    engine.Effect office call (office.run (engine.perform call)) := by
  cases review :
      engine.reviewIn office call.kind call.accounts call.amount with
  | error halt =>
      rw [run_perform_refused review]
      exact .refused ⟨rfl, rfl⟩
  | ok reviewed =>
      have isRead := isReadFrom_of_review review
      have accepted := isRead.isAccepted recorded owed posted
      obtain ⟨plans, plansEq, planned⟩ := accepted.plans_carryOut call.options
      cases fresh :
          Ledger.firstRepeated? office.ledger.ids (entriesOf office plans) with
      | none =>
          obtain ⟨after, ended, done⟩ :=
            run_perform_fresh review plansEq (isRead.found accepted) fresh
          rw [ended]
          exact .carriedOut isRead accepted planned done
      | some repeated =>
          cases call with
          | single kind account amount options =>
              obtain ⟨kept, rest, failure, after, split, ended, same, ledger⟩ :=
                run_single_repeated review plansEq fresh
              have halted :
                  office.run
                      (engine.perform (.single kind account amount options)) =
                    (.error (.failed (.store failure)), after) :=
                Office.run_bind_error ended
              rw [halted]
              exact .cutShort isRead accepted planned
                (length_plans_le isRead planned) split same ledger
          | bulk kind accounts amount options =>
              have halted :
                  office.run
                      (engine.perform (.bulk kind accounts amount options)) =
                    (_, withStamps office plans) :=
                Office.run_bind_error
                  (run_bulkSaving_repeated .listed review plansEq fresh)
              rw [halted]
              exact .refused ⟨rfl, rfl⟩

end Engine

/-- A lost item for which nothing was paid yet. -/
def Account.lostItem : Account :=
  new "a" "u" "Lost item" (.ofMinorUnits 1250 2) .epoch

/-- An office that was opened with a lost item. -/
def Office.withLostItem : Office :=
  opened (.ofList [.lostItem]) 1 .epoch

end PatronFees
