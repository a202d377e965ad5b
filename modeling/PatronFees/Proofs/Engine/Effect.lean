import PatronFees.Proofs.Engine.Steps
import PatronFees.Proofs.Ledger

namespace PatronFees.Engine

/-!
# What a call does to the stores

A call is refused before anything is written, or it records all its entries and
saves all its accounts. Only a store that refuses an entry, whose identifier is
in use, comes between: then no account is saved, and of the entries none is
recorded, or for a single account those before the refused one.
-/

variable {engine : Engine} {office : Office} {kind : ActionKind}
  {amount : Option String} {options : ActionOptions} {reviewed : Reviewed}
  {plans : List AccountPlan}

/-- The entries that plans record in an office. -/
def entriesOf
    (office : Office)
    (plans : List AccountPlan) : List LedgerEntry :=
  stampedFrom office.clock office.nextId (plans.flatMap (·.postings))

/-- The entries are what the plans post, stamped. -/
theorem map_posting_entriesOf
    (office : Office)
    (plans : List AccountPlan) :
    (entriesOf office plans).map (·.posting) = plans.flatMap (·.postings) :=
  map_posting_stampedFrom office.clock office.nextId _

/-- Plans are carried out: their entries are recorded, their accounts saved. -/
structure HasCarriedOut
    (office : Office)
    (plans : List AccountPlan)
    (after : Office) : Prop where
  accounts :
    after.accounts =
      (plans.map (·.account)).foldl AccountBook.save office.accounts
  ledger :
    after.ledger = (entriesOf office plans).foldl Ledger.append office.ledger

/-- The office once stamps were drawn for plans. -/
def withStamps
    (office : Office)
    (plans : List AccountPlan) : Office :=
  { office with
    nextId := office.nextId + (plans.flatMap (·.postings)).length }

/-- Accounts are saved and notices sent once the entries are recorded. -/
theorem run_finish
    {Result : Type}
    (office : Office)
    (plans : List AccountPlan)
    (saved : List Account)
    (result : Result) :
    ∃ after,
      (withEntries (withStamps office plans) (entriesOf office plans)).run
          (do
            saveAll saved
            notify (entriesOf office plans)
            return result) =
        (.ok result, after) ∧
        after.accounts = saved.foldl AccountBook.save office.accounts ∧
        after.ledger = (entriesOf office plans).foldl Ledger.append office.ledger := by
  obtain ⟨after, notified, same⟩ :=
    run_notify
      (withAccounts
        (withEntries (withStamps office plans) (entriesOf office plans)) saved)
      (entriesOf office plans)
  refine ⟨after, ?_, same.accounts, same.ledger⟩
  rw [Office.run_bind_ok (run_saveAll _ _), Office.run_bind_ok notified]
  rfl

section Bulk

variable {accounts : List AccountId}

/-- An action over accounts records its entries as a batch. -/
theorem bulkSaving_eq (order : SaveOrder) :
    engine.bulkSaving order kind accounts amount options = (do
      let reviewed ← engine.review kind accounts amount
      let plans ← engine.plan kind reviewed options
      let entries ← stamp (plans.flatMap (·.postings))
      recordAll entries
      saveAll (order.arrange (plans.map (·.account)))
      notify entries
      return {
        amount := reviewed.preview.allowed
        remaining := reviewed.preview.remaining
        accounts := standing reviewed plans
        entries := entries
      }) :=
  rfl

/-- What the review refuses changes nothing. -/
theorem run_bulkSaving_refused
    {halt : Halt}
    (order : SaveOrder)
    (refused : engine.reviewIn office kind accounts amount = .error halt)
    (options : ActionOptions) :
    office.run (engine.bulkSaving order kind accounts amount options) =
      (.error halt, office) := by
  have ended := run_review engine office kind accounts amount
  rw [refused] at ended
  exact Office.run_bind_error ended

/-- An action over accounts that cannot be planned changes nothing. -/
theorem run_bulkSaving_unplanned
    {halt : Halt}
    (order : SaveOrder)
    (accepted : engine.reviewIn office kind accounts amount = .ok reviewed)
    (failed :
      AccountPlan.plans kind reviewed engine.scale options = .error halt) :
    ∃ after,
      office.run (engine.bulkSaving order kind accounts amount options) =
        (.error halt, after) ∧
        HasStoresOf after office := by
  have review := run_review engine office kind accounts amount
  rw [accepted] at review
  obtain ⟨after, ended, same⟩ := run_plan_failed office failed
  refine ⟨after, ?_, same⟩
  rw [bulkSaving_eq, Office.run_bind_ok review]
  exact Office.run_bind_error ended

/-- With fresh identifiers a planned action over accounts is carried out. -/
theorem run_bulkSaving_fresh
    (order : SaveOrder)
    (accepted : engine.reviewIn office kind accounts amount = .ok reviewed)
    (planned :
      AccountPlan.plans kind reviewed engine.scale options = .ok plans)
    (fresh :
      Ledger.firstRepeated? office.ledger.ids (entriesOf office plans) = none) :
    ∃ after,
      office.run (engine.bulkSaving order kind accounts amount options) =
        (.ok
          { amount := reviewed.preview.allowed
            remaining := reviewed.preview.remaining
            accounts := standing reviewed plans
            entries := entriesOf office plans },
          after) ∧
        after.accounts =
          (order.arrange (plans.map (·.account))).foldl AccountBook.save
            office.accounts ∧
        after.ledger = (entriesOf office plans).foldl Ledger.append office.ledger := by
  have review := run_review engine office kind accounts amount
  rw [accepted] at review
  have recorded :
      (withStamps office plans).run (recordAll (entriesOf office plans)) =
        (.ok (), withEntries (withStamps office plans) (entriesOf office plans)) :=
    run_recordAll_fresh _ fresh
  obtain ⟨after, finished, saved⟩ :=
    run_finish office plans (order.arrange (plans.map (·.account)))
      { amount := reviewed.preview.allowed
        remaining := reviewed.preview.remaining
        accounts := standing reviewed plans
        entries := entriesOf office plans : BulkResult }
  refine ⟨after, ?_, saved⟩
  rw [bulkSaving_eq, Office.run_bind_ok review, Office.run_bind_ok (run_plan planned),
    Office.run_bind_ok (run_stamp office _)]
  exact (Office.run_bind_ok recorded).trans finished

/-- With an identifier in use a planned action over accounts writes nothing. -/
theorem run_bulkSaving_repeated
    (order : SaveOrder)
    (accepted : engine.reviewIn office kind accounts amount = .ok reviewed)
    (planned :
      AccountPlan.plans kind reviewed engine.scale options = .ok plans)
    {repeated : LedgerEntry}
    (found :
      Ledger.firstRepeated? office.ledger.ids (entriesOf office plans) =
        some repeated) :
    office.run (engine.bulkSaving order kind accounts amount options) =
      (.error (.failed (.store
        (.batchRejected (entriesOf office plans).length
          (Ledger.conflict repeated).message))),
        withStamps office plans) := by
  have review := run_review engine office kind accounts amount
  rw [accepted] at review
  have refused :=
    run_recordAll_repeated (withStamps office plans) found
  rw [bulkSaving_eq, Office.run_bind_ok review, Office.run_bind_ok (run_plan planned),
    Office.run_bind_ok (run_stamp office _)]
  exact Office.run_bind_error refused

end Bulk

section Single

variable {account : AccountId}

/-- What the review refuses changes nothing. -/
theorem run_single_refused
    {halt : Halt}
    (refused : engine.reviewIn office kind [account] amount = .error halt)
    (options : ActionOptions) :
    office.run (engine.single kind account amount options) =
      (.error halt, office) := by
  have ended := run_review engine office kind [account] amount
  rw [refused] at ended
  exact Office.run_bind_error ended

/-- An action on an account that cannot be planned changes nothing. -/
theorem run_single_unplanned
    {halt : Halt}
    (accepted : engine.reviewIn office kind [account] amount = .ok reviewed)
    (failed :
      AccountPlan.plans kind reviewed engine.scale options = .error halt) :
    ∃ after,
      office.run (engine.single kind account amount options) =
        (.error halt, after) ∧
        HasStoresOf after office := by
  have review := run_review engine office kind [account] amount
  rw [accepted] at review
  obtain ⟨after, ended, same⟩ := run_plan_failed office failed
  refine ⟨after, ?_, same⟩
  rw [single, Office.run_bind_ok review]
  exact Office.run_bind_error ended

/-- An account that was found is there to return, whether planned for or not. -/
theorem exists_saved
    (found : (reviewed.accounts.find? account).isSome)
    (plans : List AccountPlan) :
    ∃ saved,
      ((plans.map (·.account)).getLast? <|>
        reviewed.accounts.find? account) = some saved := by
  cases (plans.map (·.account)).getLast? with
  | none =>
      exact Option.isSome_iff_exists.mp found
  | some last =>
      exact ⟨last, rfl⟩

/-- With fresh identifiers a planned action on an account is carried out. -/
theorem run_single_fresh
    (accepted : engine.reviewIn office kind [account] amount = .ok reviewed)
    (planned :
      AccountPlan.plans kind reviewed engine.scale options = .ok plans)
    (found : (reviewed.accounts.find? account).isSome)
    (fresh :
      Ledger.firstRepeated? office.ledger.ids (entriesOf office plans) = none) :
    ∃ saved after,
      ((plans.map (·.account)).getLast? <|>
          reviewed.accounts.find? account) = some saved ∧
        office.run (engine.single kind account amount options) =
          (.ok
            { amount := reviewed.preview.allowed
              remaining := reviewed.preview.remaining
              account := saved
              entries := entriesOf office plans },
            after) ∧
        HasCarriedOut office plans after := by
  have review := run_review engine office kind [account] amount
  rw [accepted] at review
  have recorded :
      (withStamps office plans).run (recordEach (entriesOf office plans)) =
        (.ok (), withEntries (withStamps office plans) (entriesOf office plans)) :=
    run_recordEach_fresh _ fresh
  obtain ⟨saved, isSaved⟩ := exists_saved found plans
  obtain ⟨after, finished, accountsSaved, recordedAll⟩ :=
    run_finish office plans (plans.map (·.account))
      { amount := reviewed.preview.allowed
        remaining := reviewed.preview.remaining
        account := saved
        entries := entriesOf office plans : ActionResult }
  refine ⟨saved, after, isSaved, ?_, accountsSaved, recordedAll⟩
  rw [single, Office.run_bind_ok review, Office.run_bind_ok (run_plan planned),
    Office.run_bind_ok (run_stamp office _)]
  rw [isSaved]
  exact (Office.run_bind_ok recorded).trans finished

/--
With an identifier in use a planned action on an account saves nothing and
records the entries before the one that is refused.
-/
theorem run_single_repeated
    (accepted : engine.reviewIn office kind [account] amount = .ok reviewed)
    (planned :
      AccountPlan.plans kind reviewed engine.scale options = .ok plans)
    {repeated : LedgerEntry}
    (found :
      Ledger.firstRepeated? office.ledger.ids (entriesOf office plans) =
        some repeated) :
    ∃ kept rest failure after,
      entriesOf office plans = kept ++ repeated :: rest ∧
        office.run (engine.single kind account amount options) =
          (.error (.failed (.store failure)), after) ∧
        after.accounts = office.accounts ∧
        after.ledger = kept.foldl Ledger.append office.ledger := by
  have review := run_review engine office kind [account] amount
  rw [accepted] at review
  obtain ⟨kept, rest, split, ended⟩ :=
    run_recordEach_repeated (withStamps office plans) found
  refine ⟨kept, rest, Ledger.conflict repeated,
    withEntries (withStamps office plans) kept, split, ?_, rfl, rfl⟩
  rw [single, Office.run_bind_ok review, Office.run_bind_ok (run_plan planned),
    Office.run_bind_ok (run_stamp office _)]
  exact Office.run_bind_error ended

end Single

end PatronFees.Engine
