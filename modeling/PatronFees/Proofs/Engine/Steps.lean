import PatronFees.Engine.Basic
import PatronFees.Proofs.Engine.Procedure
import PatronFees.Proofs.Outcome

namespace PatronFees.Engine

/-!
# The parts of an action

A review reads the stores and changes nothing. Stamps are drawn one after
another. Entries are recorded up to the first whose identifier is in use, one
by one or none at all; saving replaces accounts; and notices leave the stores
as they are.
-/

variable {engine : Engine} {office : Office}

/-- The review of a request as the stores of an office answer it. -/
def reviewIn
    (engine : Engine)
    (office : Office)
    (kind : ActionKind)
    (accounts : List AccountId)
    (amount : Option String) :
    Outcome Reviewed :=
  if kind.isRequestable then do
    let ids := accounts.eraseDups
    let book := office.accounts.only ids
    let history :=
      if kind = .refund then
        (office.ledger.find ids refundHistory).map (·.posting)
      else
        []
    let preview ← kind.validation.check ids book history amount engine.scale
    return ⟨ids, book, history, preview⟩
  else
    Outcome.fail (.unsupportedAction kind.name)

/-- A review ends as the stores answer it and changes nothing. -/
theorem run_review
    (engine : Engine)
    (office : Office)
    (kind : ActionKind)
    (accounts : List AccountId)
    (amount : Option String) :
    office.run (engine.review kind accounts amount) =
      (engine.reviewIn office kind accounts amount, office) := by
  rw [review, reviewIn]
  split
  next =>
    by_cases refunds : kind = .refund
    · simp only [refunds, if_true]
      exact office.run_ofOutcome_map _ _
    · simp only [refunds, if_false]
      exact office.run_ofOutcome_map _ _
  next =>
    rfl

/-- A request that can be planned is planned without a change. -/
theorem run_plan
    {kind : ActionKind}
    {reviewed : Reviewed}
    {options : ActionOptions}
    {plans : List AccountPlan}
    (planned :
      AccountPlan.plans kind reviewed engine.scale options = .ok plans) :
    office.run (engine.plan kind reviewed options) = (.ok plans, office) := by
  rw [plan, planned]
  rfl

/-- Two offices have the same accounts and entries. -/
structure HasStoresOf (after office : Office) : Prop where
  accounts : after.accounts = office.accounts
  ledger : after.ledger = office.ledger

/-- A request that cannot be planned changes nothing in the stores. -/
theorem run_plan_failed
    (office : Office)
    {kind : ActionKind}
    {reviewed : Reviewed}
    {options : ActionOptions}
    {halt : Halt}
    (failed :
      AccountPlan.plans kind reviewed engine.scale options = .error halt) :
    ∃ after,
      office.run (engine.plan kind reviewed options) = (.error halt, after) ∧
        HasStoresOf after office := by
  have reported :
      ∃ after,
        office.run (reportUnbalanced reviewed.targets.length halt) =
          (.ok (), after) ∧
          HasStoresOf after office := by
    rw [reportUnbalanced.eq_def]
    split
    next expected actual =>
      exact ⟨office.report (.unbalancedAllocation expected actual _), rfl, rfl, rfl⟩
    next =>
      exact ⟨office, rfl, rfl, rfl⟩
  obtain ⟨after, ended, same⟩ := reported
  refine ⟨after, ?_, same⟩
  rw [plan, failed]
  exact Office.run_bind_ok ended

/-- The entries of postings, stamped with numbers from one on. -/
def stampedFrom
    (clock : Timestamp) :
    Nat → List Posting → List LedgerEntry
  | _, [] => []
  | number, posting :: rest =>
      ⟨⟨EntryId.ofNat number, clock⟩, posting⟩ ::
        stampedFrom clock (number + 1) rest

/-- Stamping changes nothing but the stamp. -/
theorem map_posting_stampedFrom
    (clock : Timestamp)
    (number : Nat)
    (postings : List Posting) :
    (stampedFrom clock number postings).map (·.posting) = postings := by
  induction postings generalizing number with
  | nil =>
      rfl
  | cons posting rest inductionHypothesis =>
      rw [stampedFrom, List.map_cons, inductionHypothesis]

/-- Stamps are drawn one after another. -/
theorem run_stamp
    (office : Office)
    (postings : List Posting) :
    office.run (stamp postings) =
      (.ok (stampedFrom office.clock office.nextId postings),
        { office with nextId := office.nextId + postings.length }) := by
  induction postings generalizing office with
  | nil =>
      rfl
  | cons posting rest inductionHypothesis =>
      rw [stamp] at inductionHypothesis ⊢
      rw [List.mapM_cons]
      have first :
          office.run
              (do
                let stamp ← Attempt.ask .drawStamp
                return (⟨stamp, posting⟩ : LedgerEntry)) =
            (.ok ⟨⟨EntryId.ofNat office.nextId, office.clock⟩, posting⟩,
              { office with nextId := office.nextId + 1 }) :=
        rfl
      rw [Office.run_bind_ok first, Office.run_bind_ok (inductionHypothesis _)]
      rw [Office.run_pure, List.length_cons, stampedFrom]
      congr 2
      change office.nextId + 1 + rest.length = _
      omega

/-- Record one entry, or halt. -/
def recordOne (entry : LedgerEntry) : Attempt Unit := do
  Attempt.ofStore (← Attempt.ask (.recordEntry entry))

/-- Record entries one by one; the first that cannot be recorded ends it. -/
def recordEach (entries : List LedgerEntry) : Attempt Unit :=
  entries.forM recordOne

/-- The office once entries were recorded. -/
def withEntries
    (office : Office)
    (entries : List LedgerEntry) : Office :=
  { office with ledger := entries.foldl Ledger.append office.ledger }

/-- The office records an entry with an identifier of its own. -/
theorem answer_recordEntry
    {entry : LedgerEntry}
    (unused : ¬ office.ledger.ids.contains entry.id = true) :
    office.answer (.recordEntry entry) =
      (.ok (), withEntries office [entry]) := by
  simp only [Office.answer, Office.recordEntry, Ledger.record, if_neg unused]
  rfl

/-- An entry with an identifier of its own is recorded. -/
theorem run_recordOne_fresh
    {entry : LedgerEntry}
    (unused : ¬ office.ledger.ids.contains entry.id = true) :
    office.run (recordOne entry) = (.ok (), withEntries office [entry]) := by
  rw [recordOne, Office.run_ask_bind, answer_recordEntry unused]
  rfl

/-- An entry whose identifier is in use is refused. -/
theorem run_recordOne_repeated
    {entry : LedgerEntry}
    (used : office.ledger.ids.contains entry.id = true) :
    office.run (recordOne entry) =
      (.error (.failed (.store (Ledger.conflict entry))), office) := by
  have refused :
      office.ledger.record entry = .error (Ledger.conflict entry) := by
    rw [Ledger.record, if_pos used]
  rw [recordOne, Office.run_ask_bind]
  simp only [Office.answer, Office.recordEntry, refused]
  rfl

/-- Entries with identifiers of their own are recorded one by one. -/
theorem run_recordEach_fresh
    (office : Office)
    {entries : List LedgerEntry}
    (fresh : Ledger.firstRepeated? office.ledger.ids entries = none) :
    office.run (recordEach entries) = (.ok (), withEntries office entries) := by
  induction entries generalizing office with
  | nil =>
      rfl
  | cons entry rest inductionHypothesis =>
      rw [Ledger.firstRepeated?] at fresh
      split at fresh
      next =>
        cases fresh
      next unused =>
        have others :=
          inductionHypothesis (withEntries office [entry]) fresh
        exact (Office.run_bind_ok (run_recordOne_fresh unused)).trans others

/-- The first entry whose identifier is in use is refused, and ends it. -/
theorem run_recordEach_repeated
    (office : Office)
    {entries : List LedgerEntry}
    {repeated : LedgerEntry}
    (found : Ledger.firstRepeated? office.ledger.ids entries = some repeated) :
    ∃ kept rest,
      entries = kept ++ repeated :: rest ∧
        office.run (recordEach entries) =
          (.error (.failed (.store (Ledger.conflict repeated))),
            withEntries office kept) := by
  induction entries generalizing office with
  | nil =>
      cases found
  | cons entry rest inductionHypothesis =>
      rw [Ledger.firstRepeated?] at found
      split at found
      next used =>
        obtain rfl := Option.some.inj found
        exact ⟨[], rest, rfl,
          Office.run_bind_error (run_recordOne_repeated used)⟩
      next unused =>
        obtain ⟨kept, others, same, ends⟩ :=
          inductionHypothesis (withEntries office [entry]) found
        exact ⟨entry :: kept, others, congrArg (entry :: ·) same,
          (Office.run_bind_ok (run_recordOne_fresh unused)).trans ends⟩

/-- Record a batch of entries, or halt. -/
def recordAll (entries : List LedgerEntry) : Attempt Unit := do
  Attempt.ofStore (← Attempt.ask (.recordBatch entries))

/-- The office records a batch with identifiers of its own. -/
theorem answer_recordBatch
    {entries : List LedgerEntry}
    (fresh : Ledger.firstRepeated? office.ledger.ids entries = none) :
    office.answer (.recordBatch entries) =
      (.ok (), withEntries office entries) := by
  simp only [Office.answer, Office.recordBatch, Ledger.recordBatch, fresh]
  rfl

/-- A batch of entries with identifiers of their own is recorded. -/
theorem run_recordAll_fresh
    (office : Office)
    {entries : List LedgerEntry}
    (fresh : Ledger.firstRepeated? office.ledger.ids entries = none) :
    office.run (recordAll entries) = (.ok (), withEntries office entries) := by
  rw [recordAll, Office.run_ask_bind, answer_recordBatch fresh]
  rfl

/-- A batch with an identifier that is in use is refused as a whole. -/
theorem run_recordAll_repeated
    (office : Office)
    {entries : List LedgerEntry}
    {repeated : LedgerEntry}
    (found : Ledger.firstRepeated? office.ledger.ids entries = some repeated) :
    office.run (recordAll entries) =
      (.error (.failed (.store
        (.batchRejected entries.length (Ledger.conflict repeated).message))),
        office) := by
  have refused :
      office.ledger.recordBatch entries =
        .error
          (.batchRejected entries.length (Ledger.conflict repeated).message) := by
    rw [Ledger.recordBatch, found]
  rw [recordAll, Office.run_ask_bind]
  simp only [Office.answer, Office.recordBatch, refused]
  rfl

/-- The office once accounts were saved. -/
def withAccounts
    (office : Office)
    (accounts : List Account) : Office :=
  { office with accounts := accounts.foldl AccountBook.save office.accounts }

/-- Accounts are saved in order. -/
theorem run_saveAll
    (office : Office)
    (accounts : List Account) :
    office.run (saveAll accounts) = (.ok (), withAccounts office accounts) := by
  induction accounts generalizing office with
  | nil =>
      rfl
  | cons account rest inductionHypothesis =>
      have first :
          office.run
              (do Attempt.ofStore (← Attempt.ask (.saveAccount account))) =
            (.ok (), withAccounts office [account]) :=
        rfl
      exact (Office.run_bind_ok first).trans (inductionHypothesis _)

/-- Notices leave the stores as they are. -/
theorem run_notify
    (office : Office)
    (entries : List LedgerEntry) :
    ∃ after,
      office.run (notify entries) = (.ok (), after) ∧
        HasStoresOf after office := by
  rw [notify]
  induction entries.filter (·.posting.notify) generalizing office with
  | nil =>
      exact ⟨office, rfl, rfl, rfl⟩
  | cons entry rest inductionHypothesis =>
      have first :
          office.run (notifyOne entry) = (.ok (), office.sendNotice entry) :=
        rfl
      obtain ⟨after, notified, same⟩ :=
        inductionHypothesis (office.sendNotice entry)
      exact ⟨after, (Office.run_bind_ok first).trans notified,
        same.accounts, same.ledger⟩

end PatronFees.Engine
