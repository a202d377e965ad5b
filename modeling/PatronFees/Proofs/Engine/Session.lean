import PatronFees.Proofs.Engine.Ending

namespace PatronFees.Engine

/-!
# Sessions when services may refuse

In a session calls are made one after another, each of which may end in any of
the ways known. The ledger only grows; an account changes in a call only if all
entries of the call are in the ledger, and then it changes to the whole.
-/

/--
Where a session of calls may lead from an office, whatever is refused and in
whichever order the accounts of each call are saved.
-/
inductive MayReach
    (engine : Engine)
    (start : Office) :
    Office → Prop where
  | start : MayReach engine start start
  | call
      {office after : Office}
      {order : SaveOrder}
      {call : Call}
      {exchanges : List Exchange}
      {outcome : Outcome Receipt}
      (reached : MayReach engine start office)
      (ended :
        office.MayEnd (engine.performSaving order call) exchanges outcome after) :
      MayReach engine start after

variable {engine : Engine} {start office after : Office} {call : Call}
  {exchanges : List Exchange} {outcome : Outcome Receipt}
  {reviewed : Reviewed} {plans : List AccountPlan}

/-- Each plan is for an account of the office, and there is one for each. -/
theorem IsPlanned.isFor
    (isPlanned : engine.IsPlanned office call reviewed plans)
    {plan : AccountPlan}
    (member : plan ∈ plans) :
    ∃ account,
      office.accounts.find? plan.account.id = some account ∧
        plan.IsFor call.kind call.options account := by
  obtain ⟨account, found, isFor⟩ :=
    AccountPlan.isFor_of_mem_plans isPlanned.planned member
  have isRead := isReadFrom_of_review isPlanned.accepted
  rw [isRead.accounts_eq, AccountBook.find?_only] at found
  split at found
  next =>
    exact ⟨account, found, isFor⟩
  next =>
    cases found

/-- What a call records is posted by a plan for one of its accounts. -/
theorem IsPlanned.isFor_of_mem_entriesOf
    (isPlanned : engine.IsPlanned office call reviewed plans)
    {entry : LedgerEntry}
    (member : entry ∈ entriesOf office plans) :
    ∃ (plan : AccountPlan) (account : Account),
      entry.posting ∈ plan.postings ∧
        plan.IsFor call.kind call.options account := by
  have posted : entry.posting ∈ (entriesOf office plans).map (·.posting) :=
    List.mem_map_of_mem member
  rw [map_posting_entriesOf] at posted
  obtain ⟨plan, among, inside⟩ := List.mem_flatMap.mp posted
  obtain ⟨account, -, isFor⟩ := isPlanned.isFor among
  exact ⟨plan, account, inside, isFor⟩

/-- What a call plans to record is labelled for it. -/
theorem IsPlanned.labelled
    (isPlanned : engine.IsPlanned office call reviewed plans)
    {entry : LedgerEntry}
    (member : entry ∈ entriesOf office plans) :
    entry.posting.IsLabelledFor call.kind call.options := by
  obtain ⟨plan, account, posted, isFor⟩ := isPlanned.isFor_of_mem_entriesOf member
  exact isFor.labelled _ posted

/-- A call adds entries with its labels to the ledger and takes none away. -/
theorem Ending.ledger_grows
    (ending : engine.Ending office call exchanges outcome after) :
    ∃ added : List LedgerEntry,
      after.ledger = added.foldl Ledger.append office.ledger ∧
        ∀ entry ∈ added,
          entry.posting.IsLabelledFor call.kind call.options := by
  have nothing :
      ∀ entry ∈ ([] : List LedgerEntry),
        entry.posting.IsLabelledFor call.kind call.options :=
    fun _ member => (List.not_mem_nil member).elim
  cases ending with
  | beforeWriting _ same =>
      exact ⟨[], same.ledger, nothing⟩
  | entryRefused _ isPlanned split _ ledger _ =>
      refine ⟨_, ledger, fun entry member => isPlanned.labelled ?_⟩
      rw [split]
      exact List.mem_append_left _ member
  | batchRefused _ _ _ same =>
      exact ⟨[], same.ledger, nothing⟩
  | accountRefused isPlanned _ _ ledger _ =>
      exact ⟨_, ledger, fun _ => isPlanned.labelled⟩
  | done isPlanned _ _ carriedOut =>
      exact ⟨_, carriedOut.ledger, fun _ => isPlanned.labelled⟩

/-- A session that starts with nothing recorded lists what it recorded. -/
theorem MayReach.recorded
    (reached : engine.MayReach start office)
    (unrecorded : start.ledger = Ledger.empty) :
    ∃ entries, office.ledger = Ledger.ofEntries entries := by
  induction reached with
  | start =>
      exact ⟨[], unrecorded⟩
  | call _ ended inductionHypothesis =>
      obtain ⟨entries, recorded⟩ := inductionHypothesis
      obtain ⟨added, grown, -⟩ := (perform_ending ended).1.ledger_grows
      refine ⟨entries ++ added, ?_⟩
      rw [grown, recorded, Ledger.ofEntries_append]

/-- Saving some of the accounts of plans leaves each as it was or as planned. -/
theorem IsPlanned.find?_saved
    (isPlanned : engine.IsPlanned office call reviewed plans)
    {kept others : List Account}
    (all : (kept ++ others).Perm (plans.map (·.account)))
    (id : AccountId) :
    (kept.foldl AccountBook.save office.accounts).find? id =
        office.accounts.find? id ∨
      ∃ plan ∈ plans,
        plan.account.id = id ∧
          (kept.foldl AccountBook.save office.accounts).find? id =
            some plan.account := by
  by_cases isSaved : ∃ account ∈ kept, account.id = id
  · obtain ⟨account, member, rfl⟩ := isSaved
    obtain ⟨plan, among, rfl⟩ :=
      List.mem_map.mp (all.mem_iff.mp (List.mem_append_left others member))
    have distinct : ((kept ++ others).map (·.id)).Nodup := by
      rw [(all.map (·.id)).nodup_iff, List.map_map]
      exact isPlanned.distinct
    rw [List.map_append] at distinct
    exact .inr ⟨plan, among, rfl,
      AccountBook.find?_saveAll_of_mem distinct.of_append_left member⟩
  · refine .inl (AccountBook.find?_saveAll_of_forall_ne ?_)
    exact fun account member same => isSaved ⟨account, member, same⟩

/--
However a call ends, each account is as it was, or it is as the call planned it
and all entries that the call planned are in the ledger.
-/
theorem Ending.account_cases
    (ending : engine.Ending office call exchanges outcome after)
    (id : AccountId) :
    after.accounts.find? id = office.accounts.find? id ∨
      ∃ reviewed plans,
        engine.IsPlanned office call reviewed plans ∧
          after.ledger =
            (entriesOf office plans).foldl Ledger.append office.ledger ∧
          ∃ plan ∈ plans,
            plan.account.id = id ∧
              after.accounts.find? id = some plan.account := by
  cases ending with
  | beforeWriting _ same =>
      exact .inl (congrArg (AccountBook.find? · id) same.accounts)
  | entryRefused _ _ _ _ _ accounts =>
      exact .inl (congrArg (AccountBook.find? · id) accounts)
  | batchRefused _ _ _ same =>
      exact .inl (congrArg (AccountBook.find? · id) same.accounts)
  | @accountRefused reviewed plans kept _ _ _ _ isPlanned split _ ledger accounts =>
      rw [accounts]
      rcases isPlanned.find?_saved split id with same | planned
      · exact .inl same
      · exact .inr ⟨reviewed, plans, isPlanned, ledger, planned⟩
  | @done reviewed plans _ _ isPlanned _ _ carriedOut =>
      have all := List.Perm.of_eq (List.append_nil (plans.map (·.account)))
      rw [carriedOut.accounts]
      rcases isPlanned.find?_saved all id with same | planned
      · exact .inl same
      · exact .inr ⟨reviewed, plans, isPlanned, carriedOut.ledger, planned⟩

end PatronFees.Engine
