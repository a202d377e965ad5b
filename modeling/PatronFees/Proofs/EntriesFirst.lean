import PatronFees.Proofs.Engine.Session

namespace PatronFees

open Engine Exchange

/-!
# Entries before balances

Whatever the services refuse, entries are recorded before the accounts that they
are about are saved. What an interrupted call leaves behind is known to the
entry, and no account ever owes what the ledger does not say.
-/

/-- An account owes what an entry of its history says, under the entry's label. -/
def Office.IsInLedger
    (office : Office)
    (account : Account) : Prop :=
  ∃ entry ∈ office.ledger.historyOf account.id, account.IsLeftBy entry.posting

/-- The postings of plans are recorded in the histories of their accounts. -/
theorem exists_mem_historyOf
    {office : Office}
    {plans : List AccountPlan}
    {plan : AccountPlan}
    (member : plan ∈ plans)
    {posting : Posting}
    (posted : posting ∈ plan.postings)
    (onAccount : posting.account = plan.account.id) :
    ∃ entry ∈
        ((entriesOf office plans).foldl Ledger.append office.ledger).historyOf
          plan.account.id,
      entry.posting = posting := by
  have inPlans : posting ∈ plans.flatMap (·.postings) :=
    List.mem_flatMap.mpr ⟨plan, member, posted⟩
  rw [← map_posting_entriesOf office plans] at inPlans
  obtain ⟨entry, inEntries, rfl⟩ := List.mem_map.mp inPlans
  refine ⟨entry, ?_, rfl⟩
  rw [Ledger.historyOf_foldl_append]
  exact List.mem_append_right _
    (List.mem_filter.mpr ⟨inEntries, beq_iff_eq.mpr onAccount⟩)

/-- A call that changes an account leaves it as an entry of its history says. -/
theorem Engine.Ending.isInLedger
    {engine : Engine}
    {office after : Office}
    {call : Call}
    {exchanges : List Exchange}
    {outcome : Outcome Receipt}
    (ending : engine.Ending office call exchanges outcome after)
    (id : AccountId) :
    after.accounts.find? id = office.accounts.find? id ∨
      ∃ account,
        after.accounts.find? id = some account ∧ after.IsInLedger account := by
  rcases ending.account_cases id with
    same | ⟨reviewed, plans, isPlanned, ledger, plan, member, rfl, found⟩
  · exact .inl same
  obtain ⟨account, before, isFor⟩ := isPlanned.isFor member
  cases isLast : plan.postings.getLast? with
  | none =>
      have nothing := isFor.idle (List.getLast?_eq_none_iff.mp isLast)
      rw [found, before, nothing]
      exact .inl rfl
  | some last =>
      have posted := List.mem_of_getLast? isLast
      obtain ⟨entry, recorded, rfl⟩ :=
        exists_mem_historyOf member posted (isFor.left last isLast).account_eq
      refine .inr ⟨plan.account, found, entry, ?_, isFor.left _ isLast⟩
      rw [ledger]
      exact recorded

/-- An entry of a history stays in it, whatever calls are made. -/
theorem Office.IsInLedger.grows
    {engine : Engine}
    {office after : Office}
    {call : Call}
    {exchanges : List Exchange}
    {outcome : Outcome Receipt}
    {account : Account}
    (isInLedger : office.IsInLedger account)
    (ending : engine.Ending office call exchanges outcome after) :
    after.IsInLedger account := by
  obtain ⟨entry, recorded, isLeftBy⟩ := isInLedger
  obtain ⟨added, grown, -⟩ := ending.ledger_grows
  refine ⟨entry, ?_, isLeftBy⟩
  rw [grown, Ledger.historyOf_foldl_append]
  exact List.mem_append_left _ recorded

/--
A session of calls leads from one office to another while any service may refuse
anything, and accounts of one call are saved in any order. Then each account is as
it was at the start, or it owes the balance of an entry in its history and has its
label. Any further call ends in one of these ways, and if it fails no notice is
sent:

- nothing was to be written, and the stores are as they were;
- a batch of entries was refused, and the stores are as they were;
- an entry for a single account was refused, the entries before it are recorded,
  and the accounts are as they were;
- an account was refused, all entries are recorded, and some of the other accounts
  are saved as planned;
- everything is written.
-/
theorem entries_before_balances
    {engine : Engine}
    {start office : Office}
    (reached : engine.MayReach start office) :
    (∀ id,
        office.accounts.find? id = start.accounts.find? id ∨
          ∃ account,
            office.accounts.find? id = some account ∧
              office.IsInLedger account) ∧
      ∀ {order : SaveOrder} {call : Call} {exchanges : List Exchange}
        {outcome : Outcome Receipt} {after : Office},
        office.MayEnd (engine.performSaving order call) exchanges outcome after →
          engine.Ending office call exchanges outcome after ∧
            (outcome.isOk = false →
              SendNothing exchanges ∧ after.sent = office.sent) ∧
            ∀ id,
              after.accounts.find? id = office.accounts.find? id ∨
                ∃ reviewed plans,
                  engine.IsPlanned office call reviewed plans ∧
                    after.ledger =
                      (entriesOf office plans).foldl Ledger.append
                        office.ledger ∧
                    ∃ plan ∈ plans,
                      plan.account.id = id ∧
                        after.accounts.find? id = some plan.account := by
  constructor
  · -- The induction is on the session: a call changes an account to what an
    -- entry of the call says, or leaves it, and its entries, alone.
    induction reached with
    | start =>
        exact fun id => .inl rfl
    | call _ ended inductionHypothesis =>
        obtain ⟨ending, -⟩ := perform_ending ended
        intro id
        rcases ending.isInLedger id with same | changed
        · rcases inductionHypothesis id with asLoaded | ⟨account, found, logged⟩
          · exact .inl (same.trans asLoaded)
          · exact .inr ⟨account, same.trans found, logged.grows ending⟩
        · exact .inr changed
  · intro order call exchanges outcome after ended
    obtain ⟨ending, silent⟩ := perform_ending ended
    exact ⟨ending,
      fun failed => ⟨silent failed, ended.sent_eq (silent failed)⟩,
      ending.account_cases⟩

/-- A payment is recorded while the account that it is for cannot be saved. -/
theorem entries_before_balances_lostItem :
    let engine := Engine.new 2
    let payment : Call := .single .pay "a" (some "12.50") .none
    let troubled : Office.Troubled :=
      ⟨.withLostItem, { Outages.none with unsavable := ["a"] }⟩
    let office :=
      ((engine.perform payment).run.run Office.Troubled.answer troubled).2.office
    engine.MayReach .withLostItem office ∧
      office.ledger.size = 1 ∧
      office.accounts.find? "a" = some .lostItem ∧
      ∀ id,
        office.accounts.find? id = Office.withLostItem.accounts.find? id ∨
          ∃ account,
            office.accounts.find? id = some account ∧
              office.IsInLedger account := by
  intro engine payment troubled office
  have reached : engine.MayReach .withLostItem office := by
    obtain ⟨exchanges, ended⟩ := troubled.ends (engine.perform payment).run
    exact .call .start ended
  have recorded : office.ledger.size = 1 := by
    decide +kernel
  have unsaved : office.accounts.find? "a" = some .lostItem := by
    decide +kernel
  exact ⟨reached, recorded, unsaved, (entries_before_balances reached).1⟩

end PatronFees
