import PatronFees.Proofs.Engine.Journal
import PatronFees.Proofs.Record

namespace PatronFees

/-!
# The ledger replays to the accounts

Accounts are saved apart from the entries that are recorded, but the two agree:
from what was owed at first, the balances of an account's entries follow one
another by their amounts, and the last one is what is owed, under its label.
-/

/-- No store refuses to write anything that the calls ask of it. -/
abbrev Engine.IsNeverRefused
    (engine : Engine)
    (office : Office)
    (calls : List Call) : Prop :=
  engine.EndsWell (isStoreFailure · = false) office calls

/-- Steps replay from one state of an account to another. -/
structure Account.Replays
    (scale : Nat)
    (before after : Account)
    (steps : List (ActionKind × Posting)) : Prop where
  leads :
    LeadsTo scale before.remaining.minorUnits steps after.remaining.minorUnits
  last :
    ∀ step,
      steps.getLast? = some step →
        step.2.balance.equals after.remaining = true ∧
          step.2.actionType = after.paymentStatus
  untouched : steps = [] → after = before

namespace Account.Replays

variable {scale : Nat}

theorem refl (account : Account) :
    account.Replays scale account [] where
  leads := rfl
  last := by
    intro step isLast
    cases isLast
  untouched := fun _ => rfl

theorem trans
    {first second third : Account}
    {early late : List (ActionKind × Posting)}
    (onward : first.Replays scale second early)
    (further : second.Replays scale third late) :
    first.Replays scale third (early ++ late) where
  leads := onward.leads.append further.leads
  last := by
    intro step isLast
    cases nothing : late with
    | nil =>
        rw [nothing, List.append_nil] at isLast
        rw [further.untouched nothing]
        exact onward.last step isLast
    | cons next rest =>
        have nonempty : late ≠ [] := by
          rw [nothing]
          exact List.cons_ne_nil next rest
        rw [List.getLast?_append_of_ne_nil _ nonempty] at isLast
        exact further.last step isLast
  untouched := by
    intro nothing
    obtain ⟨noneEarly, noneLate⟩ := List.append_eq_nil_iff.mp nothing
    exact (further.untouched noneLate).trans (onward.untouched noneEarly)

/-- Unless a store refuses to write, a step of an account can be replayed. -/
theorem of_step
    {outcome : Outcome Receipt}
    {kind : ActionKind}
    {history added : List Posting}
    {before : Account}
    {now : Option Account}
    (written : isStoreFailure outcome = false)
    (taken : AccountStep outcome scale kind history (some before) added now) :
    ∃ after,
      now = some after ∧
        before.Replays scale after (added.map fun posting => (kind, posting)) := by
  cases taken with
  | untouched =>
      exact ⟨before, rfl, refl before⟩
  | @carriedOut _ plan isAllowed =>
      have carriesOut := isAllowed.carriesOut
      obtain ⟨last, isLast, labels⟩ := carriesOut.labels
      refine ⟨plan.account, rfl, carriesOut.leads, ?_, ?_⟩
      · intro step isLastStep
        obtain ⟨balanceScale, balance⟩ :=
          carriesOut.leads.getLast?_balance isLastStep
        rw [List.getLast?_map, isLast] at isLastStep
        obtain rfl := Option.some.inj isLastStep
        exact
          ⟨Money.equals_of_units balanceScale carriesOut.scale_eq balance,
            labels⟩
      · intro nothing
        rw [List.map_eq_nil_iff.mp nothing] at isLast
        cases isLast
  | cutShort failed =>
      rw [written] at failed
      cases failed

end Account.Replays

/-- Replaying holds over steps that no store refuses to write. -/
theorem Account.Replays.holdsOverSteps (scale : Nat) :
    HoldsOverSteps scale (isStoreFailure · = false) (Account.Replays scale) where
  refl := refl
  trans := trans
  step := of_step

/--
Accounts at the scale of an engine owe within their amounts, below `2 ^ 95`
units of them together, and nothing is recorded yet. After any calls that no
store refuses to write, the entries of each account replay from what was owed on
it to what is owed now, and an account without entries is as it was.
-/
theorem ledger_replays
    {engine : Engine}
    {office : Office}
    (unrecorded : office.ledger = Ledger.empty)
    (atScale :
      ∀ account ∈ office.accounts.accounts,
        account.amount.scale = engine.scale ∧
          account.remaining.scale = engine.scale)
    (within :
      ∀ account ∈ office.accounts.accounts, account.owesWithinAmount = true)
    (inRange :
      (office.accounts.accounts.map (·.amount.minorUnits)).sum < twoTo 95)
    {calls : List Call}
    (written : engine.IsNeverRefused office calls)
    (id : AccountId) :
    let finished := engine.performAll office calls
    let journal := engine.journal office calls
    journal.map Prod.snd = finished.ledger.entries ∧
      match office.accounts.find? id with
      | none => finished.accounts.find? id = none ∧ journal.stepsOn id = []
      | some loaded =>
          ∃ now,
            finished.accounts.find? id = some now ∧
              loaded.Replays engine.scale now (journal.stepsOn id) := by
  intro finished journal
  have owes :
      ∀ account ∈ office.accounts.accounts,
        0 ≤ account.remaining.minorUnits ∧
          account.remaining.minorUnits ≤ account.amount.minorUnits := by
    intro account member
    obtain ⟨amountScale, remainingScale⟩ := atScale account member
    exact (Account.owesWithinAmount_iff
      (amountScale.trans remainingScale.symm)).mp (within account member)
  have bookInRange : office.accounts.IsInRange engine.scale := by
    apply AccountBook.isInRange_of_listed AccountBook.mem_of_find?
    · intro money member
      obtain ⟨account, among, rfl⟩ := List.mem_map.mp member
      exact ⟨(atScale account among).2, (owes account among).1⟩
    · refine Int.lt_of_le_of_lt ?_ inRange
      rw [Money.unitsOf, List.map_map]
      apply List.sum_le_sum
      intro account member
      exact (owes account member).2
  have reached := Office.IsReachedFrom.start bookInRange unrecorded
  obtain ⟨reachedFinished, replays⟩ :=
    reached.performAll (Account.Replays.holdsOverSteps engine.scale)
      bookInRange written
  rw [List.nil_append] at reachedFinished
  refine ⟨?_, ?_⟩
  · rw [reachedFinished.recorded, Ledger.entries_ofEntries]
  · cases found : office.accounts.find? id with
    | some loaded =>
        exact replays id loaded found
    | none =>
        have stands := reachedFinished.stands id
        rw [found] at stands
        cases nowFound : finished.accounts.find? id with
        | some now =>
            rw [nowFound] at stands
            exact stands.elim
        | none =>
            rw [nowFound] at stands
            exact ⟨rfl, Journal.stepsOn_eq_nil stands⟩

/-- A payment for a lost item and a refund replay from what was owed at first. -/
theorem ledger_replays_lostItem :
    let calls : List Call :=
      [.single .pay "a" (some "12.50") .none,
        .bulk .refund ["a"] (some "2.50") .none]
    let finished := (Engine.new 2).performAll .withLostItem calls
    let journal := (Engine.new 2).journal .withLostItem calls
    (Engine.new 2).IsNeverRefused .withLostItem calls ∧
      journal.map Prod.snd = finished.ledger.entries ∧
      ∃ now,
        finished.accounts.find? "a" = some now ∧
          Account.lostItem.Replays 2 now (journal.stepsOn "a") := by
  intro calls finished journal
  have written : (Engine.new 2).IsNeverRefused .withLostItem calls := by
    decide +kernel
  have atScale :
      ∀ account ∈ Office.withLostItem.accounts.accounts,
        account.amount.scale = (Engine.new 2).scale ∧
          account.remaining.scale = (Engine.new 2).scale := by
    decide
  have within :
      ∀ account ∈ Office.withLostItem.accounts.accounts,
        account.owesWithinAmount = true := by
    decide
  have inRange :
      (Office.withLostItem.accounts.accounts.map (·.amount.minorUnits)).sum <
        twoTo 95 := by
    decide
  exact ⟨written, ledger_replays rfl atScale within inRange written "a"⟩

end PatronFees
