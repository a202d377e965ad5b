import PatronFees.Proofs.Engine.Fresh
import PatronFees.Proofs.Engine.Journal
import PatronFees.Proofs.Engine.Session
import PatronFees.Proofs.Record

namespace PatronFees

open Engine

/-!
# The ceiling of refunds

What refunds give back on an account never exceeds what payments and transfers
applied to it, and a refund is accepted up to exactly what is left of that. The
engine reads both off the labels in the ledger; that these are the labels of the
actions that recorded them is what makes the sums the right ones.
-/

namespace Journal

/-- The units that payments and transfers applied to an account. -/
def unitsAppliedOn
    (journal : Journal)
    (account : AccountId) : Int :=
  ((journal.stepsOn account).map fun step =>
    if step.1 = .pay ∨ step.1 = .transfer then
      step.2.amount.minorUnits
    else
      0).sum

/-- The units that refunds gave back on an account, their credits aside. -/
def unitsGivenBackOn
    (journal : Journal)
    (account : AccountId) : Int :=
  ((journal.stepsOn account).map fun step =>
    if step.1 = .refund ∧ step.2.kind? = some .refund then
      step.2.amount.minorUnits
    else
      0).sum

end Journal

/--
A posting has a label of the action that recorded it, and if that is a
cancellation the label does not count for refunds.
-/
def Posting.IsOwnedBy
    (kind : ActionKind)
    (posting : Posting) : Prop :=
  ∃ options,
    posting.IsLabelledFor kind options ∧
      (kind = .cancel → mislabelsCancellation options = false)

namespace Posting.IsOwnedBy

variable {kind : ActionKind} {posting : Posting}

/-- A cancellation has no label that counts for refunds. -/
theorem not_counted
    (owned : posting.IsOwnedBy .cancel) :
    countsForRefunds posting = false := by
  obtain ⟨options, labelled, counted⟩ := owned
  have label : posting.actionType = AccountPlan.cancellationLabel options :=
    labelled
  rw [countsForRefunds, Posting.kind?, label]
  exact counted rfl

/-- Payments and transfers alone count as received. -/
theorem unitsAs_received
    (owned : posting.IsOwnedBy kind) :
    Refund.unitsAs [.pay, .transfer] posting =
      if kind = .pay ∨ kind = .transfer then
        posting.amount.minorUnits
      else
        0 := by
  cases kind with
  | cancel =>
      rw [unitsAs_eq_zero (by decide) owned.not_counted]
      rfl
  | refund =>
      obtain ⟨_, labelled, -⟩ := owned
      rcases labelled with credits | refunds
      · simp [Refund.unitsAs, credits]
      · simp [Refund.unitsAs, refunds]
  | pay | waive | transfer | credit =>
      obtain ⟨_, labelled, -⟩ := owned
      have label : posting.kind? = some _ := labelled
      simp [Refund.unitsAs, label]

/-- The refunds of refunds alone count as refunded. -/
theorem unitsAs_refunded
    (owned : posting.IsOwnedBy kind) :
    Refund.unitsAs [.refund] posting =
      if kind = .refund ∧ posting.kind? = some .refund then
        posting.amount.minorUnits
      else
        0 := by
  cases kind with
  | cancel =>
      rw [unitsAs_eq_zero (by decide) owned.not_counted]
      rfl
  | refund =>
      simp [Refund.unitsAs]
  | pay | waive | transfer | credit =>
      obtain ⟨_, labelled, -⟩ := owned
      have label : posting.kind? = some _ := labelled
      simp [Refund.unitsAs, label]

end Posting.IsOwnedBy

namespace Journal

variable {journal : Journal}

/-- Every entry has a label of the action that recorded it. -/
def IsOwned (journal : Journal) : Prop :=
  ∀ step ∈ journal, step.2.posting.IsOwnedBy step.1

/-- What steps on an account count for is what their postings count for. -/
theorem sum_stepsOn
    {count : ActionKind × Posting → Int}
    {kinds : List ActionKind}
    (counts :
      ∀ step ∈ journal,
        Refund.unitsAs kinds step.2.posting = count (step.1, step.2.posting))
    (account : AccountId) :
    ((journal.stepsOn account).map count).sum =
      Refund.unitsPosted kinds
        (postingsOn (journal.map Prod.snd) account) := by
  rw [postingsOn, ← map_snd_on, Refund.unitsPosted, stepsOn, List.map_map,
    List.map_map, List.map_map]
  congr 1
  apply List.map_congr_left
  intro step member
  exact (counts step (List.mem_of_mem_filter member)).symm

/-- What payments and transfers applied is what the ledger shows as received. -/
theorem IsOwned.unitsAppliedOn_eq
    (owned : journal.IsOwned)
    (account : AccountId) :
    journal.unitsAppliedOn account =
      Refund.unitsReceived (postingsOn (journal.map Prod.snd) account) :=
  sum_stepsOn (fun step member => (owned step member).unitsAs_received) account

/-- What refunds gave back is what the ledger shows as refunded. -/
theorem IsOwned.unitsGivenBackOn_eq
    (owned : journal.IsOwned)
    (account : AccountId) :
    journal.unitsGivenBackOn account =
      Refund.unitsRefunded (postingsOn (journal.map Prod.snd) account) :=
  sum_stepsOn (fun step member => (owned step member).unitsAs_refunded) account

end Journal

/-- No cancellation gets a label that counts for refunds. -/
def Call.KeepsLabels (call : Call) : Prop :=
  call.kind = .cancel → mislabelsCancellation call.options = false

section Runs

variable {engine : Engine} {loaded : AccountBook} {office : Office}
  {entries : List LedgerEntry}

/-- What a call adds to the ledger has labels of the call. -/
theorem isOwnedBy_of_perform
    {call : Call}
    (keeps : call.KeepsLabels)
    (recorded : office.ledger = Ledger.ofEntries entries)
    {added : List LedgerEntry}
    (recordedAfter :
      (office.run (engine.perform call)).2.ledger =
        Ledger.ofEntries (entries ++ added)) :
    ∀ entry ∈ added, entry.posting.IsOwnedBy call.kind := by
  obtain ⟨exchanges, ended⟩ := Office.ends_run (engine.perform call).run office
  obtain ⟨grown, ledger, labelled⟩ := (perform_ending ended).1.ledger_grows
  have sameLedger :
      Ledger.ofEntries (entries ++ added) = Ledger.ofEntries (entries ++ grown) := by
    rw [← recordedAfter, Ledger.ofEntries_append, ← recorded]
    exact ledger
  have sameEntries := congrArg Ledger.entries sameLedger
  rw [Ledger.entries_ofEntries, Ledger.entries_ofEntries,
    List.append_right_inj] at sameEntries
  intro entry member
  rw [sameEntries] at member
  exact ⟨call.options, labelled entry member, keeps⟩

/-- On each account no more was refunded than was received. -/
def IsWithinReceived (entries : List LedgerEntry) : Prop :=
  ∀ id,
    Refund.unitsRefunded (postingsOn entries id) ≤
      Refund.unitsReceived (postingsOn entries id)

/-- A step of an account refunds no more than was received and not refunded. -/
theorem AccountStep.within
    {outcome : Outcome Receipt}
    {scale : Nat}
    {kind : ActionKind}
    {history added : List Posting}
    {before after : Option Account}
    (taken : AccountStep outcome scale kind history before added after)
    (owned : ∀ posting ∈ added, posting.IsOwnedBy kind)
    (within : Refund.unitsRefunded history ≤ Refund.unitsReceived history) :
    Refund.unitsRefunded (history ++ added) ≤
      Refund.unitsReceived (history ++ added) := by
  cases taken with
  | untouched =>
      rw [List.append_nil]
      exact within
  | @carriedOut account plan isAllowed =>
      have receives := isAllowed.carriesOut.sound.unitsReceived_nonneg
      rw [Refund.unitsRefunded_append, Refund.unitsReceived_append]
      by_cases refunds : kind = .refund
      · have refundable := isAllowed.refundable refunds
        rw [AccountPlan.unitsApplied, if_pos refunds] at refundable
        omega
      · have nothing : Refund.unitsRefunded plan.postings = 0 := by
          apply List.sum_eq_zero
          intro units member
          obtain ⟨posting, among, rfl⟩ := List.mem_map.mp member
          rw [(owned posting among).unitsAs_refunded,
            if_neg fun both => refunds both.1]
        omega
  | @cutShort account plan _ rest _ refunds isAllowed split =>
      have refundable := isAllowed.refundable refunds
      rw [AccountPlan.unitsApplied, if_pos refunds] at refundable
      have among : added.Sublist plan.postings := by
        rw [split]
        exact List.sublist_append_left added rest
      have sound := isAllowed.carriesOut.sound
      have receives := (sound.of_sublist among).unitsReceived_nonneg
      have keptRefunds :
          Refund.unitsRefunded added ≤ Refund.unitsRefunded plan.postings :=
        Refund.unitsPosted_le_of_sublist sound among
      rw [Refund.unitsRefunded_append, Refund.unitsReceived_append]
      omega

/-- A call refunds no more on each account than was received and not refunded. -/
theorem IsWithinReceived.perform
    {call : Call}
    (keeps : call.KeepsLabels)
    (within : IsWithinReceived entries)
    (recorded : office.ledger = Ledger.ofEntries entries)
    {added : List LedgerEntry}
    (recordedAfter :
      (office.run (engine.perform call)).2.ledger =
        Ledger.ofEntries (entries ++ added))
    (steps :
      ∀ id,
        AccountStep (office.run (engine.perform call)).1 engine.scale
          call.kind (postingsOn entries id)
          (office.accounts.find? id) (postingsOn added id)
          ((office.run (engine.perform call)).2.accounts.find? id)) :
    IsWithinReceived (entries ++ added) := by
  have owned := isOwnedBy_of_perform keeps recorded recordedAfter
  intro id
  rw [postingsOn_append]
  apply (steps id).within ?_ (within id)
  intro posting member
  rw [postingsOn] at member
  obtain ⟨entry, among, rfl⟩ := List.mem_map.mp member
  exact owned entry (List.mem_of_mem_filter among)

/--
A run of calls keeps refunds within what was received, and every entry that it
adds has a label of the call that recorded it.
-/
theorem IsWithinReceived.performAll
    (inRange : loaded.IsInRange engine.scale)
    (reached : office.IsReachedFrom engine.scale loaded entries)
    (within : IsWithinReceived entries)
    {calls : List Call}
    (keep : ∀ call ∈ calls, call.KeepsLabels) :
    (engine.performAll office calls).IsReachedFrom engine.scale loaded
        (entries ++ (engine.journal office calls).map Prod.snd) ∧
      IsWithinReceived
        (entries ++ (engine.journal office calls).map Prod.snd) ∧
      (engine.journal office calls).IsOwned := by
  induction calls generalizing office entries with
  | nil =>
      rw [Engine.journal, List.map_nil, List.append_nil]
      exact ⟨reached, within, fun _ member => (List.not_mem_nil member).elim⟩
  | cons call rest inductionHypothesis =>
      have keeps := keep call List.mem_cons_self
      obtain ⟨added, reachedNext, steps⟩ := reached.perform inRange call
      have owned :=
        isOwnedBy_of_perform keeps reached.recorded reachedNext.recorded
      have withinNext :=
        within.perform keeps reached.recorded reachedNext.recorded steps
      obtain ⟨reachedLast, withinLast, ownedRest⟩ :=
        inductionHypothesis reachedNext withinNext
          fun other member => keep other (List.mem_cons_of_mem _ member)
      rw [journal_cons reached.recorded reachedNext.recorded,
        Journal.map_snd_append, ← List.append_assoc]
      refine ⟨reachedLast, withinLast, fun step member => ?_⟩
      rcases List.mem_append.mp member with first | later
      · obtain ⟨entry, among, rfl⟩ := List.mem_map.mp first
        exact owned entry among
      · exact ownedRest step later

end Runs

section Acceptance

variable {engine : Engine} {loaded : AccountBook} {office : Office}
  {entries : List LedgerEntry} {id : AccountId}

/-- The review of a refund on one account checks it against its history. -/
theorem reviewIn_refund
    (engine : Engine)
    (office : Office)
    (id : AccountId)
    (amount : Option String) :
    engine.reviewIn office .refund [id] amount = (do
      let preview ←
        Validation.check .refunding [id] (office.accounts.only [id])
          (office.refundHistoryOf id) amount engine.scale
      return ⟨[id], office.accounts.only [id], office.refundHistoryOf id, preview⟩) :=
  rfl

/-- What a refund on one account is checked against is in range. -/
theorem isInRange_refund
    (recorded : office.ledger = Ledger.ofEntries entries)
    (owed : office.accounts.IsInRange engine.scale)
    (posted : ArePostedInRange engine.scale entries)
    (id : AccountId) :
    Validation.IsInRange engine.scale
      ((office.accounts.only [id]).findEach [id])
      (office.refundHistoryOf id) := by
  rw [AccountBook.findEach_only]
  exact isInRange_read recorded owed posted .refund (List.nodup_singleton id)

/-- What was received on an account was received on an account that there is. -/
theorem isSome_of_received
    (reached : office.IsReachedFrom engine.scale loaded entries)
    (received : 0 < Refund.unitsReceived (postingsOn entries id)) :
    (office.accounts.find? id).isSome := by
  have stands := reached.stands id
  cases now : office.accounts.find? id with
  | some account =>
      rfl
  | none =>
      rw [now] at stands
      cases before : loaded.find? id with
      | some account =>
          rw [before] at stands
          exact stands.elim
      | none =>
          rw [before] at stands
          have nothing : postingsOn entries id = [] := stands
          rw [nothing] at received
          cases received

/--
While identifiers are fresh, a refund on one account is carried out exactly when
its amount is above zero and no more than was received and not yet refunded.
-/
theorem refund_isOk_iff
    (reached : office.IsReachedFrom engine.scale loaded entries)
    (inRange : loaded.IsInRange engine.scale)
    (fresh : office.DrawsFresh 4)
    {text : String}
    {amount : Money}
    (read : Money.read text engine.scale = .ok amount)
    (options : ActionOptions) :
    (office.run
        (engine.perform (.single .refund id (some text) options))).1.isOk =
        true ↔
      0 < amount.minorUnits ∧
        amount.minorUnits ≤
          Refund.unitsReceived (postingsOn entries id) -
            Refund.unitsRefunded (postingsOn entries id) := by
  obtain ⟨owed, posted⟩ := reached.inRange inRange
  have inRangeHere := isInRange_refund reached.recorded owed posted id
  have refundedNonneg := (posted.sound id).unitsRefunded_nonneg
  have passes := Validation.check_refunding_iff inRangeHere read
  rw [refundHistoryOf_eq reached.recorded, unitsReceived_filter,
    unitsRefunded_filter, ← refundHistoryOf_eq reached.recorded] at passes
  cases review : engine.reviewIn office .refund [id] (some text) with
  | error halt =>
      have refused :
          office.run (engine.perform (.single .refund id (some text) options)) =
            (.error halt, office) :=
        run_perform_refused review
      rw [refused]
      constructor
      · intro isOk
        cases isOk
      · rintro ⟨positive, enough⟩
        have received : 0 < Refund.unitsReceived (postingsOn entries id) := by
          omega
        have found := isSome_of_received reached received
        obtain ⟨preview, passed⟩ := passes.mpr
          ⟨fun other member => by
              rw [List.mem_singleton.mp member, AccountBook.find?_only,
                if_pos (List.mem_singleton_self id)]
              exact found,
            positive, enough⟩
        rw [reviewIn_refund, passed] at review
        cases review
  | ok reviewed =>
      have isRead := isReadFrom_of_review review
      have accepted := isRead.isAccepted reached.recorded owed posted
      obtain ⟨plans, plansEq, planned⟩ := accepted.plans_carryOut options
      have few : (plans.flatMap (·.postings)).length ≤ 4 :=
        length_postings_le isRead planned
      obtain ⟨after, ended, -⟩ :
          ∃ after,
            office.run
                  (engine.perform (.single .refund id (some text) options)) =
                (.ok (receiptFor office reviewed plans), after) ∧
              HasCarriedOut office plans after :=
        run_perform_fresh review plansEq (isRead.found accepted)
          (firstRepeated?_entriesOf fresh few)
      rw [ended]
      refine ⟨fun _ => ?_, fun _ => rfl⟩
      rw [reviewIn_refund] at review
      obtain ⟨preview, passed, -⟩ := Outcome.bind_eq_ok_iff.mp review
      exact (passes.mp ⟨preview, passed⟩).2

end Acceptance

/--
Accounts at the scale of an engine owe within their amounts, below `2 ^ 95`
units of them together, and nothing is recorded yet. Calls are made of which no
cancellation gets a label that counts for refunds. Then on each account refunds
gave back no more than payments and transfers applied; and while identifiers are
fresh, a refund of an amount is accepted exactly when it is above zero and no
more than the difference, however the account stands.
-/
theorem refund_ceiling
    {engine : Engine}
    {office : Office}
    (unrecorded : office.ledger = Ledger.empty)
    (atScale :
      ∀ account ∈ office.accounts.accounts,
        account.amount.scale = engine.scale ∧
          account.remaining.scale = engine.scale)
    (within :
      ∀ account ∈ office.accounts.accounts, account.owesWithinAmount = true)
    (inRange :
      (office.accounts.accounts.map (·.amount.minorUnits)).sum < twoTo 95)
    {calls : List Call}
    (keep : ∀ call ∈ calls, call.KeepsLabels)
    (id : AccountId) :
    let finished := engine.performAll office calls
    let journal := engine.journal office calls
    journal.map Prod.snd = finished.ledger.entries ∧
      journal.unitsGivenBackOn id ≤ journal.unitsAppliedOn id ∧
      ∀ {text : String} {amount : Money} (options : ActionOptions),
        Money.read text engine.scale = .ok amount →
          finished.DrawsFresh 4 →
            ((finished.run
                (engine.perform
                  (.single .refund id (some text) options))).1.isOk = true ↔
              0 < amount.minorUnits ∧
                amount.minorUnits ≤
                  journal.unitsAppliedOn id - journal.unitsGivenBackOn id) := by
  intro finished journal
  have bookInRange := AccountBook.isInRange_of_amounts atScale within inRange
  have reached := Office.IsReachedFrom.start bookInRange unrecorded
  have nothing : IsWithinReceived [] := fun _ => Int.le_refl 0
  obtain ⟨reachedFinished, withinFinished, owned⟩ :=
    nothing.performAll bookInRange reached keep
  rw [List.nil_append] at reachedFinished withinFinished
  rw [owned.unitsAppliedOn_eq, owned.unitsGivenBackOn_eq]
  refine ⟨?_, withinFinished id, ?_⟩
  · rw [reachedFinished.recorded, Ledger.entries_ofEntries]
  · intro text amount options read fresh
    exact refund_isOk_iff reachedFinished bookInRange fresh read options

/-- Part of what was paid for a lost item can be refunded. -/
theorem refund_ceiling_lostItem :
    let engine := Engine.new 2
    let calls : List Call := [.bulk .pay ["a"] (some "12.50") .none]
    let finished := engine.performAll .withLostItem calls
    let journal := engine.journal .withLostItem calls
    let part := Money.ofMinorUnits 1000 2
    (∀ call ∈ calls, call.KeepsLabels) ∧
      journal.unitsGivenBackOn "a" ≤ journal.unitsAppliedOn "a" ∧
      finished.DrawsFresh 4 ∧
      Money.read "10.00" 2 = .ok part ∧
      (finished.run
        (engine.perform (.single .refund "a" (some "10.00") .none))).1.isOk =
          true := by
  intro engine calls finished journal part
  have keep : ∀ call ∈ calls, call.KeepsLabels := by
    intro call member
    rw [List.mem_singleton.mp member]
    exact fun cancels => by cases cancels
  have atScale :
      ∀ account ∈ Office.withLostItem.accounts.accounts,
        account.amount.scale = engine.scale ∧
          account.remaining.scale = engine.scale := by
    decide
  have within :
      ∀ account ∈ Office.withLostItem.accounts.accounts,
        account.owesWithinAmount = true := by
    decide
  have inRange :
      (Office.withLostItem.accounts.accounts.map (·.amount.minorUnits)).sum <
        twoTo 95 := by
    decide
  have fresh : finished.DrawsFresh 4 := by
    decide +kernel
  have read : Money.read "10.00" 2 = .ok part := by
    rfl
  have available :
      0 < part.minorUnits ∧
        part.minorUnits ≤
          journal.unitsAppliedOn "a" - journal.unitsGivenBackOn "a" := by
    decide +kernel
  obtain ⟨-, covered, accepted⟩ :=
    refund_ceiling rfl atScale within inRange keep "a"
  exact ⟨keep, covered, fresh, read, (accepted .none read fresh).mpr available⟩

end PatronFees
