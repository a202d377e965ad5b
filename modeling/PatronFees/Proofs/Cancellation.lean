import PatronFees.Proofs.Engine.AccountStep
import PatronFees.Proofs.Engine.Session

namespace PatronFees

open Engine

/-!
# Cancellations and refunds

A cancellation is labelled with its reason, and what counts for refunds is told
by labels. So a cancellation leaves what can be refunded as it was, unless its
reason is worded as the label of a payment, a transfer or a refund: then what is
cancelled counts as if it had been paid, or given back.
-/

/-- The posting of a cancellation of all that is owed on an account. -/
def Posting.ofCancellation
    (account : Account)
    (scale : Nat)
    (options : ActionOptions) : Posting :=
  Posting.ofAction account (AccountPlan.cancellationLabel options)
    account.remaining (Money.zero scale) options

/-- The plans of a cancellation cancel all that is owed on each account. -/
theorem plans_cancel
    {reviewed : Reviewed}
    {scale : Nat}
    {options : ActionOptions}
    {plans : List AccountPlan}
    (planned : AccountPlan.plans .cancel reviewed scale options = .ok plans) :
    plans =
      reviewed.targets.map fun account =>
        AccountPlan.cancelling account scale options :=
  (Except.ok.inj planned).symm

/-- A planned cancellation posts once on each account that it names. -/
theorem postingsOn_cancellation
    {engine : Engine}
    {office : Office}
    {call : Call}
    {reviewed : Reviewed}
    {plans : List AccountPlan}
    (isPlanned : engine.IsPlanned office call reviewed plans)
    (cancels : call.kind = .cancel)
    {id : AccountId}
    (named : id ∈ call.accounts) :
    ∃ account,
      office.accounts.find? id = some account ∧
        postingsOn (entriesOf office plans) id =
          [Posting.ofCancellation account engine.scale call.options] := by
  have isRead := isReadFrom_of_review isPlanned.accepted
  have inIds : id ∈ reviewed.ids := by
    rw [isRead.ids_eq, List.mem_eraseDups]
    exact named
  obtain ⟨account, found⟩ :=
    Option.isSome_iff_exists.mp (found_of_review isPlanned.accepted id named)
  have sameId := AccountBook.id_of_find? found
  have target : account ∈ reviewed.targets :=
    List.mem_filterMap.mpr ⟨id, inIds, found⟩
  have planned := isPlanned.planned
  rw [cancels] at planned
  let plan := AccountPlan.cancelling account engine.scale call.options
  have member : plan ∈ plans := by
    rw [plans_cancel planned]
    exact List.mem_map_of_mem target
  have onAccount :
      ∀ plan ∈ plans,
        ∀ posting ∈ plan.postings, posting.account = plan.account.id := by
    intro other among posting posted
    obtain ⟨_, -, isFor⟩ := isPlanned.isFor among
    exact (isFor.onAccount posting posted).trans isFor.sameDebt.id.symm
  have planId : plan.account.id = id :=
    (account.isSameDebt_apply _ _).id.trans sameId
  refine ⟨account, (isRead.find?_eq inIds).symm.trans found, ?_⟩
  rw [postingsOn_entriesOf, ← planId]
  exact AccountPlan.postings_filter_of_mem onAccount isPlanned.distinct member

/-- A cancellation counts for refunds when its label does. -/
theorem countsForRefunds_ofCancellation
    (account : Account)
    (scale : Nat)
    (options : ActionOptions) :
    countsForRefunds (Posting.ofCancellation account scale options) =
      mislabelsCancellation options :=
  rfl

/-- What a posting that counts for refunds adds to what can be refunded. -/
theorem unitsRefundable_singleton_eq_zero_iff (posting : Posting) :
    Refund.unitsReceived ([posting].filter countsForRefunds) -
          Refund.unitsRefunded ([posting].filter countsForRefunds) = 0 ↔
      countsForRefunds posting = false ∨ posting.amount.minorUnits = 0 := by
  rw [unitsReceived_filter, unitsRefunded_filter]
  simp only [Refund.unitsReceived, Refund.unitsRefunded, Refund.unitsPosted,
    Refund.unitsAs, List.map_cons, List.map_nil, List.sum_cons, List.sum_nil,
    countsForRefunds]
  cases posting.kind? with
  | none =>
      simp
  | some kind =>
      cases kind <;> simp [refundHistory]

/--
In a state that a session of calls can lead to, whatever services refuse, a
cancellation succeeds. Of what counts for refunds on each account that it names,
everything is as it was, and the cancellation itself is added if its label reads
as one of a payment, a transfer or a refund. So what can be refunded stays the
same with any other label, and with such a label only where nothing was owed.
-/
theorem cancellation_refundable
    {engine : Engine}
    {start office after : Office}
    (unrecorded : start.ledger = Ledger.empty)
    (reached : engine.MayReach start office)
    {order : SaveOrder}
    {call : Call}
    (cancels : call.kind = .cancel)
    {exchanges : List Exchange}
    {receipt : Receipt}
    (succeeded :
      office.MayEnd (engine.performSaving order call) exchanges (.ok receipt) after)
    {id : AccountId}
    (named : id ∈ call.accounts) :
    ∃ account,
      office.accounts.find? id = some account ∧
        after.refundHistoryOf id =
          office.refundHistoryOf id ++
            (if mislabelsCancellation call.options then
              [Posting.ofCancellation account engine.scale call.options]
            else
              []) ∧
        (mislabelsCancellation call.options = false →
          Refund.refundable (after.refundHistoryOf id) engine.scale =
            Refund.refundable (office.refundHistoryOf id) engine.scale) ∧
        (Refund.unitsReceived (after.refundHistoryOf id) -
              Refund.unitsRefunded (after.refundHistoryOf id) =
            Refund.unitsReceived (office.refundHistoryOf id) -
              Refund.unitsRefunded (office.refundHistoryOf id) ↔
          mislabelsCancellation call.options = false ∨
            account.remaining.minorUnits = 0) := by
  obtain ⟨entries, recorded⟩ := reached.recorded unrecorded
  obtain ⟨ending, -⟩ := perform_ending succeeded
  cases ending with
  | @done reviewed plans _ _ isPlanned _ _ carriedOut =>
      obtain ⟨account, found, posted⟩ :=
        postingsOn_cancellation isPlanned cancels named
      have recordedAfter :
          after.ledger = Ledger.ofEntries (entries ++ entriesOf office plans) := by
        rw [carriedOut.ledger, recorded, Ledger.ofEntries_append]
      let posting := Posting.ofCancellation account engine.scale call.options
      have grown :
          after.refundHistoryOf id =
            office.refundHistoryOf id ++ [posting].filter countsForRefunds := by
        rw [refundHistoryOf_eq recordedAfter, refundHistoryOf_eq recorded,
          postingsOn_append, posted, List.filter_append]
      have counted :
          [posting].filter countsForRefunds =
            if mislabelsCancellation call.options then [posting] else [] := by
        rw [List.filter_singleton, countsForRefunds_ofCancellation,
          Bool.cond_eq_ite]
      refine ⟨account, found, grown.trans (congrArg _ counted), ?_, ?_⟩
      · intro otherLabel
        rw [grown, counted, otherLabel, if_neg Bool.false_ne_true,
          List.append_nil]
      · have change := unitsRefundable_singleton_eq_zero_iff posting
        rw [countsForRefunds_ofCancellation] at change
        rw [grown, Refund.unitsReceived_append, Refund.unitsRefunded_append,
          ← show posting.amount.minorUnits = account.remaining.minorUnits from rfl,
          ← change]
        omega

/-- A lost item is cancelled for a reason that no entry has as its label. -/
theorem cancellation_refundable_lostItem :
    let engine := Engine.new 2
    let options : ActionOptions :=
      { ActionOptions.none with reason := some "Found by the library" }
    let cancellation : Call := .single .cancel "a" none options
    let ended := Office.withLostItem.run (engine.perform cancellation)
    Office.withLostItem.ledger = Ledger.empty ∧
      ended.1.isOk = true ∧
      mislabelsCancellation options = false ∧
      Refund.refundable (ended.2.refundHistoryOf "a") 2 =
        Refund.refundable (Office.withLostItem.refundHistoryOf "a") 2 := by
  intro engine options cancellation ended
  have otherLabel : mislabelsCancellation options = false := by
    decide +kernel
  have isOk : ended.1.isOk = true := by
    decide +kernel
  obtain ⟨exchanges, ends⟩ :=
    Office.ends_run (engine.perform cancellation).run Office.withLostItem
  have succeeded :
      Office.withLostItem.MayEnd (engine.perform cancellation) exchanges
        ended.1 ended.2 :=
    ends
  revert succeeded isOk
  cases ended.1 with
  | error halt =>
      exact fun isOk => by cases isOk
  | ok receipt =>
      intro isOk succeeded
      obtain ⟨account, -, -, same, -⟩ :=
        cancellation_refundable rfl .start rfl succeeded
          (List.mem_singleton_self "a")
      exact ⟨rfl, rfl, otherLabel, same otherLabel⟩

/--
A lost item for which nothing was paid is cancelled, with a reason worded as the
label of a payment. Afterwards all of it can be refunded, and before nothing.
-/
theorem cancellation_refundable_paidFully :
    let engine := Engine.new 2
    let options : ActionOptions :=
      { ActionOptions.none with reason := some "Paid fully" }
    let cancellation : Call := .single .cancel "a" none options
    let refund : Call := .single .refund "a" (some "12.50") .none
    let ended := Office.withLostItem.run (engine.perform cancellation)
    ended.1.isOk = true ∧
      (Office.withLostItem.run (engine.perform refund)).1.isOk = false ∧
      (ended.2.run (engine.perform refund)).1.isOk = true ∧
      ¬ (Refund.refundable (ended.2.refundHistoryOf "a") 2 =
        Refund.refundable (Office.withLostItem.refundHistoryOf "a") 2) := by
  decide +kernel

end PatronFees
