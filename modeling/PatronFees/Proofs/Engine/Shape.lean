import PatronFees.Engine.Plan
import PatronFees.Proofs.Account
import PatronFees.Proofs.AccountBook
import PatronFees.Proofs.Allocation.Served
import PatronFees.Proofs.Lists
import PatronFees.Proofs.Refund

namespace PatronFees

/-!
# The shape of plans

Whatever the amounts come to, a plan for an account posts on that account alone,
under labels of its action, and leaves the account as its last posting says. A
request has one plan at most for each account that it names.
-/

/--
The posting is a credit of a refund. No other action makes one: a cancellation may
have a reason that is worded as the label of a credit, and is none.
-/
def Posting.isCreditOf
    (kind : ActionKind)
    (posting : Posting) : Bool :=
  kind == .refund && posting.kind? == some .credit

/-- An account is as a posting leaves it: it owes the balance, under the label. -/
structure Account.IsLeftBy
    (account : Account)
    (posting : Posting) : Prop where
  account_eq : posting.account = account.id
  remaining : account.remaining.equals posting.balance = true
  paymentStatus : account.paymentStatus = posting.actionType

/--
A posting has a label of an action: a cancellation its own, a refund that of a
credit or a refund, and any other action that of its kind.
-/
def Posting.IsLabelledFor
    (kind : ActionKind)
    (options : ActionOptions)
    (posting : Posting) : Prop :=
  match kind with
  | .cancel => posting.actionType = AccountPlan.cancellationLabel options
  | .refund => posting.kind? = some .credit ∨ posting.kind? = some .refund
  | .pay | .waive | .transfer | .credit => posting.kind? = some kind

/-- An action leaves an account as the posting of the action says. -/
theorem Account.isLeftBy_apply
    (account : Account)
    (posting : Posting)
    (own : posting.account = account.id) :
    (account.apply posting.actionType posting.balance).IsLeftBy posting where
  account_eq := own.trans (account.isSameDebt_apply _ _).id.symm
  remaining := by
    rw [Money.equals_iff (account.scale_remaining_apply _ _).symm]
    exact account.minorUnits_remaining_apply _ _
  paymentStatus := account.paymentStatus_apply _ _

namespace Refund.Breakdown

variable {account : Account} {options : ActionOptions}

/-- The steps of a refund are credits and refunds. -/
theorem kind_of_mem_steps
    {breakdown : Breakdown}
    {step : Step}
    (member : step ∈ breakdown.steps) :
    step.kind = .credit ∨ step.kind = .refund := by
  have among := List.mem_of_mem_filter member
  simp only [List.mem_cons, List.not_mem_nil, or_false] at among
  rcases among with rfl | rfl | rfl | rfl
  · exact .inl rfl
  · exact .inl rfl
  · exact .inr rfl
  · exact .inr rfl

/-- A refund tells the patron of its steps, if that is wanted, but of no credit. -/
theorem notify_of_isPostedBy
    {full : Bool}
    {step : Step}
    {posting : Posting}
    (posted : step.IsPostedBy account options full posting) :
    posting.notify =
      (options.notifyPatron && !posting.isCreditOf .refund) := by
  have isRecorded := posted.isRecordedBy
  obtain ⟨after, rfl⟩ := posted
  rw [Posting.isCreditOf, isRecorded.kind_eq]
  change (options.notifyPatron && step.kind != .credit) = _
  cases step.kind <;> rfl

/-- A refund posts on its account, four times at most, credits and refunds. -/
theorem shape_of_postings
    {breakdown : Breakdown}
    {postings : List Posting}
    (posted : breakdown.postings account options = .ok postings) :
    postings.length ≤ 4 ∧
      ∀ posting ∈ postings,
        posting.account = account.id ∧
          (posting.kind? = some .credit ∨ posting.kind? = some .refund) ∧
          posting.notify =
            (options.notifyPatron && !posting.isCreditOf .refund) := by
  have steps := posted_of_postingsFrom posted
  refine ⟨?_, fun posting member => ?_⟩
  · rw [← steps.length_eq]
    exact List.length_filter_le _ _
  · obtain ⟨step, inSteps, isPosted⟩ := exists_of_forall₂ steps member
    have records := isPosted.isRecordedBy
    refine ⟨records.account_eq, ?_, notify_of_isPostedBy isPosted⟩
    rw [records.kind_eq, Option.some_inj, Option.some_inj]
    exact kind_of_mem_steps inSteps

end Refund.Breakdown

namespace AccountPlan

/-- What a plan for an account looks like, whatever its amounts. -/
structure IsFor
    (kind : ActionKind)
    (options : ActionOptions)
    (account : Account)
    (plan : AccountPlan) : Prop where
  sameDebt : plan.account.IsSameDebt account
  few : plan.postings.length ≤ 4
  onAccount : ∀ posting ∈ plan.postings, posting.account = account.id
  labelled : ∀ posting ∈ plan.postings, posting.IsLabelledFor kind options
  /-- The patron is told, if that is wanted, but of no credit. -/
  told :
    ∀ posting ∈ plan.postings,
      posting.notify = (options.notifyPatron && !posting.isCreditOf kind)
  /-- Where nothing is posted, nothing changes. -/
  idle : plan.postings = [] → plan.account = account
  left : ∀ last, plan.postings.getLast? = some last → plan.account.IsLeftBy last

variable {kind : ActionKind} {options : ActionOptions} {account : Account}
  {reviewed : Reviewed} {scale : Nat} {plans : List AccountPlan}

/-- A plan of one posting leaves the account as the posting says. -/
theorem isFor_single
    (settles : kind ≠ .refund)
    {label : String}
    {amount balance : Money}
    (labelled :
      (Posting.ofAction account label amount balance options).IsLabelledFor
        kind options) :
    IsFor kind options account
      { account := account.apply label balance
        postings := [Posting.ofAction account label amount balance options] } where
  sameDebt := account.isSameDebt_apply label balance
  few := Nat.le_add_left 1 3
  onAccount := by
    intro posting member
    rw [List.mem_singleton.mp member]
    rfl
  labelled := by
    intro posting member
    rw [List.mem_singleton.mp member]
    exact labelled
  told := by
    intro posting member
    rw [List.mem_singleton.mp member, Posting.isCreditOf,
      beq_false_of_ne settles, Bool.false_and, Bool.not_false, Bool.and_true]
    rfl
  idle := fun nothing => (List.cons_ne_nil _ _ nothing).elim
  left := by
    intro last isLast
    obtain rfl := Option.some.inj isLast
    exact account.isLeftBy_apply
      (Posting.ofAction account label amount balance options) rfl

theorem isFor_cancelling
    (account : Account)
    (scale : Nat)
    (options : ActionOptions) :
    (cancelling account scale options).IsFor .cancel options account :=
  isFor_single (by decide) rfl

theorem isFor_of_settling
    (settles : kind ≠ .refund)
    (notCancel : kind ≠ .cancel)
    {share : Money}
    {plan : AccountPlan}
    (planned : settling kind account share options = .ok plan) :
    plan.IsFor kind options account := by
  obtain ⟨remaining, -, same⟩ := Outcome.bind_eq_ok_iff.mp planned
  obtain rfl := Except.ok.inj same
  apply isFor_single settles
  cases kind with
  | cancel => exact (notCancel rfl).elim
  | refund => exact (settles rfl).elim
  | pay | waive | transfer | credit => exact ActionKind.ofLabel?_label _ _

theorem isFor_of_refunding
    {history : List Posting}
    {share : Money}
    {plan : AccountPlan}
    (planned : refunding account history share options = .ok plan) :
    plan.IsFor .refund options account := by
  obtain ⟨breakdown, -, onward⟩ := Outcome.bind_eq_ok_iff.mp planned
  obtain ⟨postings, posted, same⟩ := Outcome.bind_eq_ok_iff.mp onward
  obtain ⟨few, shape⟩ := Refund.Breakdown.shape_of_postings posted
  have onAccount : ∀ posting ∈ postings, posting.account = account.id :=
    fun posting member => (shape posting member).1
  have labelled :
      ∀ posting ∈ postings, posting.IsLabelledFor .refund options :=
    fun posting member => (shape posting member).2.1
  have told :
      ∀ posting ∈ postings,
        posting.notify =
          (options.notifyPatron && !posting.isCreditOf .refund) :=
    fun posting member => (shape posting member).2.2
  cases isLast : postings.getLast? with
  | none =>
      rw [isLast] at same
      obtain rfl := Except.ok.inj same
      exact
        { sameDebt := .refl account
          few := few
          onAccount := onAccount
          labelled := labelled
          told := told
          idle := fun _ => rfl
          left := fun last found => by
            rw [isLast] at found
            cases found }
  | some last =>
      rw [isLast] at same
      obtain rfl := Except.ok.inj same
      have own := onAccount last (List.mem_of_getLast? isLast)
      exact
        { sameDebt := account.isSameDebt_apply _ _
          few := few
          onAccount := onAccount
          labelled := labelled
          told := told
          idle := fun nothing => by
            rw [List.getLast?_eq_none_iff.mpr nothing] at isLast
            cases isLast
          left := fun found isFound => by
            rw [isLast] at isFound
            obtain rfl := Option.some.inj isFound
            exact account.isLeftBy_apply last own }

/-- The plan of a share is for the account of the share. -/
theorem isFor_of_ofShare
    (notCancel : kind ≠ .cancel)
    {share : AccountId × Money}
    {plan : AccountPlan}
    (planned : ofShare kind reviewed options share = .ok plan) :
    ∃ account,
      reviewed.accounts.find? share.1 = some account ∧
        plan.IsFor kind options account := by
  rw [ofShare] at planned
  split at planned
  next =>
    cases planned
  next account found =>
    refine ⟨account, found, ?_⟩
    split at planned
    next refunds =>
      subst refunds
      exact isFor_of_refunding planned
    next settles =>
      exact isFor_of_settling settles notCancel planned

/-- Every plan is for an account that the request names and that was found. -/
theorem isFor_of_mem_plans
    (planned : AccountPlan.plans kind reviewed scale options = .ok plans)
    {plan : AccountPlan}
    (member : plan ∈ plans) :
    ∃ account,
      reviewed.accounts.find? plan.account.id = some account ∧
        plan.IsFor kind options account := by
  rw [AccountPlan.plans] at planned
  split at planned
  next cancels =>
    subst cancels
    obtain rfl := Except.ok.inj planned
    obtain ⟨account, among, rfl⟩ := List.mem_map.mp member
    have isFor := isFor_cancelling account scale options
    refine ⟨account, ?_, isFor⟩
    rw [isFor.sameDebt.id]
    exact (AccountBook.find?_of_mem_findEach among).2
  next notCancel =>
    obtain ⟨targets, -, onward⟩ := Outcome.bind_eq_ok_iff.mp planned
    obtain ⟨allocation, -, each⟩ := Outcome.bind_eq_ok_iff.mp onward
    obtain ⟨share, -, ofShare⟩ :=
      exists_of_forall₂ (Outcome.mapM_eq_ok_iff.mp each) member
    obtain ⟨account, found, isFor⟩ := isFor_of_ofShare notCancel ofShare
    refine ⟨account, ?_, isFor⟩
    rw [isFor.sameDebt.id, AccountBook.id_of_find? found]
    exact found

/-- A target is for the account that it was made of. -/
theorem account_of_target
    {target : Target}
    (targeted : AccountPlan.target kind reviewed scale account = .ok target) :
    target.account = account.id := by
  rw [AccountPlan.target] at targeted
  split at targeted
  next =>
    obtain ⟨refundable, -, same⟩ := Outcome.bind_eq_ok_iff.mp targeted
    obtain rfl := Except.ok.inj same
    rfl
  next =>
    obtain rfl := Except.ok.inj targeted
    rfl

/-- The plans are for accounts that the request names, one for each at most. -/
theorem ids_of_plans
    (planned : AccountPlan.plans kind reviewed scale options = .ok plans) :
    (plans.map (·.account.id)).Subperm (reviewed.targets.map (·.id)) := by
  rw [AccountPlan.plans] at planned
  split at planned
  next =>
    obtain rfl := Except.ok.inj planned
    have same :
        (reviewed.targets.map fun account =>
            cancelling account scale options).map (·.account.id) =
          reviewed.targets.map (·.id) := by
      rw [List.map_map]
      exact List.map_congr_left fun account _ =>
        (account.isSameDebt_apply _ _).id
    rw [same]
  next notCancel =>
    obtain ⟨targets, targeted, onward⟩ := Outcome.bind_eq_ok_iff.mp planned
    obtain ⟨allocation, allocated, each⟩ := Outcome.bind_eq_ok_iff.mp onward
    have shareIds : plans.map (·.account.id) = allocation.shares.map Prod.fst := by
      apply map_eq_map_of_forall₂
      refine (Outcome.mapM_eq_ok_iff.mp each).imp fun share plan ofShare => ?_
      obtain ⟨account, found, isFor⟩ := isFor_of_ofShare notCancel ofShare
      exact isFor.sameDebt.id.trans (AccountBook.id_of_find? found)
    have targetIds :
        targets.map (·.account) = reviewed.targets.map (·.id) := by
      apply map_eq_map_of_forall₂
      exact (Outcome.mapM_eq_ok_iff.mp targeted).imp
        fun account target made => account_of_target made
    rw [shareIds, ← targetIds]
    exact Allocation.accounts_of_split allocated

/-- Of accounts that are named once, each has one plan at most. -/
theorem nodup_ids_of_plans
    (planned : AccountPlan.plans kind reviewed scale options = .ok plans)
    (distinct : reviewed.ids.Nodup) :
    (plans.map (·.account.id)).Nodup := by
  obtain ⟨part, permuted, sublist⟩ := ids_of_plans planned
  exact permuted.nodup (sublist.nodup (AccountBook.nodup_ids_findEach distinct))

end AccountPlan

namespace Engine

/-- The plans of a request are for its accounts, with four postings at most. -/
structure ArePlansFor
    (accounts : List AccountId)
    (plans : List AccountPlan) : Prop where
  saved : ∀ plan ∈ plans, plan.account.id ∈ accounts
  posted : ∀ posting ∈ plans.flatMap (·.postings), posting.account ∈ accounts
  few : (plans.flatMap (·.postings)).length ≤ 4 * accounts.length

/-- What is planned on reviewed accounts is planned for these accounts. -/
theorem arePlansFor_of_plans
    {kind : ActionKind}
    {accounts : List AccountId}
    {options : ActionOptions}
    {reviewed : Reviewed}
    {scale : Nat}
    {plans : List AccountPlan}
    (read : reviewed.ids = accounts.eraseDups)
    (planned :
      AccountPlan.plans kind reviewed scale options = .ok plans) :
    ArePlansFor accounts plans := by
  have within := AccountPlan.ids_of_plans planned
  have saved : ∀ plan ∈ plans, plan.account.id ∈ accounts := by
    intro plan member
    have among := within.subset (List.mem_map_of_mem member)
    obtain ⟨account, isTarget, same⟩ := List.mem_map.mp among
    have named := (AccountBook.find?_of_mem_findEach isTarget).1
    rwa [read, List.mem_eraseDups, same] at named
  have each : ∀ plan ∈ plans, plan.postings.length ≤ 4 := by
    intro plan among
    obtain ⟨account, -, isFor⟩ := AccountPlan.isFor_of_mem_plans planned among
    exact isFor.few
  have distinct : (plans.map (·.account.id)).Nodup := by
    apply AccountPlan.nodup_ids_of_plans planned
    rw [read]
    exact nodup_eraseDups accounts
  have fewPlans : plans.length ≤ accounts.length := by
    have inside : plans.map (·.account.id) ⊆ accounts := by
      intro id member
      obtain ⟨plan, among, rfl⟩ := List.mem_map.mp member
      exact saved plan among
    rw [← plans.length_map (·.account.id)]
    exact (distinct.subperm inside).length_le
  refine ⟨saved, ?_, ?_⟩
  · intro posting member
    obtain ⟨plan, among, inside⟩ := List.mem_flatMap.mp member
    obtain ⟨account, -, isFor⟩ := AccountPlan.isFor_of_mem_plans planned among
    rw [isFor.onAccount posting inside, ← isFor.sameDebt.id]
    exact saved plan among
  · exact (length_flatMap_le each).trans (Nat.mul_le_mul_left 4 fewPlans)

end Engine

end PatronFees
