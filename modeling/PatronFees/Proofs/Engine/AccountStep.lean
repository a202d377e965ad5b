import PatronFees.Proofs.Engine.Call

namespace PatronFees

/-!
# What a call does to each account

A call on stores in range leaves an account and its history as they are, or it
carries out a plan for the account. Where a store refuses an entry, the first
postings of a refund may be recorded and the account stays as it was.
-/

namespace AccountPlan

/-- A plan for an account with a history that a check allows. -/
structure IsAllowed
    (scale : Nat)
    (kind : ActionKind)
    (history : List Posting)
    (account : Account)
    (plan : AccountPlan) : Prop where
  carriesOut :
    plan.CarriesOut scale kind account (unitsApplied kind plan.postings)
  /-- A closed account that owes nothing takes no action but refunds. -/
  owing :
    kind ≠ .refund →
      account.status = .closed → account.remaining.minorUnits ≠ 0
  /-- A refund gives back no more than was received and not yet refunded. -/
  refundable :
    kind = .refund →
      unitsApplied kind plan.postings + Refund.unitsRefunded history ≤
        Refund.unitsReceived history

section Postings

variable {plans : List AccountPlan} {id : AccountId}

/-- On an account that no plan is for, nothing is posted. -/
theorem postings_filter_of_forall_ne
    (onAccount :
      ∀ plan ∈ plans,
        ∀ posting ∈ plan.postings, posting.account = plan.account.id)
    (different : ∀ plan ∈ plans, plan.account.id ≠ id) :
    (plans.flatMap (·.postings)).filter (·.account == id) = [] := by
  rw [List.filter_eq_nil_iff]
  intro posting member
  obtain ⟨plan, among, inside⟩ := List.mem_flatMap.mp member
  rw [onAccount plan among posting inside, beq_iff_eq]
  exact different plan among

/-- On the account of a plan, the postings of the plan are posted. -/
theorem postings_filter_of_mem
    (onAccount :
      ∀ plan ∈ plans,
        ∀ posting ∈ plan.postings, posting.account = plan.account.id)
    (distinct : (plans.map (·.account.id)).Nodup)
    {plan : AccountPlan}
    (member : plan ∈ plans) :
    (plans.flatMap (·.postings)).filter (·.account == plan.account.id) =
      plan.postings := by
  induction plans with
  | nil =>
      cases member
  | cons first rest inductionHypothesis =>
      rw [List.map_cons, List.nodup_cons] at distinct
      have restOn :
          ∀ other ∈ rest,
            ∀ posting ∈ other.postings, posting.account = other.account.id :=
        fun other among => onAccount other (List.mem_cons_of_mem _ among)
      rw [List.flatMap_cons, List.filter_append]
      rcases List.mem_cons.mp member with rfl | among
      · have others :
            (rest.flatMap (·.postings)).filter
              (·.account == plan.account.id) = [] := by
          apply postings_filter_of_forall_ne restOn
          intro other inside same
          exact distinct.1 (same ▸ List.mem_map_of_mem inside)
        have own :
            plan.postings.filter (·.account == plan.account.id) =
              plan.postings := by
          rw [List.filter_eq_self]
          intro posting inside
          exact beq_iff_eq.mpr (onAccount plan List.mem_cons_self posting inside)
        rw [own, others, List.append_nil]
      · have others :
            first.postings.filter (·.account == plan.account.id) = [] := by
          rw [List.filter_eq_nil_iff]
          intro posting inside
          rw [onAccount first List.mem_cons_self posting inside, beq_iff_eq]
          intro same
          exact distinct.1 (same ▸ List.mem_map_of_mem among)
        rw [others, List.nil_append]
        exact inductionHypothesis restOn distinct.2 among

end Postings

end AccountPlan

/-- A call halted because a store refused to write. -/
def isStoreFailure : Outcome Receipt → Bool
  | .error (.failed (.store _)) => true
  | _ => false

/--
What a call that ended with an outcome did to an account with a history: the
account before, what was posted on it, and the account after.
-/
inductive AccountStep
    (outcome : Outcome Receipt)
    (scale : Nat)
    (kind : ActionKind)
    (history : List Posting) :
    Option Account → List Posting → Option Account → Prop where
  | untouched
      (account : Option Account) :
      AccountStep outcome scale kind history account [] account
  | carriedOut
      {account : Account}
      {plan : AccountPlan}
      (isAllowed : plan.IsAllowed scale kind history account) :
      AccountStep outcome scale kind history
        (some account) plan.postings (some plan.account)
  /-- A store refused the rest of the postings of a refund. -/
  | cutShort
      {account : Account}
      {plan : AccountPlan}
      {kept rest : List Posting}
      (failed : isStoreFailure outcome = true)
      (refunds : kind = .refund)
      (isAllowed : plan.IsAllowed scale kind history account)
      (split : plan.postings = kept ++ rest) :
      AccountStep outcome scale kind history (some account) kept (some account)

namespace Engine

variable {engine : Engine} {office after : Office} {kind : ActionKind}
  {accounts : List AccountId} {amount : Option String}
  {entries : List LedgerEntry} {reviewed : Reviewed} {plans : List AccountPlan}

/-- Every plan for a request is one that the check allows its account. -/
theorem isAllowed_of_mem
    (isRead : engine.IsReadFrom office kind accounts amount reviewed)
    (recorded : office.ledger = Ledger.ofEntries entries)
    (accepted : reviewed.IsAccepted kind engine.scale)
    (planned : reviewed.IsCarriedOutBy kind engine.scale plans)
    {plan : AccountPlan}
    (member : plan ∈ plans) :
    ∃ account,
      office.accounts.find? plan.account.id = some account ∧
        plan.IsAllowed engine.scale kind
          (postingsOn entries plan.account.id) account := by
  obtain ⟨named, account, found, carriesOut⟩ := planned.each plan member
  have inOffice : office.accounts.find? plan.account.id = some account :=
    (isRead.find?_eq named).symm.trans found
  refine ⟨account, inOffice, carriesOut, ?_, ?_⟩
  · intro notRefund
    apply accepted.accepts.owing (ActionKind.validation_ne_refunding notRefund)
    exact List.mem_filterMap.mpr ⟨_, named, found⟩
  · intro refunds
    have within := planned.refundable refunds plan member
    rw [refunds] at isRead
    rw [isRead.unitsReceived_historyOf recorded named,
      isRead.unitsRefunded_historyOf recorded named] at within
    exact within

/-- Every posting of a plan is on the account of the plan. -/
theorem onAccount_of_planned
    (planned : reviewed.IsCarriedOutBy kind engine.scale plans) :
    ∀ plan ∈ plans,
      ∀ posting ∈ plan.postings, posting.account = plan.account.id := by
  intro plan member posting inside
  obtain ⟨-, account, -, carriesOut⟩ := planned.each plan member
  exact (carriesOut.onAccount posting inside).trans carriesOut.sameDebt.id.symm

/-- What plans record on an account are their postings on it. -/
theorem postingsOn_entriesOf
    (office : Office)
    (plans : List AccountPlan)
    (id : AccountId) :
    postingsOn (entriesOf office plans) id =
      (plans.flatMap (·.postings)).filter (·.account == id) := by
  rw [postingsOn_eq, map_posting_entriesOf]

/-- A call that is carried out does so account by account. -/
theorem accountStep_of_carriedOut
    (isRead : engine.IsReadFrom office kind accounts amount reviewed)
    (recorded : office.ledger = Ledger.ofEntries entries)
    (accepted : reviewed.IsAccepted kind engine.scale)
    (planned : reviewed.IsCarriedOutBy kind engine.scale plans)
    (done : HasCarriedOut office plans after)
    (outcome : Outcome Receipt)
    (id : AccountId) :
    AccountStep outcome engine.scale kind (postingsOn entries id)
      (office.accounts.find? id)
      (postingsOn (entriesOf office plans) id)
      (after.accounts.find? id) := by
  have onAccount := onAccount_of_planned planned
  rw [postingsOn_entriesOf, done.accounts]
  by_cases isPlanned : ∃ plan ∈ plans, plan.account.id = id
  · obtain ⟨plan, member, rfl⟩ := isPlanned
    obtain ⟨account, found, isAllowed⟩ :=
      isAllowed_of_mem isRead recorded accepted planned member
    have saved :
        ((plans.map (·.account)).foldl AccountBook.save office.accounts).find?
            plan.account.id =
          some plan.account := by
      apply AccountBook.find?_saveAll_of_mem
      · rw [List.map_map]
        exact planned.distinct
      · exact List.mem_map_of_mem member
    rw [AccountPlan.postings_filter_of_mem onAccount planned.distinct member,
      saved, found]
    exact .carriedOut isAllowed
  · have different : ∀ plan ∈ plans, plan.account.id ≠ id :=
      fun plan member same => isPlanned ⟨plan, member, same⟩
    have unsaved :
        ((plans.map (·.account)).foldl AccountBook.save office.accounts).find? id =
          office.accounts.find? id := by
      apply AccountBook.find?_saveAll_of_forall_ne
      intro account member
      obtain ⟨plan, among, rfl⟩ := List.mem_map.mp member
      exact different plan among
    rw [AccountPlan.postings_filter_of_forall_ne onAccount different, unsaved]
    exact .untouched _

/--
A call for one account that is cut short records nothing, unless it is a
refund: every other action posts once.
-/
theorem accountStep_of_cutShort
    {kept rest : List LedgerEntry}
    {repeated : LedgerEntry}
    (isRead : engine.IsReadFrom office kind accounts amount reviewed)
    (recorded : office.ledger = Ledger.ofEntries entries)
    (accepted : reviewed.IsAccepted kind engine.scale)
    (planned : reviewed.IsCarriedOutBy kind engine.scale plans)
    (alone : plans.length ≤ 1)
    (split : entriesOf office plans = kept ++ repeated :: rest)
    {outcome : Outcome Receipt}
    (failed : isStoreFailure outcome = true)
    (id : AccountId) :
    AccountStep outcome engine.scale kind (postingsOn entries id)
      (office.accounts.find? id) (postingsOn kept id)
      (office.accounts.find? id) := by
  cases plans with
  | nil =>
      cases kept <;> cases split
  | cons plan others =>
      have none : others = [] := by
        rw [List.length_cons] at alone
        exact List.eq_nil_of_length_eq_zero (by omega)
      subst none
      obtain ⟨account, found, isAllowed⟩ :=
        isAllowed_of_mem isRead recorded accepted planned List.mem_cons_self
      have onAccount := onAccount_of_planned planned plan List.mem_cons_self
      have postings :
          plan.postings =
            kept.map (·.posting) ++ repeated.posting :: rest.map (·.posting) := by
        have mapped := congrArg (List.map (·.posting)) split
        rw [map_posting_entriesOf, List.flatMap_cons, List.flatMap_nil,
          List.append_nil, List.map_append, List.map_cons] at mapped
        exact mapped
      rw [postingsOn_eq kept]
      by_cases own : plan.account.id = id
      · subst own
        have all :
            (kept.map (·.posting)).filter (·.account == plan.account.id) =
              kept.map (·.posting) := by
          rw [List.filter_eq_self]
          intro posting member
          apply beq_iff_eq.mpr
          apply onAccount
          rw [postings]
          exact List.mem_append_left _ member
        rw [all, found]
        by_cases refunds : kind = .refund
        · exact .cutShort failed refunds isAllowed postings
        · -- There is one posting, and it is the one that was refused.
          have few := isAllowed.carriesOut.few
          rw [if_neg refunds, postings, List.length_append,
            List.length_cons] at few
          have nothing : kept.map (·.posting) = [] :=
            List.eq_nil_of_length_eq_zero (by omega)
          rw [nothing]
          exact .untouched _
      · have nothing :
            (kept.map (·.posting)).filter (·.account == id) = [] := by
          rw [List.filter_eq_nil_iff]
          intro posting member
          have inPlan : posting ∈ plan.postings := by
            rw [postings]
            exact List.mem_append_left _ member
          rw [onAccount posting inPlan, beq_iff_eq]
          exact own
        rw [nothing]
        exact .untouched _

/-- A call on stores in range records entries and takes a step on each account. -/
theorem perform_accountStep
    (engine : Engine)
    (call : Call)
    (recorded : office.ledger = Ledger.ofEntries entries)
    (owed : office.accounts.IsInRange engine.scale)
    (posted : ArePostedInRange engine.scale entries) :
    ∃ added,
      (office.run (engine.perform call)).2.ledger =
          Ledger.ofEntries (entries ++ added) ∧
        ∀ id,
          AccountStep (office.run (engine.perform call)).1 engine.scale
            call.kind (postingsOn entries id)
            (office.accounts.find? id) (postingsOn added id)
            ((office.run (engine.perform call)).2.accounts.find? id) := by
  have effect := perform_effect engine call recorded owed posted
  generalize office.run (engine.perform call) = ended at effect ⊢
  cases effect with
  | refused same =>
      refine ⟨[], ?_, fun id => ?_⟩
      · rw [List.append_nil, same.ledger, recorded]
      · rw [same.accounts]
        exact .untouched _
  | carriedOut isRead accepted planned done =>
      refine ⟨_, ?_, fun id =>
        accountStep_of_carriedOut isRead recorded accepted planned done _ id⟩
      rw [done.ledger, recorded, Ledger.ofEntries_append]
  | @cutShort _ _ kept _ _ _ _ isRead accepted planned alone split
      sameAccounts ledger =>
      refine ⟨kept, ?_, fun id => ?_⟩
      · rw [ledger, recorded, Ledger.ofEntries_append]
      · rw [sameAccounts]
        exact accountStep_of_cutShort isRead recorded accepted planned alone
          split rfl id

end Engine

end PatronFees
