import PatronFees.Proofs.Allocation.Split
import PatronFees.Proofs.Engine.Plan
import PatronFees.Proofs.Validation

namespace PatronFees.Reviewed

open List

/-!
# Accepted requests can be planned

The amount that a check allows was measured on all accounts together. It fits
into the room that they have one by one, so an accepted request always has a
plan, and its shares add up to what was allowed.
-/

/-- A request of a kind is in range and was accepted. -/
structure IsAccepted
    (kind : ActionKind)
    (scale : Nat)
    (reviewed : Reviewed) : Prop where
  distinct : reviewed.ids.Nodup
  covered : ∀ posting ∈ reviewed.history, posting.account ∈ reviewed.ids
  inRange : Validation.IsInRange scale reviewed.targets reviewed.history
  accepts :
    kind.validation.Accepts scale reviewed.ids reviewed.accounts
      reviewed.history reviewed.preview

/-- Plans carry out a request of a kind, account by account. -/
structure IsCarriedOutBy
    (kind : ActionKind)
    (scale : Nat)
    (reviewed : Reviewed)
    (plans : List AccountPlan) : Prop where
  each :
    ∀ plan ∈ plans,
      plan.account.id ∈ reviewed.ids ∧
        ∃ account,
          reviewed.accounts.find? plan.account.id = some account ∧
            plan.CarriesOut scale kind account
              (AccountPlan.unitsApplied kind plan.postings)
  distinct : (plans.map (·.account.id)).Nodup
  /-- No refund exceeds what was received and not yet refunded. -/
  refundable :
    kind = .refund →
      ∀ plan ∈ plans,
        AccountPlan.unitsApplied kind plan.postings +
            Refund.unitsRefunded (reviewed.historyOf plan.account.id) ≤
          Refund.unitsReceived (reviewed.historyOf plan.account.id)
  adds :
    (plans.map fun plan => AccountPlan.unitsApplied kind plan.postings).sum =
      reviewed.preview.allowed.minorUnits

/-- The most units that an action may take of an account. -/
def roomOf
    (kind : ActionKind)
    (reviewed : Reviewed)
    (account : Account) : Int :=
  if kind = .refund then
    Refund.unitsReceived (reviewed.historyOf account.id) -
      Refund.unitsRefunded (reviewed.historyOf account.id)
  else
    account.remaining.minorUnits

/-- A target for an account, with the room of the account. -/
structure IsTargetOf
    (kind : ActionKind)
    (scale : Nat)
    (reviewed : Reviewed)
    (account : Account)
    (target : Target) : Prop where
  account_eq : target.account = account.id
  scale_eq : target.capacity.scale = scale
  capacity_eq : target.capacity.minorUnits = reviewed.roomOf kind account

/-- A plan carries out the share of an account. -/
structure IsPlanOf
    (kind : ActionKind)
    (scale : Nat)
    (reviewed : Reviewed)
    (share : AccountId × Money)
    (plan : AccountPlan) : Prop where
  account_eq : plan.account.id = share.1
  named : share.1 ∈ reviewed.ids
  carriesOut :
    ∃ account,
      reviewed.accounts.find? share.1 = some account ∧
        plan.CarriesOut scale kind account share.2.minorUnits
  refundable :
    kind = .refund →
      share.2.minorUnits + Refund.unitsRefunded (reviewed.historyOf share.1) ≤
        Refund.unitsReceived (reviewed.historyOf share.1)

namespace IsAccepted

variable {kind : ActionKind} {scale : Nat} {reviewed : Reviewed}

/-- What is available is divided into what is allowed and what remains. -/
theorem divides
    (accepted : reviewed.IsAccepted kind scale) :
    reviewed.preview.allowed.minorUnits +
        reviewed.preview.remaining.minorUnits =
      Validation.unitsAvailable kind.validation reviewed.targets
        reviewed.history :=
  accepted.accepts.divides

/-- The accounts that take part have the identifiers of the request. -/
theorem ids_targets
    (accepted : reviewed.IsAccepted kind scale) :
    reviewed.targets.map (·.id) = reviewed.ids :=
  AccountBook.ids_findEach accepted.accepts.found

/-- An account that takes part is the one found under its identifier. -/
theorem find?_of_mem_targets
    {account : Account}
    (member : account ∈ reviewed.targets) :
    account.id ∈ reviewed.ids ∧
      reviewed.accounts.find? account.id = some account :=
  AccountBook.find?_of_mem_findEach member

/-- What is owed on an account that takes part is in range. -/
theorem owed_of_mem
    (accepted : reviewed.IsAccepted kind scale)
    {account : Account}
    (member : account ∈ reviewed.targets) :
    account.remaining.scale = scale ∧
      0 ≤ account.remaining.minorUnits ∧
      account.remaining.minorUnits < twoTo 95 := by
  have among : account.remaining ∈ reviewed.targets.map (·.remaining) :=
    List.mem_map_of_mem member
  obtain ⟨atScale, nonneg⟩ := accepted.inRange.owed _ among
  have within := accepted.inRange.owed.minorUnits_le among
  have owed_lt := accepted.inRange.owed_lt
  exact ⟨atScale, nonneg, by omega⟩

/-- The history of one account is in range. -/
theorem historyOf_inRange
    (accepted : reviewed.IsAccepted kind scale)
    (account : AccountId) :
    Refund.IsSound scale (reviewed.historyOf account) ∧
      Refund.unitsReceived (reviewed.historyOf account) < twoTo 95 ∧
      Refund.unitsRefunded (reviewed.historyOf account) < twoTo 95 := by
  have sound := accepted.inRange.posted
  have among : (reviewed.historyOf account).Sublist reviewed.history :=
    List.filter_sublist
  have receivedLe :
      Refund.unitsReceived (reviewed.historyOf account) ≤
        Refund.unitsReceived reviewed.history :=
    Refund.unitsPosted_le_of_sublist sound among
  have refundedLe :
      Refund.unitsRefunded (reviewed.historyOf account) ≤
        Refund.unitsRefunded reviewed.history :=
    Refund.unitsPosted_le_of_sublist sound among
  have received_lt := accepted.inRange.received_lt
  have refunded_lt := accepted.inRange.refunded_lt
  exact ⟨sound.of_sublist among, by omega, by omega⟩

/-- The histories of the accounts come together to the whole history. -/
theorem sum_unitsPosted_historyOf
    (accepted : reviewed.IsAccepted kind scale)
    (kinds : List ActionKind) :
    (reviewed.targets.map fun account =>
        Refund.unitsPosted kinds (reviewed.historyOf account.id)).sum =
      Refund.unitsPosted kinds reviewed.history := by
  rw [← Refund.sum_unitsPosted accepted.distinct accepted.covered,
    ← accepted.ids_targets, List.map_map]
  rfl

/-- The room of the accounts comes together to what is available. -/
theorem sum_roomOf
    (accepted : reviewed.IsAccepted kind scale) :
    (reviewed.targets.map (reviewed.roomOf kind)).sum =
      Validation.unitsAvailable kind.validation reviewed.targets
        reviewed.history := by
  by_cases refunds : kind = .refund
  · subst refunds
    have received := accepted.sum_unitsPosted_historyOf [.pay, .transfer]
    have refunded := accepted.sum_unitsPosted_historyOf [.refund]
    have together :
        (reviewed.targets.map (reviewed.roomOf .refund)).sum +
            (reviewed.targets.map fun account =>
              Refund.unitsPosted [.refund] (reviewed.historyOf account.id)).sum =
          (reviewed.targets.map fun account =>
            Refund.unitsPosted [.pay, .transfer]
              (reviewed.historyOf account.id)).sum := by
      rw [← List.sum_map_add]
      congr 2
      funext account
      exact Int.sub_add_cancel _ _
    have rules : ActionKind.refund.validation = .refunding := rfl
    rw [Validation.unitsAvailable, if_pos rules]
    change _ =
      Refund.unitsPosted [.pay, .transfer] reviewed.history -
        Refund.unitsPosted [.refund] reviewed.history
    omega
  · rw [Validation.unitsAvailable,
      if_neg (ActionKind.validation_ne_refunding refunds), Money.unitsOf,
      List.map_map]
    congr 2
    funext account
    exact if_neg refunds

/-- Every account that takes part is a target with its room. -/
theorem target_eq
    (accepted : reviewed.IsAccepted kind scale)
    {account : Account}
    (member : account ∈ reviewed.targets) :
    ∃ target,
      AccountPlan.target kind reviewed scale account = .ok target ∧
        reviewed.IsTargetOf kind scale account target := by
  rw [AccountPlan.target]
  split
  next refunds =>
    have double : twoTo 96 = 2 * twoTo 95 := twoTo_succ 95
    obtain ⟨sound, received_lt, refunded_lt⟩ :=
      accepted.historyOf_inRange account.id
    obtain ⟨refundable, replayed, refundableScale, refundableUnits⟩ :=
      Refund.refundable_eq accepted.inRange.capped sound
        (by omega) (by omega)
    refine ⟨⟨account.id, refundable, account.createdAt⟩, ?_, rfl,
      refundableScale, ?_⟩
    · simp only [replayed, Outcome.ok_bind, Outcome.pure_eq]
    · rw [roomOf, if_pos refunds]
      exact refundableUnits
  next settles =>
    exact ⟨Target.ofRemaining account, rfl, rfl,
      (accepted.owed_of_mem member).1, (if_neg settles).symm⟩

/-- A cancellation is carried out on every account over all that is owed. -/
theorem cancelling_isCarriedOut
    (accepted : reviewed.IsAccepted .cancel scale)
    (options : ActionOptions) :
    reviewed.IsCarriedOutBy .cancel scale
      (reviewed.targets.map fun account =>
        AccountPlan.cancelling account scale options) := by
  have carriesOut :
      ∀ account ∈ reviewed.targets,
        (AccountPlan.cancelling account scale options).CarriesOut scale .cancel
          account account.remaining.minorUnits := by
    intro account member
    obtain ⟨atScale, nonneg, -⟩ := accepted.owed_of_mem member
    exact AccountPlan.cancelling_carriesOut accepted.inRange.capped atScale
      nonneg options
  have sameIds :
      ∀ account : Account,
        (AccountPlan.cancelling account scale options).account.id = account.id :=
    fun account => (account.isSameDebt_apply _ _).id
  refine
    { each := ?_
      distinct := ?_
      refundable := fun other => by cases other
      adds := ?_ }
  · intro plan member
    obtain ⟨account, among, rfl⟩ := List.mem_map.mp member
    obtain ⟨named, found⟩ := find?_of_mem_targets among
    rw [sameIds]
    refine ⟨named, account, found, ?_⟩
    rw [(carriesOut account among).applies]
    exact carriesOut account among
  · rw [List.map_map]
    have ids :
        reviewed.targets.map
            ((·.account.id) ∘ fun account =>
              AccountPlan.cancelling account scale options) =
          reviewed.ids := by
      rw [← accepted.ids_targets]
      exact List.map_congr_left fun account _ => sameIds account
    rw [ids]
    exact accepted.distinct
  · have divides := accepted.divides
    have whole := accepted.accepts.whole rfl
    have available := accepted.sum_roomOf
    rw [List.map_map]
    have taken :
        (reviewed.targets.map
            ((fun plan => AccountPlan.unitsApplied .cancel plan.postings) ∘
              fun account => AccountPlan.cancelling account scale options)) =
          reviewed.targets.map (reviewed.roomOf .cancel) :=
      List.map_congr_left fun account member => (carriesOut account member).applies
    rw [taken, available]
    omega

section Targets

variable {targets : List Target}

/-- The targets are for the accounts of the request, in its order. -/
theorem accounts_eq_of_related
    (accepted : reviewed.IsAccepted kind scale)
    (related :
      Forall₂ (reviewed.IsTargetOf kind scale) reviewed.targets targets) :
    targets.map (·.account) = reviewed.ids := by
  rw [← accepted.ids_targets]
  exact map_eq_map_of_forall₂
    (related.imp fun _ _ relation => relation.account_eq)

/-- Together the targets have enough room for what was allowed. -/
theorem allowed_le_positiveRoom
    (accepted : reviewed.IsAccepted kind scale)
    (related :
      Forall₂ (reviewed.IsTargetOf kind scale) reviewed.targets targets) :
    reviewed.preview.allowed.minorUnits ≤ Allocation.positiveRoom targets := by
  have rooms :
      targets.map (·.capacity.minorUnits) =
        reviewed.targets.map (reviewed.roomOf kind) :=
    map_eq_map_of_forall₂ (related.imp fun _ _ relation => relation.capacity_eq)
  have divides := accepted.divides
  have nonneg := accepted.accepts.remaining_nonneg
  calc
    reviewed.preview.allowed.minorUnits
      ≤ Validation.unitsAvailable kind.validation reviewed.targets
          reviewed.history := by
        omega
    _ = Allocation.unitsOfRoom targets := by
        rw [← accepted.sum_roomOf, ← rooms]
        rfl
    _ ≤ Allocation.positiveRoom targets :=
        Allocation.unitsOfRoom_le_positiveRoom targets

/--
Targets have no more room than is owed, or for refunds than was received: an
account that gave back more than it received has none.
-/
theorem positiveRoom_lt
    (accepted : reviewed.IsAccepted kind scale)
    (related :
      Forall₂ (reviewed.IsTargetOf kind scale) reviewed.targets targets) :
    Allocation.positiveRoom targets < twoTo 95 := by
  by_cases refunds : kind = .refund
  · subst refunds
    have bounded :
        Allocation.positiveRoom targets ≤
          (targets.map fun target =>
            Refund.unitsReceived (reviewed.historyOf target.account)).sum := by
      apply Allocation.positiveRoom_le
      intro target member
      obtain ⟨account, -, relation⟩ := exists_of_forall₂ related member
      have sound := (accepted.historyOf_inRange target.account).1
      have received := sound.unitsReceived_nonneg
      have refunded := sound.unitsRefunded_nonneg
      have capacity := relation.capacity_eq
      rw [roomOf, if_pos rfl, ← relation.account_eq] at capacity
      exact ⟨received, by omega⟩
    have all :
        (targets.map fun target =>
            Refund.unitsReceived (reviewed.historyOf target.account)).sum =
          Refund.unitsReceived reviewed.history := by
      have perId :
          (targets.map fun target =>
              Refund.unitsReceived (reviewed.historyOf target.account)) =
            (targets.map (·.account)).map fun id =>
              Refund.unitsReceived (reviewed.historyOf id) := by
        rw [List.map_map]
        rfl
      rw [perId, accepted.accounts_eq_of_related related,
        ← accepted.ids_targets, List.map_map]
      exact accepted.sum_unitsPosted_historyOf [.pay, .transfer]
    have received_lt := accepted.inRange.received_lt
    omega
  · have bounded :
        Allocation.positiveRoom targets ≤
          (targets.map (·.capacity.minorUnits)).sum := by
      apply Allocation.positiveRoom_le
      intro target member
      obtain ⟨account, among, relation⟩ := exists_of_forall₂ related member
      have capacity := relation.capacity_eq
      rw [roomOf, if_neg refunds] at capacity
      have nonneg := (accepted.owed_of_mem among).2.1
      exact ⟨by omega, Int.le_refl _⟩
    have owed :
        targets.map (·.capacity.minorUnits) =
          reviewed.targets.map (·.remaining.minorUnits) := by
      apply map_eq_map_of_forall₂
      refine related.imp fun account target relation => ?_
      rw [relation.capacity_eq, roomOf, if_neg refunds]
    have owed_lt := accepted.inRange.owed_lt
    rw [Money.unitsOf, List.map_map] at owed_lt
    rw [owed] at bounded
    exact Int.lt_of_le_of_lt bounded owed_lt

/-- The share of a target can be planned. -/
theorem ofShare_isPlanOf
    (accepted : reviewed.IsAccepted kind scale)
    (related :
      Forall₂ (reviewed.IsTargetOf kind scale) reviewed.targets targets)
    (options : ActionOptions)
    {share : AccountId × Money}
    (within :
      ∃ target ∈ targets,
        target.account = share.1 ∧
          share.2.scale = scale ∧
          0 < share.2.minorUnits ∧
          share.2.minorUnits ≤ target.capacity.minorUnits) :
    ∃ plan,
      AccountPlan.ofShare kind reviewed options share = .ok plan ∧
        reviewed.IsPlanOf kind scale share plan := by
  obtain ⟨target, member, sameAccount, shareScale, positive, fits⟩ := within
  obtain ⟨account, among, relation⟩ := exists_of_forall₂ related member
  obtain ⟨named, found⟩ := find?_of_mem_targets among
  obtain ⟨atScale, nonneg, inRange⟩ := accepted.owed_of_mem among
  have sameId : account.id = share.1 :=
    relation.account_eq.symm.trans sameAccount
  rw [relation.capacity_eq] at fits
  rw [sameId] at named found
  simp only [AccountPlan.ofShare, found]
  split
  next refunds =>
    subst refunds
    rw [roomOf, if_pos rfl, sameId] at fits
    obtain ⟨sound, received_lt, -⟩ := accepted.historyOf_inRange share.1
    have refunded := sound.unitsRefunded_nonneg
    obtain ⟨plan, planned, carriesOut⟩ :=
      AccountPlan.refunding_carriesOut sound received_lt atScale nonneg
        inRange shareScale positive (by omega) options
    exact ⟨plan, planned,
      { account_eq := carriesOut.sameDebt.id.trans sameId
        named := named
        carriesOut := ⟨account, found, carriesOut⟩
        refundable := fun _ => by omega }⟩
  next settles =>
    rw [roomOf, if_neg settles] at fits
    obtain ⟨plan, planned, carriesOut⟩ :=
      AccountPlan.settling_carriesOut settles atScale inRange shareScale
        (by omega) fits options
    exact ⟨plan, planned,
      { account_eq := carriesOut.sameDebt.id.trans sameId
        named := named
        carriesOut := ⟨account, found, carriesOut⟩
        refundable := fun refunds => (settles refunds).elim }⟩

/-- Plans of the shares of an allocation carry out the request. -/
theorem isCarriedOut_of_distributes
    {allocation : Allocation}
    {plans : List AccountPlan}
    (distributes : allocation.Distributes reviewed.preview.allowed targets)
    (planned :
      Forall₂ (reviewed.IsPlanOf kind scale) allocation.shares plans) :
    reviewed.IsCarriedOutBy kind scale plans := by
  have ids : plans.map (·.account.id) = allocation.shares.map Prod.fst :=
    map_eq_map_of_forall₂ (planned.imp fun _ _ plan => plan.account_eq)
  have units :
      (plans.map fun plan => AccountPlan.unitsApplied kind plan.postings) =
        allocation.shares.map (·.2.minorUnits) := by
    apply map_eq_map_of_forall₂
    refine planned.imp fun share plan isPlan => ?_
    obtain ⟨account, -, carriesOut⟩ := isPlan.carriesOut
    exact carriesOut.applies
  refine
    { each := ?_
      distinct := ids ▸ distributes.once
      refundable := ?_
      adds := ?_ }
  · intro plan member
    obtain ⟨share, -, isPlan⟩ := exists_of_forall₂ planned member
    obtain ⟨account, found, carriesOut⟩ := isPlan.carriesOut
    rw [isPlan.account_eq, carriesOut.applies]
    exact ⟨isPlan.named, account, found, carriesOut⟩
  · intro refunds plan member
    obtain ⟨share, -, isPlan⟩ := exists_of_forall₂ planned member
    obtain ⟨account, -, carriesOut⟩ := isPlan.carriesOut
    rw [carriesOut.applies, isPlan.account_eq]
    exact isPlan.refundable refunds
  · rw [units, ← distributes.adds, Money.unitsOf, List.map_map]
    rfl

end Targets

/-- An accepted request has plans that carry it out. -/
theorem plans_carryOut
    (accepted : reviewed.IsAccepted kind scale)
    (options : ActionOptions) :
    ∃ plans,
      AccountPlan.plans kind reviewed scale options = .ok plans ∧
        reviewed.IsCarriedOutBy kind scale plans := by
  rw [AccountPlan.plans]
  split
  next cancels =>
    subst cancels
    exact ⟨_, rfl, accepted.cancelling_isCarriedOut options⟩
  next notCancel =>
    obtain ⟨targets, targeted, related⟩ :=
      Outcome.mapM_of_forall fun account member => accepted.target_eq member
    have positive :=
      accepted.accepts.positive
        (ActionKind.validation_ne_cancellation notCancel)
    have allowedScale := accepted.accepts.allowed_scale
    have room := accepted.allowed_le_positiveRoom related
    have room_lt := accepted.positiveRoom_lt related
    have double : twoTo 96 = 2 * twoTo 95 := twoTo_succ 95
    have nonempty : targets ≠ [] := by
      rintro rfl
      have nothing : Allocation.positiveRoom [] = 0 := rfl
      omega
    have distinct : (targets.map (·.account)).Nodup := by
      rw [accepted.accounts_eq_of_related related]
      exact accepted.distinct
    have sameScale :
        ∀ target ∈ targets,
          target.capacity.scale = reviewed.preview.allowed.scale := by
      intro target member
      obtain ⟨account, -, relation⟩ := exists_of_forall₂ related member
      exact relation.scale_eq.trans allowedScale.symm
    obtain ⟨allocation, split, distributes⟩ :=
      Allocation.split_distributes nonempty distinct sameScale room_lt
        (Money.hasAllDigits_of_lt (by omega)) (by omega) room
    obtain ⟨plans, planned, plansRelated⟩ :=
      Outcome.mapM_of_forall fun share member =>
        accepted.ofShare_isPlanOf related options
          (allowedScale ▸ distributes.within share member)
    refine ⟨plans, ?_, isCarriedOut_of_distributes distributes plansRelated⟩
    simp only [targeted, split, Outcome.ok_bind, planned]

end IsAccepted

end PatronFees.Reviewed
