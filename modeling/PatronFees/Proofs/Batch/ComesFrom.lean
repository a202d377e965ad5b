import PatronFees.Proofs.Batch.Telling
import PatronFees.Proofs.Table.Accounts

namespace PatronFees

/-!
# What accounts come from

Requests only change what is owed on an account and how it stands. Each account after
them comes from one before them: it is the same fee or fine, as legible as it was, it
owes an amount of the same scale, and it keeps its place in the order of identifiers.
-/

/-- The account is the same fee or fine as before, and as legible. -/
structure Account.ComesFrom (now before : Account) : Prop where
  sameDebt : now.IsSameDebt before
  legible : before.IsLegible → now.IsLegible

namespace Account.ComesFrom

theorem refl (account : Account) :
    account.ComesFrom account :=
  ⟨.refl account, fun legible => legible⟩

theorem trans
    {now between before : Account}
    (later : now.ComesFrom between)
    (earlier : between.ComesFrom before) :
    now.ComesFrom before :=
  ⟨later.sameDebt.trans earlier.sameDebt,
    fun legible => later.legible (earlier.legible legible)⟩

end Account.ComesFrom

/-- A label of a kind is legible. -/
theorem ActionKind.legible_of_ofLabel?
    {label : String}
    {kind : ActionKind}
    (named : ofLabel? label = some kind) :
    Text.trimmed label = label ∧ label ≠ "" := by
  have isLabel := List.find?_some named
  rw [Bool.or_eq_true, beq_iff_eq, beq_iff_eq] at isLabel
  rcases isLabel with rfl | rfl <;> cases kind <;> decide +kernel

/-- The label of a cancellation is legible, whatever its reason. -/
theorem AccountPlan.legible_cancellationLabel (options : ActionOptions) :
    Text.trimmed (cancellationLabel options) = cancellationLabel options ∧
      cancellationLabel options ≠ "" := by
  rw [cancellationLabel]
  cases given : options.reason.bind Text.nonBlank with
  | none =>
      decide +kernel
  | some label =>
      obtain ⟨reason, -, nonBlank⟩ := Option.bind_eq_some_iff.mp given
      exact Text.legible_of_nonBlank nonBlank

/-- A posting of an action has a legible label. -/
theorem Posting.IsLabelledFor.legible
    {kind : ActionKind}
    {options : ActionOptions}
    {posting : Posting}
    (labelled : posting.IsLabelledFor kind options) :
    Text.trimmed posting.actionType = posting.actionType ∧
      posting.actionType ≠ "" := by
  cases kind with
  | cancel =>
      have label : posting.actionType = AccountPlan.cancellationLabel options :=
        labelled
      rw [label]
      exact AccountPlan.legible_cancellationLabel options
  | refund =>
      rcases labelled with credit | refund
      · exact ActionKind.legible_of_ofLabel? credit
      · exact ActionKind.legible_of_ofLabel? refund
  | pay | waive | transfer | credit =>
      exact ActionKind.legible_of_ofLabel? labelled

/-- An account that is planned comes from the account that the plan is for. -/
theorem AccountPlan.IsFor.comesFrom
    {kind : ActionKind}
    {options : ActionOptions}
    {account : Account}
    {plan : AccountPlan}
    (isFor : plan.IsFor kind options account) :
    plan.account.ComesFrom account where
  sameDebt := isFor.sameDebt
  legible := by
    intro legible
    cases isLast : plan.postings.getLast? with
    | none =>
        rw [isFor.idle (List.getLast?_eq_none_iff.mp isLast)]
        exact legible
    | some last =>
        have label := (isFor.left last isLast).paymentStatus
        obtain ⟨trimmed, labelled⟩ :=
          (isFor.labelled last (List.mem_of_getLast? isLast)).legible
        exact
          { id := by rw [isFor.sameDebt.id, legible.id]
            user := by rw [isFor.sameDebt.user, legible.user]
            feeFineType := by rw [isFor.sameDebt.feeFineType, legible.feeFineType]
            paymentStatus := by rw [label, trimmed]
            labelled := by rwa [label] }

namespace Refund.Breakdown

/-- A step of a refund leaves a balance of the same scale. -/
theorem scale_of_balanceAfter
    {step : Step}
    {balance after : Money}
    (changed : step.balanceAfter balance = .ok after) :
    after.scale = balance.scale := by
  rw [Step.balanceAfter] at changed
  split at changed
  next => exact Money.scale_of_subtract changed
  next => exact Money.scale_of_add changed

theorem scale_of_postingsFrom
    {account : Account}
    {options : ActionOptions}
    {full : Bool}
    {balance : Money}
    {steps : List Step}
    {postings : List Posting}
    (posted : postingsFrom account options full balance steps = .ok postings) :
    ∀ posting ∈ postings, posting.balance.scale = balance.scale := by
  induction steps generalizing balance postings with
  | nil =>
      obtain rfl := Except.ok.inj posted
      exact fun _ nowhere => nomatch nowhere
  | cons step rest inductionHypothesis =>
      obtain ⟨after, changed, onward⟩ := Outcome.bind_eq_ok_iff.mp posted
      obtain ⟨later, postedRest, same⟩ := Outcome.bind_eq_ok_iff.mp onward
      obtain rfl := Except.ok.inj same
      have here := scale_of_balanceAfter changed
      intro posting member
      rcases List.mem_cons.mp member with rfl | inRest
      · exact here
      · exact (inductionHypothesis postedRest posting inRest).trans here

end Refund.Breakdown

namespace AccountPlan

variable {kind : ActionKind} {options : ActionOptions} {account : Account}
  {plan : AccountPlan}

theorem scale_of_settling
    {share : Money}
    (planned : settling kind account share options = .ok plan) :
    plan.account.remaining.scale = account.remaining.scale := by
  obtain ⟨remaining, subtracted, same⟩ := Outcome.bind_eq_ok_iff.mp planned
  obtain rfl := Except.ok.inj same
  exact (account.scale_remaining_apply _ _).trans
    (Money.scale_of_subtract subtracted)

theorem scale_of_refunding
    {history : List Posting}
    {share : Money}
    (planned : refunding account history share options = .ok plan) :
    plan.account.remaining.scale = account.remaining.scale := by
  obtain ⟨breakdown, -, onward⟩ := Outcome.bind_eq_ok_iff.mp planned
  obtain ⟨postings, posted, same⟩ := Outcome.bind_eq_ok_iff.mp onward
  cases isLast : postings.getLast? with
  | none =>
      rw [isLast] at same
      obtain rfl := Except.ok.inj same
      rfl
  | some last =>
      rw [isLast] at same
      obtain rfl := Except.ok.inj same
      exact (account.scale_remaining_apply _ _).trans
        (Refund.Breakdown.scale_of_postingsFrom posted last
          (List.mem_of_getLast? isLast))

/-- Planned accounts have the scale of the engine, if the accounts before have it. -/
theorem scale_of_mem_plans
    {reviewed : Reviewed}
    {scale : Nat}
    {plans : List AccountPlan}
    (capped : scale ≤ Money.maxScale)
    (atScale :
      ∀ id account,
        reviewed.accounts.find? id = some account →
          account.remaining.scale = scale)
    (planned : AccountPlan.plans kind reviewed scale options = .ok plans)
    (member : plan ∈ plans) :
    plan.account.remaining.scale = scale := by
  rw [AccountPlan.plans] at planned
  split at planned
  next =>
    obtain rfl := Except.ok.inj planned
    obtain ⟨account, -, rfl⟩ := List.mem_map.mp member
    exact (account.scale_remaining_apply _ _).trans (Nat.min_eq_left capped)
  next =>
    obtain ⟨targets, -, onward⟩ := Outcome.bind_eq_ok_iff.mp planned
    obtain ⟨allocation, -, each⟩ := Outcome.bind_eq_ok_iff.mp onward
    obtain ⟨share, -, ofShare⟩ :=
      exists_of_forall₂ (Outcome.mapM_eq_ok_iff.mp each) member
    rw [AccountPlan.ofShare] at ofShare
    split at ofShare
    next =>
      cases ofShare
    next account found =>
      have same := atScale _ account found
      split at ofShare
      next => exact (scale_of_refunding ofShare).trans same
      next => exact (scale_of_settling ofShare).trans same

end AccountPlan

/-- What is owed on the accounts of a book is at a scale. -/
def AccountBook.IsAtScale
    (scale : Nat)
    (book : AccountBook) : Prop :=
  ∀ account ∈ book.accounts, account.remaining.scale = scale

/-- The accounts of the books once plans are carried out. -/
theorem Books.accounts_carryingOut
    (books : Books)
    (plans : List AccountPlan) :
    (books.carryingOut plans).accounts =
      (plans.map (·.account)).foldl AccountBook.save books.accounts := by
  rw [carryingOut]
  change _ = List.foldl AccountBook.save
    (books.post (plans.flatMap (·.postings))).accounts (plans.map (·.account))
  generalize books.post (plans.flatMap (·.postings)) = posted
  induction plans.map (·.account) generalizing posted with
  | nil => rfl
  | cons account rest inductionHypothesis =>
      exact inductionHypothesis (posted.save account)

namespace Engine

variable {engine : Engine} {books after : Books} {request : ActionRequest}
  {requests : List ActionRequest} {told : Told} {tolds : List Told}

/-- What a review finds is among the accounts of the books. -/
theorem mem_of_reviewOn
    {kind : ActionKind}
    {accounts : List AccountId}
    {amount : Option String}
    {reviewed : Reviewed}
    {id : AccountId}
    {account : Account}
    (accepted : engine.reviewOn books kind accounts amount = .ok reviewed)
    (found : reviewed.accounts.find? id = some account) :
    account ∈ books.accounts.accounts := by
  rw [reviewOn] at accepted
  split at accepted
  next =>
    obtain ⟨preview, -, rest⟩ := Outcome.bind_eq_ok_iff.mp accepted
    obtain rfl := Except.ok.inj rest
    rw [AccountBook.find?_only] at found
    split at found
    next => exact AccountBook.mem_of_find? found
    next => cases found
  next =>
    cases accepted

/-- An account after a request was one before it. -/
theorem comesFrom_of_tell
    (tells : engine.tell books request = .ok (told, after))
    {now : Account}
    (member : now ∈ after.accounts.accounts) :
    ∃ before ∈ books.accounts.accounts, now.ComesFrom before := by
  rcases tell_eq_ok.mp tells with ⟨plans, planned, -, rfl⟩ | ⟨failure, -, -, rfl⟩
  · rw [Books.accounts_carryingOut] at member
    rcases AccountBook.mem_saveAll member with saved | kept
    · obtain ⟨plan, among, rfl⟩ := List.mem_map.mp saved
      obtain ⟨reviewed, accepted, planned⟩ := Outcome.bind_eq_ok_iff.mp planned
      obtain ⟨before, found, isFor⟩ :=
        AccountPlan.isFor_of_mem_plans planned among
      exact ⟨before, mem_of_reviewOn accepted found, isFor.comesFrom⟩
    · exact ⟨now, kept, .refl now⟩
  · exact ⟨now, member, .refl now⟩

/-- What each request keeps, requests keep that follow one another. -/
theorem holds_of_tellAll
    {Holds : Books → Prop}
    (keeps :
      ∀ {books after : Books} {request : ActionRequest} {told : Told},
        Holds books →
          engine.tell books request = .ok (told, after) → Holds after)
    (start : Holds books)
    (tells : engine.tellAll books requests = .ok (tolds, after)) :
    Holds after := by
  induction requests generalizing books tolds with
  | nil =>
      obtain ⟨-, rfl⟩ := Prod.mk.inj (Except.ok.inj tells)
      exact start
  | cons request rest inductionHypothesis =>
      obtain ⟨told, between, others, first, later, -⟩ := tellAll_cons_eq_ok.mp tells
      exact inductionHypothesis (keeps start first) later

/-- An account after some requests was one before them. -/
theorem comesFrom_of_tellAll
    (tells : engine.tellAll books requests = .ok (tolds, after)) :
    ∀ now ∈ after.accounts.accounts,
      ∃ before ∈ books.accounts.accounts, now.ComesFrom before := by
  apply holds_of_tellAll _ _ tells
  · intro between after request told comesFrom first now member
    obtain ⟨middle, inBetween, behind⟩ := comesFrom_of_tell first member
    obtain ⟨before, inBooks, ahead⟩ := comesFrom middle inBetween
    exact ⟨before, inBooks, behind.trans ahead⟩
  · exact fun now member => ⟨now, member, .refl now⟩

/-- A request keeps the accounts in the order of their identifiers. -/
theorem isOrdered_of_tell
    (ordered : books.accounts.IsOrdered)
    (tells : engine.tell books request = .ok (told, after)) :
    after.accounts.IsOrdered := by
  rcases tell_eq_ok.mp tells with ⟨plans, -, -, rfl⟩ | ⟨failure, -, -, rfl⟩
  · rw [Books.accounts_carryingOut]
    exact ordered.saveAll _
  · exact ordered

theorem isOrdered_of_tellAll
    (ordered : books.accounts.IsOrdered)
    (tells : engine.tellAll books requests = .ok (tolds, after)) :
    after.accounts.IsOrdered :=
  holds_of_tellAll (fun kept first => isOrdered_of_tell kept first) ordered tells

/-- A request leaves amounts at the scale of the engine, if they are at it before. -/
theorem isAtScale_of_tell
    (atScale : books.accounts.IsAtScale engine.scale)
    (tells : engine.tell books request = .ok (told, after)) :
    after.accounts.IsAtScale engine.scale := by
  rcases tell_eq_ok.mp tells with ⟨plans, planned, -, rfl⟩ | ⟨failure, -, -, rfl⟩
  · intro account member
    rw [Books.accounts_carryingOut] at member
    rcases AccountBook.mem_saveAll member with saved | kept
    · obtain ⟨plan, among, rfl⟩ := List.mem_map.mp saved
      obtain ⟨reviewed, accepted, planned⟩ := Outcome.bind_eq_ok_iff.mp planned
      exact AccountPlan.scale_of_mem_plans engine.scale_le
        (fun _ before found => atScale before (mem_of_reviewOn accepted found))
        planned among
    · exact atScale account kept
  · exact atScale

theorem isAtScale_of_tellAll
    (atScale : books.accounts.IsAtScale engine.scale)
    (tells : engine.tellAll books requests = .ok (tolds, after)) :
    after.accounts.IsAtScale engine.scale :=
  holds_of_tellAll (fun kept first => isAtScale_of_tell kept first) atScale tells

end Engine

end PatronFees
