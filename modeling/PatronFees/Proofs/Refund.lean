import PatronFees.Proofs.Lists
import PatronFees.Proofs.Money.Arithmetic
import PatronFees.Proofs.Outcome
import PatronFees.Proofs.Posting
import PatronFees.Refund

namespace PatronFees.Refund

open List

/-!
# Refunds are exact

What a history received and refunded are sums of its postings by their labels.
While they are in range the refundable amount is their exact difference, and a
refund of no more than was received divides exactly and leads the balance back
to where it started.
-/

/-- The units of a posting, counted if its label is of one of the kinds. -/
def unitsAs
    (kinds : List ActionKind)
    (posting : Posting) : Int :=
  if kinds.any fun kind => posting.kind? == some kind then
    posting.amount.minorUnits
  else
    0

/-- The units of all postings of the kinds. -/
def unitsPosted
    (kinds : List ActionKind)
    (history : List Posting) : Int :=
  (history.map (unitsAs kinds)).sum

/-- The units that were paid and transferred. -/
def unitsReceived (history : List Posting) : Int :=
  unitsPosted [.pay, .transfer] history

/-- The units that were refunded. -/
def unitsRefunded (history : List Posting) : Int :=
  unitsPosted [.refund] history

/-- The amounts of a history are at a scale and zero or more. -/
def IsSound
    (scale : Nat)
    (history : List Posting) : Prop :=
  Money.AreSound scale (history.map (·.amount))

/-- Some of sound postings are sound. -/
theorem IsSound.of_sublist
    {scale : Nat}
    {some history : List Posting}
    (sound : IsSound scale history)
    (among : some.Sublist history) :
    IsSound scale some :=
  sound.of_subset (among.map _).subset

/-- Sound postings after others are sound. -/
theorem IsSound.append
    {scale : Nat}
    {first second : List Posting}
    (firstSound : IsSound scale first)
    (secondSound : IsSound scale second) :
    IsSound scale (first ++ second) := by
  rw [IsSound, List.map_append]
  exact Money.AreSound.append firstSound secondSound

section Sums

variable {kinds : List ActionKind} {scale : Nat}
  {history : List Posting}

theorem unitsPosted_append
    (kinds : List ActionKind)
    (first second : List Posting) :
    unitsPosted kinds (first ++ second) =
      unitsPosted kinds first + unitsPosted kinds second := by
  simp [unitsPosted]

theorem unitsReceived_append (first second : List Posting) :
    unitsReceived (first ++ second) =
      unitsReceived first + unitsReceived second :=
  unitsPosted_append _ first second

theorem unitsRefunded_append (first second : List Posting) :
    unitsRefunded (first ++ second) =
      unitsRefunded first + unitsRefunded second :=
  unitsPosted_append _ first second

/-- The sum of the amounts of the kinds counts the postings of the kinds. -/
theorem unitsOf_amounts
    (kinds : List ActionKind)
    (history : List Posting) :
    Money.unitsOf
        ((history.filter fun posting =>
          kinds.any fun kind => posting.kind? == some kind).map (·.amount)) =
      unitsPosted kinds history := by
  induction history with
  | nil =>
      rfl
  | cons posting rest inductionHypothesis =>
      simp only [Money.unitsOf, unitsPosted, List.map_cons, List.sum_cons]
        at inductionHypothesis ⊢
      rw [List.filter_cons, unitsAs, ← inductionHypothesis]
      split
      · simp
      · simp

/-- What was received was paid or transferred. -/
theorem unitsReceived_eq (history : List Posting) :
    unitsReceived history =
      unitsPosted [.pay] history + unitsPosted [.transfer] history := by
  induction history with
  | nil =>
      rfl
  | cons posting rest inductionHypothesis =>
      simp only [unitsReceived, unitsPosted, List.map_cons, List.sum_cons]
        at inductionHypothesis ⊢
      have counted :
          unitsAs [.pay, .transfer] posting =
            unitsAs [.pay] posting + unitsAs [.transfer] posting := by
        by_cases pays : posting.kind? = some .pay
        · simp [unitsAs, pays]
        · simp [unitsAs, pays]
      omega

/-- A sound posting counts for no less than nothing and no more than it posts. -/
theorem unitsAs_between
    {posting : Posting}
    (nonneg : 0 ≤ posting.amount.minorUnits) :
    0 ≤ unitsAs kinds posting ∧
      unitsAs kinds posting ≤ posting.amount.minorUnits := by
  rw [unitsAs]
  split <;> omega

/-- Sound postings count for no less than nothing. -/
theorem unitsPosted_nonneg
    (sound : IsSound scale history) :
    0 ≤ unitsPosted kinds history := by
  apply List.sum_nonneg
  intro units member
  obtain ⟨posting, among, rfl⟩ := List.mem_map.mp member
  exact (unitsAs_between (sound _ (List.mem_map_of_mem among)).2).1

theorem IsSound.unitsReceived_nonneg
    (sound : IsSound scale history) :
    0 ≤ unitsReceived history :=
  unitsPosted_nonneg sound

theorem IsSound.unitsRefunded_nonneg
    (sound : IsSound scale history) :
    0 ≤ unitsRefunded history :=
  unitsPosted_nonneg sound

/-- Sound postings count for no more than they post. -/
theorem unitsPosted_le
    (sound : IsSound scale history) :
    unitsPosted kinds history ≤ Money.unitsOf (history.map (·.amount)) := by
  rw [Money.unitsOf, List.map_map]
  apply List.sum_le_sum
  intro posting member
  exact (unitsAs_between (sound _ (List.mem_map_of_mem member)).2).2

/-- Some of sound postings count for no more than all. -/
theorem unitsPosted_le_of_sublist
    (sound : IsSound scale history)
    {some : List Posting}
    (among : some.Sublist history) :
    unitsPosted kinds some ≤ unitsPosted kinds history := by
  apply (among.map _).sum_le_sum
  intro units member
  obtain ⟨posting, inside, rfl⟩ := List.mem_map.mp member
  exact (unitsAs_between (sound _ (List.mem_map_of_mem inside)).2).1

/-- Postings of a refund receive nothing. -/
theorem unitsReceived_eq_zero
    {postings : List Posting}
    (kinds :
      ∀ posting ∈ postings,
        posting.kind? = some .credit ∨ posting.kind? = some .refund) :
    unitsReceived postings = 0 := by
  apply List.sum_eq_zero
  intro units member
  obtain ⟨posting, among, rfl⟩ := List.mem_map.mp member
  rcases kinds posting among with credits | refunds
  · simp [unitsAs, credits]
  · simp [unitsAs, refunds]

/-- Postings that do not count can be left out. -/
theorem unitsPosted_filter
    {keep : Posting → Bool}
    (uncounted : ∀ posting, keep posting = false → unitsAs kinds posting = 0) :
    unitsPosted kinds (history.filter keep) = unitsPosted kinds history := by
  induction history with
  | nil =>
      rfl
  | cons posting rest inductionHypothesis =>
      simp only [unitsPosted, List.filter_cons, List.map_cons, List.sum_cons]
        at inductionHypothesis ⊢
      cases kept : keep posting with
      | false =>
          simp [uncounted posting kept, inductionHypothesis]
      | true =>
          simp [inductionHypothesis]

/-- Histories of accounts count together what is posted on the accounts. -/
theorem sum_unitsPosted
    {accounts : List AccountId}
    (distinct : accounts.Nodup)
    (covered : ∀ posting ∈ history, posting.account ∈ accounts) :
    (accounts.map fun account =>
        unitsPosted kinds (history.filter (·.account == account))).sum =
      unitsPosted kinds history := by
  have all : history.filter (accounts.contains <| ·.account) = history := by
    rw [List.filter_eq_self]
    intro posting member
    exact List.contains_iff_mem.mpr (covered posting member)
  have together :=
    sum_map_filter (fun posting : Posting => posting.account) (unitsAs kinds)
      history distinct
  rw [all] at together
  exact together

/-- The sum over some kinds is exact while it is in range. -/
theorem sumOf_eq
    (capped : scale ≤ Money.maxScale)
    (sound : IsSound scale history)
    (inRange : unitsPosted kinds history < twoTo 96) :
    ∃ sum,
      sumOf history kinds scale = .ok sum ∧
        sum.scale = scale ∧
        sum.minorUnits = unitsPosted kinds history := by
  rw [← unitsOf_amounts] at inRange ⊢
  exact Money.sum_eq capped
    (sound.of_subset (List.filter_sublist.map _).subset) inRange

/-- What is refundable is what was received less what was refunded. -/
theorem refundable_eq
    (capped : scale ≤ Money.maxScale)
    (sound : IsSound scale history)
    (receivedIn : unitsReceived history < twoTo 96)
    (refundedIn : unitsRefunded history < twoTo 96) :
    ∃ left,
      refundable history scale = .ok left ∧
        left.scale = scale ∧
        left.minorUnits = unitsReceived history - unitsRefunded history := by
  have receivedNonneg := sound.unitsReceived_nonneg
  have refundedNonneg := sound.unitsRefunded_nonneg
  obtain ⟨taken, takenSum, takenScale, takenUnits⟩ :=
    sumOf_eq capped sound receivedIn
  obtain ⟨given, givenSum, givenScale, givenUnits⟩ :=
    sumOf_eq capped sound refundedIn
  rw [← unitsReceived] at takenUnits
  rw [← unitsRefunded] at givenUnits
  obtain ⟨left, subtracted, leftScale, leftUnits⟩ :=
    Money.subtract_eq (givenScale.trans takenScale.symm)
      (by omega) (by omega) (by omega)
  refine ⟨left, ?_, leftScale.trans takenScale, by omega⟩
  simp only [refundable, takenSum, givenSum, Outcome.ok_bind, subtracted]

/-- Only an overflow keeps a history from being added up. -/
theorem halt_of_refundable
    {halt : Halt}
    (halted : refundable history scale = .error halt) :
    ∃ operation, halt = .overflow operation := by
  rw [refundable] at halted
  cases received : sumOf history [.pay, .transfer] scale with
  | error first =>
      rw [received] at halted
      obtain rfl := Except.error.inj halted
      exact ⟨_, Money.halt_of_foldlM_add received⟩
  | ok receivedSum =>
      rw [received, Outcome.ok_bind] at halted
      cases refunded : sumOf history [.refund] scale with
      | error second =>
          rw [refunded] at halted
          obtain rfl := Except.error.inj halted
          exact ⟨_, Money.halt_of_foldlM_add refunded⟩
      | ok refundedSum =>
          rw [refunded, Outcome.ok_bind, Money.subtract] at halted
          split at halted
          next =>
            cases halted
          next =>
            exact ⟨_, (Except.error.inj halted).symm⟩

end Sums

namespace Breakdown

/-- A breakdown divides a share into payments and transfers. -/
structure Divides
    (scale : Nat)
    (share : Int)
    (breakdown : Breakdown) : Prop where
  payments_scale : breakdown.forPayments.scale = scale
  transfers_scale : breakdown.forTransfers.scale = scale
  payments_nonneg : 0 ≤ breakdown.forPayments.minorUnits
  transfers_nonneg : 0 ≤ breakdown.forTransfers.minorUnits
  adds :
    breakdown.forPayments.minorUnits + breakdown.forTransfers.minorUnits = share

/--
A breakdown knows what was paid and received, and gives back payments first and
transfers with what is left of the share.
-/
structure IsOf
    (history : List Posting)
    (share : Money)
    (breakdown : Breakdown) : Prop where
  payments_scale : breakdown.forPayments.scale = share.scale
  transfers_scale : breakdown.forTransfers.scale = share.scale
  paid : breakdown.paid.minorUnits = unitsPosted [.pay] history
  received : breakdown.received.minorUnits = unitsReceived history
  payments :
    breakdown.forPayments.minorUnits =
      min share.minorUnits (unitsPosted [.pay] history)
  adds :
    breakdown.forPayments.minorUnits + breakdown.forTransfers.minorUnits =
      share.minorUnits
  isFull :
    breakdown.isFull = true ↔ unitsReceived history ≤ share.minorUnits

/-- What was received is broken down exactly while it is in range. -/
theorem calculate_isOf
    {history : List Posting}
    {share : Money}
    (sound : IsSound share.scale history)
    (receivedIn : unitsReceived history < twoTo 96)
    (shareNonneg : 0 ≤ share.minorUnits)
    (shareIn : share.minorUnits < twoTo 96) :
    ∃ breakdown,
      calculate history share = .ok breakdown ∧
        breakdown.IsOf history share := by
  have divided := unitsReceived_eq history
  have paidNonneg : 0 ≤ unitsPosted [.pay] history := unitsPosted_nonneg sound
  have transferredNonneg : 0 ≤ unitsPosted [.transfer] history :=
    unitsPosted_nonneg sound
  have capped : share.scale ≤ Money.maxScale := share.scale_le
  have paidIn : unitsPosted [.pay] history < twoTo 96 := by omega
  have transferredIn : unitsPosted [.transfer] history < twoTo 96 := by omega
  obtain ⟨paid, paidSum, paidScale, paidUnits⟩ :=
    sumOf_eq capped sound paidIn
  obtain ⟨transferred, transferredSum, transferredScale, transferredUnits⟩ :=
    sumOf_eq capped sound transferredIn
  obtain ⟨all, added, allScale, allUnits⟩ :=
    Money.add_eq (transferredScale.trans paidScale.symm)
      (by omega) (by omega) (by omega)
  have lesserScale : (min share paid).scale = share.scale :=
    Money.scale_min paidScale
  have lesserUnits :
      (min share paid).minorUnits = min share.minorUnits paid.minorUnits :=
    Money.minorUnits_min paidScale
  obtain ⟨rest, subtracted, restScale, restUnits⟩ :=
    Money.subtract_eq lesserScale (by omega) (by omega) (by omega)
  refine ⟨⟨all, paid, min share paid, rest, all ≤ share⟩, ?_, ?_⟩
  · simp only [calculate, paidSum, transferredSum, Outcome.ok_bind, added,
      subtracted, Outcome.pure_eq]
  · exact
      { payments_scale := lesserScale
        transfers_scale := restScale
        paid := paidUnits
        received := by dsimp only; omega
        payments := by dsimp only; omega
        adds := by dsimp only; omega
        isFull := by
          dsimp only
          rw [decide_eq_true_iff,
            Money.le_iff (paidScale.symm.trans allScale.symm)]
          omega }

/-- A share of no more than was received can be divided. -/
theorem calculate_divides
    {scale : Nat}
    {history : List Posting}
    {share : Money}
    (sound : IsSound scale history)
    (receivedIn : unitsReceived history < twoTo 95)
    (shareScale : share.scale = scale)
    (shareNonneg : 0 ≤ share.minorUnits)
    (within : share.minorUnits ≤ unitsReceived history) :
    ∃ breakdown,
      calculate history share = .ok breakdown ∧
        breakdown.Divides scale share.minorUnits := by
  subst shareScale
  have double : twoTo 96 = 2 * twoTo 95 := twoTo_succ 95
  have paidNonneg : 0 ≤ unitsPosted [.pay] history := unitsPosted_nonneg sound
  obtain ⟨breakdown, calculated, isOf⟩ :=
    calculate_isOf sound (by omega) shareNonneg (by omega)
  have payments := isOf.payments
  have adds := isOf.adds
  exact
    ⟨breakdown, calculated,
      { payments_scale := isOf.payments_scale
        transfers_scale := isOf.transfers_scale
        payments_nonneg := by omega
        transfers_nonneg := by omega
        adds := adds }⟩

/-- The units of all steps of a kind. -/
def unitsStepped
    (kind : ActionKind)
    (steps : List Step) : Int :=
  (steps.map fun step =>
    if step.kind = kind then step.amount.minorUnits else 0).sum

/-- How a step changes the balance, in minor units. -/
def Step.change (step : Step) : Int :=
  if step.kind = .credit then
    -step.amount.minorUnits
  else
    step.amount.minorUnits

/-- A step is a credit or a refund of an amount in range. -/
structure Step.IsInRange
    (scale : Nat)
    (step : Step) : Prop where
  kinds : step.kind = .credit ∨ step.kind = .refund
  scale_eq : step.amount.scale = scale
  nonneg : 0 ≤ step.amount.minorUnits
  lt : step.amount.minorUnits < twoTo 96

/-- The posting of a step that leaves a balance. -/
def Step.posting
    (step : Step)
    (account : Account)
    (options : ActionOptions)
    (full : Bool)
    (after : Money) : Posting :=
  { Posting.ofAction account (step.kind.label full) step.amount after options with
    transactionInformation := some step.information
    notify := options.notifyPatron && step.kind != .credit }

/-- A posting on an account records a step. -/
structure Step.IsRecordedBy
    (account : Account)
    (step : Step)
    (posting : Posting) : Prop where
  account_eq : posting.account = account.id
  kind_eq : posting.kind? = some step.kind
  amount_eq : posting.amount = step.amount

section Postings

variable {scale : Nat} {account : Account} {step : Step} {steps : List Step}

/-- The posting records the step, whatever balance it leaves. -/
def Step.IsPostedBy
    (account : Account)
    (options : ActionOptions)
    (full : Bool)
    (step : Step)
    (posting : Posting) : Prop :=
  ∃ after, posting = step.posting account options full after

/-- Each step is posted on the account, in order. -/
theorem posted_of_postingsFrom
    {options : ActionOptions}
    {full : Bool}
    {balance : Money}
    {postings : List Posting}
    (posted : postingsFrom account options full balance steps = .ok postings) :
    List.Forall₂ (Step.IsPostedBy account options full) steps postings := by
  induction steps generalizing balance postings with
  | nil =>
      obtain rfl := Except.ok.inj posted
      exact .nil
  | cons step rest inductionHypothesis =>
      obtain ⟨after, -, onward⟩ := Outcome.bind_eq_ok_iff.mp posted
      obtain ⟨later, postedRest, same⟩ := Outcome.bind_eq_ok_iff.mp onward
      obtain rfl := Except.ok.inj same
      exact .cons ⟨after, rfl⟩ (inductionHypothesis postedRest)

theorem Step.IsPostedBy.isRecordedBy
    {options : ActionOptions}
    {full : Bool}
    {posting : Posting}
    (posted : step.IsPostedBy account options full posting) :
    step.IsRecordedBy account posting := by
  obtain ⟨after, rfl⟩ := posted
  exact ⟨rfl, ActionKind.ofLabel?_label _ _, rfl⟩

/-- The posting of a step changes the balance as the step does. -/
theorem Step.IsRecordedBy.change_eq
    {posting : Posting}
    (recorded : step.IsRecordedBy account posting)
    (inRange : step.IsInRange scale) :
    posting.change .refund = step.change := by
  rw [Posting.change, recorded.kind_eq, recorded.amount_eq, Step.change]
  rcases inRange.kinds with credits | refunds
  · simp [credits]
  · simp [refunds]

/-- A step leaves the balance that it changes the one before to. -/
theorem Step.IsInRange.balanceAfter_eq
    (inRange : step.IsInRange scale)
    {balance : Money}
    (balanceScale : balance.scale = scale)
    (balanceIn : balance.minorUnits.natAbs < twoTo 96)
    (afterIn : (balance.minorUnits + step.change).natAbs < twoTo 96) :
    ∃ after,
      step.balanceAfter balance = .ok after ∧
        after.scale = scale ∧
        after.minorUnits = balance.minorUnits + step.change := by
  have same : step.amount.scale = balance.scale :=
    inRange.scale_eq.trans balanceScale.symm
  have stepNonneg := inRange.nonneg
  have stepIn := inRange.lt
  rw [Step.change] at afterIn ⊢
  rw [Step.balanceAfter]
  split
  next credits =>
    rw [if_pos credits] at afterIn
    obtain ⟨after, subtracted, afterScale, afterUnits⟩ :=
      Money.subtract_eq same balanceIn (by omega) (by omega)
    exact ⟨after, subtracted, afterScale.trans balanceScale, by omega⟩
  next refunds =>
    rw [if_neg refunds] at afterIn
    obtain ⟨after, added, afterScale, afterUnits⟩ :=
      Money.add_eq same balanceIn (by omega) afterIn
    exact ⟨after, added, afterScale.trans balanceScale, afterUnits⟩

theorem unitsStepped_cons
    (kind : ActionKind)
    (step : Step)
    (steps : List Step) :
    unitsStepped kind (step :: steps) =
      (if step.kind = kind then step.amount.minorUnits else 0) +
        unitsStepped kind steps := by
  simp [unitsStepped]

/-- Steps in range come to no less than nothing. -/
theorem unitsStepped_nonneg
    (inRange : ∀ step ∈ steps, step.IsInRange scale)
    (kind : ActionKind) :
    0 ≤ unitsStepped kind steps := by
  apply List.sum_nonneg
  intro units member
  obtain ⟨step, among, rfl⟩ := List.mem_map.mp member
  have nonneg := (inRange step among).nonneg
  split <;> omega

/--
Steps are recorded one after another, as long as neither the credits nor the
refunds alone would take the balance out of range.
-/
theorem postingsFrom_leads
    (options : ActionOptions)
    (full : Bool)
    (inRange : ∀ step ∈ steps, step.IsInRange scale)
    {balance : Money}
    (balanceScale : balance.scale = scale)
    (credited : -(twoTo 96 : Int) < balance.minorUnits - unitsStepped .credit steps)
    (refunded : balance.minorUnits + unitsStepped .refund steps < twoTo 96) :
    ∃ postings,
      postingsFrom account options full balance steps = .ok postings ∧
        List.Forall₂ (Step.IsRecordedBy account) steps postings ∧
        LeadsTo scale balance.minorUnits
          (postings.map fun posting => (.refund, posting))
          (balance.minorUnits - unitsStepped .credit steps +
            unitsStepped .refund steps) := by
  induction steps generalizing balance with
  | nil =>
      exact ⟨[], rfl, .nil, by simp [LeadsTo, unitsStepped]⟩
  | cons step rest inductionHypothesis =>
      have stepIn := inRange step List.mem_cons_self
      have restIn : ∀ other ∈ rest, other.IsInRange scale :=
        fun other member => inRange other (List.mem_cons_of_mem _ member)
      have restCredits := unitsStepped_nonneg restIn .credit
      have restRefunds := unitsStepped_nonneg restIn .refund
      have stepNonneg := stepIn.nonneg
      rw [unitsStepped_cons] at credited refunded
      rw [unitsStepped_cons, unitsStepped_cons]
      -- What a step does to the balance, it does to one of the two sums.
      have counted :
          step.change =
            (if step.kind = .refund then step.amount.minorUnits else 0) -
              if step.kind = .credit then step.amount.minorUnits else 0 := by
        rw [Step.change]
        rcases stepIn.kinds with credits | refunds
        · simp [credits]
        · simp [refunds]
      have sides :
          0 ≤ (if step.kind = .refund then step.amount.minorUnits else 0) ∧
            0 ≤ if step.kind = .credit then step.amount.minorUnits else 0 := by
        constructor <;> split <;> omega
      obtain ⟨after, changed, afterScale, afterUnits⟩ :=
        stepIn.balanceAfter_eq balanceScale (by omega) (by omega)
      obtain ⟨postings, posted, recorded, leads⟩ :=
        inductionHypothesis restIn afterScale (by omega) (by omega)
      let posting := step.posting account options full after
      have records : step.IsRecordedBy account posting :=
        ⟨rfl, ActionKind.ofLabel?_label _ _, rfl⟩
      refine ⟨posting :: postings, ?_, .cons records recorded,
        afterScale, ?_, ?_⟩
      · simp only [postingsFrom, changed, posted, Outcome.ok_bind,
          Outcome.pure_eq]
        rfl
      · rw [records.change_eq stepIn]
        exact afterUnits
      · have final :
            after.minorUnits - unitsStepped .credit rest +
                unitsStepped .refund rest =
              balance.minorUnits -
                  ((if step.kind = .credit then step.amount.minorUnits else 0) +
                    unitsStepped .credit rest) +
                ((if step.kind = .refund then step.amount.minorUnits else 0) +
                  unitsStepped .refund rest) := by
          omega
        rw [← final]
        exact leads

/-- Steps of nothing do not count. -/
theorem unitsStepped_filter
    (kind : ActionKind)
    (steps : List Step) :
    unitsStepped kind (steps.filter fun step => !step.amount.isZero) =
      unitsStepped kind steps := by
  induction steps with
  | nil =>
      rfl
  | cons step rest inductionHypothesis =>
      rw [List.filter_cons, unitsStepped_cons, ← inductionHypothesis]
      by_cases nothing : step.amount.isZero = true
      · have zero := step.amount.isZero_iff.mp nothing
        simp [nothing, zero]
      · simp [nothing, unitsStepped_cons]

/-- A posting of a step counts for what the step is. -/
theorem Step.IsRecordedBy.unitsAs_eq
    {posting : Posting}
    (recorded : step.IsRecordedBy account posting)
    (kind : ActionKind) :
    unitsAs [kind] posting =
      if step.kind = kind then step.amount.minorUnits else 0 := by
  simp [unitsAs, recorded.kind_eq, recorded.amount_eq]

/-- Postings of steps count for what the steps are. -/
theorem unitsPosted_of_recorded
    {postings : List Posting}
    (recorded : List.Forall₂ (Step.IsRecordedBy account) steps postings)
    (kind : ActionKind) :
    unitsPosted [kind] postings = unitsStepped kind steps := by
  induction recorded with
  | nil =>
      rfl
  | cons first rest inductionHypothesis =>
      rw [unitsStepped_cons, ← inductionHypothesis, ← first.unitsAs_eq]
      simp [unitsPosted]

end Postings

end Breakdown

/-- Postings refund a share on an account. -/
structure IsRefund
    (scale : Nat)
    (account : Account)
    (share : Int)
    (postings : List Posting) : Prop where
  few : postings.length ≤ 4
  onAccount : ∀ posting ∈ postings, posting.account = account.id
  sound : IsSound scale postings
  kinds :
    ∀ posting ∈ postings,
      posting.kind? = some .credit ∨ posting.kind? = some .refund
  refunds : unitsRefunded postings = share
  /-- In the end the account owes what it owed. -/
  leads :
    LeadsTo scale account.remaining.minorUnits
      (postings.map fun posting => (.refund, posting))
      account.remaining.minorUnits

/-- A share that is divided is refunded in up to four postings. -/
theorem Breakdown.Divides.postings_isRefund
    {scale : Nat}
    {share : Int}
    {breakdown : Breakdown}
    (divides : breakdown.Divides scale share)
    (shareIn : share < twoTo 95)
    {account : Account}
    (atScale : account.remaining.scale = scale)
    (nonneg : 0 ≤ account.remaining.minorUnits)
    (inRange : account.remaining.minorUnits < twoTo 95)
    (options : ActionOptions) :
    ∃ postings,
      breakdown.postings account options = .ok postings ∧
        IsRefund scale account share postings := by
  have double : twoTo 96 = 2 * twoTo 95 := twoTo_succ 95
  have adds := divides.adds
  have paymentsNonneg := divides.payments_nonneg
  have transfersNonneg := divides.transfers_nonneg
  have stepsIn : ∀ step ∈ breakdown.steps, step.IsInRange scale := by
    intro step member
    have among := List.mem_of_mem_filter member
    simp only [List.mem_cons, List.not_mem_nil, or_false] at among
    rcases among with rfl | rfl | rfl | rfl
    · exact ⟨.inl rfl, divides.payments_scale, paymentsNonneg, by dsimp only; omega⟩
    · exact ⟨.inl rfl, divides.transfers_scale, transfersNonneg, by dsimp only; omega⟩
    · exact ⟨.inr rfl, divides.payments_scale, paymentsNonneg, by dsimp only; omega⟩
    · exact ⟨.inr rfl, divides.transfers_scale, transfersNonneg, by dsimp only; omega⟩
  have credited : unitsStepped .credit breakdown.steps = share := by
    rw [steps, unitsStepped_filter]
    simp [unitsStepped, adds]
  have refunded : unitsStepped .refund breakdown.steps = share := by
    rw [steps, unitsStepped_filter]
    simp [unitsStepped, adds]
  obtain ⟨postings, posted, recorded, leads⟩ :=
    postingsFrom_leads options breakdown.isFull stepsIn atScale
      (by omega) (by omega)
  refine ⟨postings, posted, ?_⟩
  exact
    { few := by
        rw [← recorded.length_eq]
        exact List.length_filter_le _ _
      onAccount := by
        intro posting member
        obtain ⟨step, -, records⟩ := exists_of_forall₂ recorded member
        exact records.account_eq
      sound := by
        intro money member
        obtain ⟨posting, among, rfl⟩ := List.mem_map.mp member
        obtain ⟨step, inSteps, records⟩ := exists_of_forall₂ recorded among
        rw [records.amount_eq]
        exact ⟨(stepsIn step inSteps).scale_eq, (stepsIn step inSteps).nonneg⟩
      kinds := by
        intro posting member
        obtain ⟨step, inSteps, records⟩ := exists_of_forall₂ recorded member
        rw [records.kind_eq]
        rcases (stepsIn step inSteps).kinds with credits | refunds
        · exact .inl (congrArg some credits)
        · exact .inr (congrArg some refunds)
      refunds := (unitsPosted_of_recorded recorded .refund).trans refunded
      leads := by
        rw [credited, refunded] at leads
        have same : account.remaining.minorUnits - share + share =
            account.remaining.minorUnits := by omega
        rwa [same] at leads }

end PatronFees.Refund
