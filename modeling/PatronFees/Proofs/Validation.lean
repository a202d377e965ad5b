import PatronFees.Proofs.AccountBook
import PatronFees.Proofs.Refund
import PatronFees.Validation

namespace PatronFees

/-!
# What passes a check

A request that passes finds all its accounts, asks for an amount at the scale,
and divides what is available into what is allowed and what remains. None of
its accounts is closed with nothing owed, unless it is a refund.
-/

/-- Only refunds are checked against what is refundable. -/
theorem ActionKind.validation_ne_refunding
    {kind : ActionKind}
    (notRefund : kind ≠ .refund) :
    kind.validation ≠ .refunding := by
  cases kind with
  | refund =>
      exact (notRefund rfl).elim
  | pay | waive | transfer | cancel | credit =>
      decide

/-- Only cancellations are checked as such. -/
theorem ActionKind.validation_ne_cancellation
    {kind : ActionKind}
    (notCancel : kind ≠ .cancel) :
    kind.validation ≠ .cancellation := by
  cases kind with
  | cancel =>
      exact (notCancel rfl).elim
  | pay | waive | transfer | refund | credit =>
      decide

namespace Validation

/-- The units that a request may take of at most. -/
def unitsAvailable
    (rules : Validation)
    (targets : List Account)
    (history : List Posting) : Int :=
  if rules = .refunding then
    Refund.unitsReceived history - Refund.unitsRefunded history
  else
    Money.unitsOf (targets.map (·.remaining))

/-- Accounts and a history are in range at a scale. -/
structure IsInRange
    (scale : Nat)
    (targets : List Account)
    (history : List Posting) : Prop where
  capped : scale ≤ Money.maxScale
  owed : Money.AreSound scale (targets.map (·.remaining))
  owed_lt : Money.unitsOf (targets.map (·.remaining)) < twoTo 95
  posted : Refund.IsSound scale history
  received_lt : Refund.unitsReceived history < twoTo 95
  refunded_lt : Refund.unitsRefunded history < twoTo 95

/-- What is known of a request that passes with a preview. -/
structure Accepts
    (rules : Validation)
    (scale : Nat)
    (ids : List AccountId)
    (accounts : AccountBook)
    (history : List Posting)
    (preview : Preview) : Prop where
  found : ∀ id ∈ ids, (accounts.find? id).isSome
  allowed_scale : preview.allowed.scale = scale
  remaining_scale : preview.remaining.scale = scale
  remaining_nonneg : 0 ≤ preview.remaining.minorUnits
  divides :
    preview.allowed.minorUnits + preview.remaining.minorUnits =
      unitsAvailable rules (accounts.findEach ids) history
  /-- Only a cancellation may be over nothing. -/
  positive : rules ≠ .cancellation → 0 < preview.allowed.minorUnits
  /-- A cancellation takes everything. -/
  whole : rules = .cancellation → preview.remaining.minorUnits = 0
  owing :
    rules ≠ .refunding →
      ∀ account ∈ accounts.findEach ids,
        account.status = .closed → account.remaining.minorUnits ≠ 0

/-- Accounts that are all found are those that the book has. -/
theorem findAll_eq_ok
    {ids : List AccountId}
    {accounts : AccountBook}
    {targets : List Account}
    (all : findAll ids accounts = .ok targets) :
    targets = accounts.findEach ids ∧
      ∀ id ∈ ids, (accounts.find? id).isSome := by
  have related := Outcome.mapM_eq_ok_iff.mp all
  induction related with
  | nil =>
      exact ⟨rfl, fun id member => (List.not_mem_nil member).elim⟩
  | @cons id account others results first rest inductionHypothesis =>
      cases found : accounts.find? id with
      | none =>
          rw [found] at first
          cases first
      | some known =>
          rw [found] at first
          obtain rfl := Except.ok.inj first
          obtain ⟨same, present⟩ :=
            inductionHypothesis (Outcome.mapM_eq_ok_iff.mpr rest)
          refine ⟨?_, ?_⟩
          · rw [AccountBook.findEach, List.filterMap_cons_some found, same]
            rfl
          · intro other member
            rcases List.mem_cons.mp member with rfl | among
            · rw [found]
              rfl
            · exact present other among

/-- An amount above zero is read at the scale. -/
theorem readPositive_eq_ok
    {entered : Option String}
    {scale : Nat}
    (capped : scale ≤ Money.maxScale)
    {amount : Money}
    (read : readPositive entered scale = .ok amount) :
    amount.scale = scale ∧ 0 < amount.minorUnits := by
  obtain ⟨value, found, accepted⟩ := Outcome.bind_eq_ok_iff.mp read
  split at accepted
  next positive =>
    obtain rfl := Except.ok.inj accepted
    refine ⟨?_, value.isPositive_iff.mp positive⟩
    simp only [Outcome.ofChecked, Money.read] at found
    split at found
    next =>
      obtain rfl := Except.ok.inj found
      exact Nat.min_eq_left capped
    next =>
      cases found
  next =>
    cases accepted

/-- Accounts pass when none that is closed blocks the request. -/
theorem refuseClosed_eq_ok
    {blocks : Account → Bool}
    {accounts : List Account}
    (passed : refuseClosed blocks accounts = .ok ()) :
    ∀ account ∈ accounts,
      account.status = .closed → blocks account = false := by
  intro account member closed
  rw [refuseClosed] at passed
  split at passed
  next =>
    cases passed
  next none =>
    have notBlocked := List.find?_eq_none.mp none account member
    simpa [Account.isClosed, closed] using notBlocked

/-- What is left of an available amount is the exact difference. -/
theorem within_eq_ok
    {requested available left : Money}
    (same : requested.scale = available.scale)
    (positive : 0 < requested.minorUnits)
    (inRange : available.minorUnits < twoTo 95)
    (passed : within requested available = .ok left) :
    left.scale = available.scale ∧
      0 ≤ left.minorUnits ∧
      requested.minorUnits + left.minorUnits = available.minorUnits := by
  have double : twoTo 96 = 2 * twoTo 95 := twoTo_succ 95
  rw [within] at passed
  split at passed
  next =>
    cases passed
  next notLess =>
    have enough := mt (Money.lt_iff same).mpr notLess
    obtain ⟨difference, subtracted, differenceScale, differenceUnits⟩ :=
      Money.subtract_eq same (by omega) (by omega) (by omega)
    rw [subtracted] at passed
    obtain rfl := Except.ok.inj passed
    exact ⟨differenceScale, by omega, by omega⟩

/-- A preview grants a positive part of what is available. -/
structure Grants
    (scale : Nat)
    (available : Int)
    (preview : Preview) : Prop where
  allowed_scale : preview.allowed.scale = scale
  remaining_scale : preview.remaining.scale = scale
  remaining_nonneg : 0 ≤ preview.remaining.minorUnits
  positive : 0 < preview.allowed.minorUnits
  divides :
    preview.allowed.minorUnits + preview.remaining.minorUnits = available

/-- An amount that was read and is within what is available is granted. -/
theorem grants_of_within
    {scale : Nat}
    {entered : Option String}
    {requested available left : Money}
    (availableScale : available.scale = scale)
    (inRange : available.minorUnits < twoTo 95)
    (read : readPositive entered scale = .ok requested)
    (sufficed : within requested available = .ok left) :
    Grants scale available.minorUnits ⟨requested, left⟩ := by
  have capped : scale ≤ Money.maxScale := availableScale ▸ available.scale_le
  obtain ⟨requestedScale, positive⟩ := readPositive_eq_ok capped read
  obtain ⟨leftScale, leftNonneg, divides⟩ :=
    within_eq_ok (requestedScale.trans availableScale.symm) positive
      inRange sufficed
  exact
    { allowed_scale := requestedScale
      remaining_scale := leftScale.trans availableScale
      remaining_nonneg := leftNonneg
      positive := positive
      divides := divides }

section Check

variable {rules : Validation} {scale : Nat} {ids : List AccountId}
  {accounts : AccountBook} {history : List Posting}
  {entered : Option String} {preview : Preview}

/-- A request over accounts and a history in range is accepted if it passes. -/
theorem accepts_of_check
    (inRange : IsInRange scale (accounts.findEach ids) history)
    (passed : check rules ids accounts history entered scale = .ok preview) :
    rules.Accepts scale ids accounts history preview := by
  have double : twoTo 96 = 2 * twoTo 95 := twoTo_succ 95
  have owedLt := inRange.owed_lt
  have receivedLt := inRange.received_lt
  have refundedLt := inRange.refunded_lt
  obtain ⟨targets, all, summing⟩ := Outcome.bind_eq_ok_iff.mp passed
  obtain ⟨rfl, found⟩ := findAll_eq_ok all
  obtain ⟨owed, summed, owedScale, owedUnits⟩ :=
    Money.sum_eq inRange.capped inRange.owed (by omega)
  have owedNonneg := inRange.owed.unitsOf_nonneg
  rw [summed, Outcome.ok_bind] at summing
  cases rules with
  | cancellation =>
      obtain ⟨_, unblocked, rest⟩ := Outcome.bind_eq_ok_iff.mp summing
      obtain rfl := Except.ok.inj rest
      have nothing := Money.minorUnits_zero scale
      exact
        { found := found
          allowed_scale := owedScale
          remaining_scale := Money.scale_zero inRange.capped
          remaining_nonneg := by dsimp only; omega
          divides := by
            rw [unitsAvailable, if_neg (by decide)]
            dsimp only
            omega
          positive := fun other => (other rfl).elim
          whole := fun _ => nothing
          owing := by
            intro _ account member closed
            cases refuseClosed_eq_ok unblocked account member closed }
  | settlement =>
      obtain ⟨requested, read, rest⟩ := Outcome.bind_eq_ok_iff.mp summing
      obtain ⟨_, unblocked, later⟩ := Outcome.bind_eq_ok_iff.mp rest
      obtain ⟨left, sufficed, last⟩ := Outcome.bind_eq_ok_iff.mp later
      obtain rfl := Except.ok.inj last
      have grants := grants_of_within owedScale (by omega) read sufficed
      exact
        { found := found
          allowed_scale := grants.allowed_scale
          remaining_scale := grants.remaining_scale
          remaining_nonneg := grants.remaining_nonneg
          divides := by
            rw [unitsAvailable, if_neg (by decide)]
            exact grants.divides.trans owedUnits
          positive := fun _ => grants.positive
          whole := fun other => by cases other
          owing := by
            intro _ account member closed nothing
            have free := refuseClosed_eq_ok unblocked account member closed
            rw [account.remaining.isZero_iff.mpr nothing] at free
            cases free }
  | refunding =>
      obtain ⟨requested, read, rest⟩ := Outcome.bind_eq_ok_iff.mp summing
      obtain ⟨refundable, replayed, later⟩ := Outcome.bind_eq_ok_iff.mp rest
      obtain ⟨left, sufficed, last⟩ := Outcome.bind_eq_ok_iff.mp later
      obtain rfl := Except.ok.inj last
      obtain ⟨difference, replays, refundableScale, refundableUnits⟩ :=
        Refund.refundable_eq inRange.capped inRange.posted
          (by omega) (by omega)
      rw [replays] at replayed
      obtain rfl := Except.ok.inj replayed
      have refundedNonneg := inRange.posted.unitsRefunded_nonneg
      have grants := grants_of_within refundableScale (by omega) read sufficed
      exact
        { found := found
          allowed_scale := grants.allowed_scale
          remaining_scale := grants.remaining_scale
          remaining_nonneg := grants.remaining_nonneg
          divides := by
            rw [unitsAvailable, if_pos rfl]
            exact grants.divides.trans refundableUnits
          positive := fun _ => grants.positive
          whole := fun other => by cases other
          owing := fun other => (other rfl).elim }

/-- Where every account is found, all of them are. -/
theorem findAll_of_found
    (found : ∀ id ∈ ids, (accounts.find? id).isSome) :
    findAll ids accounts = .ok (accounts.findEach ids) := by
  apply Outcome.mapM_eq_ok_iff.mpr
  induction ids with
  | nil =>
      exact .nil
  | cons id rest inductionHypothesis =>
      obtain ⟨account, first⟩ :=
        Option.isSome_iff_exists.mp (found id List.mem_cons_self)
      have others := inductionHypothesis
        fun other member => found other (List.mem_cons_of_mem _ member)
      rw [AccountBook.findEach, List.filterMap_cons_some first]
      refine .cons ?_ others
      rw [first]

/-- An amount that was read passes when it is above zero. -/
theorem readPositive_of_read
    {text : String}
    {amount : Money}
    (read : Money.read text scale = .ok amount) :
    readPositive (some text) scale =
      if amount.isPositive then
        .ok amount
      else
        Outcome.fail (.invalidAmount text) := by
  simp only [readPositive, Option.getD_some, read, Outcome.ofChecked,
    Except.mapError, Outcome.ok_bind, Outcome.pure_eq]

/-- An available amount suffices for no more than itself. -/
theorem within_of_le
    {requested available : Money}
    (same : requested.scale = available.scale)
    (nonneg : 0 ≤ requested.minorUnits)
    (inRange : available.minorUnits < twoTo 95)
    (enough : requested.minorUnits ≤ available.minorUnits) :
    ∃ left, within requested available = .ok left := by
  have double : twoTo 96 = 2 * twoTo 95 := twoTo_succ 95
  have notLess : ¬ available < requested := by
    rw [Money.lt_iff same]
    omega
  obtain ⟨left, subtracted, -, -⟩ :=
    Money.subtract_eq same (by omega) (by omega) (by omega)
  rw [within, if_neg notLess]
  exact ⟨left, subtracted⟩

/--
A refund of an amount that was read passes exactly when its accounts are found
and the amount is above zero and no more than is refundable.
-/
theorem check_refunding_iff
    {text : String}
    {amount : Money}
    (inRange : IsInRange scale (accounts.findEach ids) history)
    (read : Money.read text scale = .ok amount) :
    (∃ preview,
        check .refunding ids accounts history (some text) scale = .ok preview) ↔
      (∀ id ∈ ids, (accounts.find? id).isSome) ∧
        0 < amount.minorUnits ∧
        amount.minorUnits ≤
          Refund.unitsReceived history - Refund.unitsRefunded history := by
  have double : twoTo 96 = 2 * twoTo 95 := twoTo_succ 95
  have owedLt := inRange.owed_lt
  have receivedLt := inRange.received_lt
  have refundedLt := inRange.refunded_lt
  have positiveRead := readPositive_of_read read
  constructor
  · rintro ⟨preview, passed⟩
    have accepts := accepts_of_check inRange passed
    obtain ⟨targets, -, summing⟩ := Outcome.bind_eq_ok_iff.mp passed
    obtain ⟨owed, -, reading⟩ := Outcome.bind_eq_ok_iff.mp summing
    obtain ⟨requested, isRead, rest⟩ := Outcome.bind_eq_ok_iff.mp reading
    obtain ⟨refundable, -, later⟩ := Outcome.bind_eq_ok_iff.mp rest
    obtain ⟨left, -, last⟩ := Outcome.bind_eq_ok_iff.mp later
    obtain rfl := Except.ok.inj last
    have same : amount = requested := by
      rw [positiveRead] at isRead
      split at isRead
      · exact Except.ok.inj isRead
      · cases isRead
    subst same
    have positive := accepts.positive (by decide)
    have divides := accepts.divides
    have nonneg := accepts.remaining_nonneg
    rw [unitsAvailable, if_pos rfl] at divides
    dsimp only at positive divides nonneg
    exact ⟨accepts.found, positive, by omega⟩
  · rintro ⟨found, positive, enough⟩
    obtain ⟨owed, summed, -, -⟩ :=
      Money.sum_eq inRange.capped inRange.owed (by omega)
    obtain ⟨refundable, replayed, refundableScale, refundableUnits⟩ :=
      Refund.refundable_eq inRange.capped inRange.posted (by omega) (by omega)
    rw [if_pos (amount.isPositive_iff.mpr positive)] at positiveRead
    have amountScale := (readPositive_eq_ok inRange.capped positiveRead).1
    have refundedNonneg := inRange.posted.unitsRefunded_nonneg
    obtain ⟨left, sufficed⟩ :=
      within_of_le (amountScale.trans refundableScale.symm)
        (by omega) (by omega) (by omega)
    refine ⟨⟨amount, left⟩, ?_⟩
    simp only [check, findAll_of_found found, summed, positiveRead, replayed,
      sufficed, Outcome.ok_bind, Outcome.pure_eq]

end Check

end Validation

end PatronFees
