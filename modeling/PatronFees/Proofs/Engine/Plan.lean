import PatronFees.Engine.Plan
import PatronFees.Proofs.Account
import PatronFees.Proofs.Refund

namespace PatronFees.AccountPlan

/-!
# What a plan does to an account

Whatever the action, its plan for an account carries out a share of it: the
account stays the same fee or fine and owes that much less, or for refunds as
much as before; the balances of the postings lead to what it owes; and the last
posting gives it its payment status.
-/

/-- The units that postings of an action apply: for refunds, what they refund. -/
def unitsApplied
    (kind : ActionKind)
    (postings : List Posting) : Int :=
  if kind = .refund then
    Refund.unitsRefunded postings
  else
    Money.unitsOf (postings.map (·.amount))

/-- A plan carries out a share of an action on an account. -/
structure CarriesOut
    (scale : Nat)
    (kind : ActionKind)
    (account : Account)
    (share : Int)
    (plan : AccountPlan) : Prop where
  sameDebt : plan.account.IsSameDebt account
  scale_eq : plan.account.remaining.scale = scale
  nonneg : 0 ≤ plan.account.remaining.minorUnits
  share_nonneg : 0 ≤ share
  positive : kind = .refund → 0 < share
  remaining_eq :
    plan.account.remaining.minorUnits =
      if kind = .refund then
        account.remaining.minorUnits
      else
        account.remaining.minorUnits - share
  closed_iff :
    plan.account.status = .closed ↔ plan.account.remaining.minorUnits = 0
  few : plan.postings.length ≤ if kind = .refund then 4 else 1
  onAccount : ∀ posting ∈ plan.postings, posting.account = account.id
  sound : Refund.IsSound scale plan.postings
  applies : unitsApplied kind plan.postings = share
  /-- Refunds record credits and refunds alone. -/
  kinds :
    kind = .refund →
      ∀ posting ∈ plan.postings,
        posting.kind? = some .credit ∨ posting.kind? = some .refund
  leads :
    LeadsTo scale account.remaining.minorUnits
      (plan.postings.map fun posting => (kind, posting))
      plan.account.remaining.minorUnits
  /-- The last posting gives the payment status. -/
  labels :
    ∃ last,
      plan.postings.getLast? = some last ∧
        last.actionType = plan.account.paymentStatus

variable {scale : Nat} {kind : ActionKind} {account : Account}

/--
A plan that carries out an action receives no more than the account owes less
for it, and refunds no more than that or the share of a refund.
-/
theorem CarriesOut.covered
    {share : Int}
    {plan : AccountPlan}
    (carriesOut : plan.CarriesOut scale kind account share) :
    Refund.unitsReceived plan.postings ≤
        account.remaining.minorUnits - plan.account.remaining.minorUnits ∧
      Refund.unitsRefunded plan.postings ≤
        account.remaining.minorUnits - plan.account.remaining.minorUnits +
          if kind = .refund then share else 0 := by
  have remaining := carriesOut.remaining_eq
  have applies := carriesOut.applies
  rw [AccountPlan.unitsApplied] at applies
  by_cases refunds : kind = .refund
  · rw [if_pos refunds] at remaining applies ⊢
    have nothing := Refund.unitsReceived_eq_zero (carriesOut.kinds refunds)
    exact ⟨by omega, by omega⟩
  · rw [if_neg refunds] at remaining applies ⊢
    have received :
        Refund.unitsReceived plan.postings ≤
          Money.unitsOf (plan.postings.map (·.amount)) :=
      Refund.unitsPosted_le carriesOut.sound
    have refunded :
        Refund.unitsRefunded plan.postings ≤
          Money.unitsOf (plan.postings.map (·.amount)) :=
      Refund.unitsPosted_le carriesOut.sound
    exact ⟨by omega, by omega⟩

/-- A plan never leaves more owing than before. -/
theorem CarriesOut.le
    {share : Int}
    {plan : AccountPlan}
    (carriesOut : plan.CarriesOut scale kind account share) :
    plan.account.remaining.minorUnits ≤ account.remaining.minorUnits := by
  have nonneg := carriesOut.share_nonneg
  rw [carriesOut.remaining_eq]
  split <;> omega

/-- One posting that takes a share off what is owed carries it out. -/
theorem carriesOut_single
    (notRefund : kind ≠ .refund)
    (label : String)
    {share remaining : Money}
    (shareScale : share.scale = scale)
    (shareNonneg : 0 ≤ share.minorUnits)
    (remainingScale : remaining.scale = scale)
    (remainingNonneg : 0 ≤ remaining.minorUnits)
    (taken :
      remaining.minorUnits = account.remaining.minorUnits - share.minorUnits)
    (options : ActionOptions) :
    CarriesOut scale kind account share.minorUnits
      { account := account.apply label remaining
        postings := [Posting.ofAction account label share remaining options] } where
  sameDebt := account.isSameDebt_apply label remaining
  scale_eq := (account.scale_remaining_apply label remaining).trans remainingScale
  nonneg := by
    rw [Account.minorUnits_remaining_apply]
    exact remainingNonneg
  share_nonneg := shareNonneg
  positive := fun refunds => (notRefund refunds).elim
  remaining_eq := by
    rw [Account.minorUnits_remaining_apply, if_neg notRefund]
    exact taken
  closed_iff := by
    rw [Account.minorUnits_remaining_apply]
    exact account.status_apply label remaining
  few := by
    rw [if_neg notRefund]
    exact Nat.le_refl 1
  onAccount := by
    intro posting member
    rw [List.mem_singleton.mp member]
    rfl
  sound := by
    intro money member
    rw [List.mem_singleton.mp member]
    exact ⟨shareScale, shareNonneg⟩
  applies := by
    rw [unitsApplied, if_neg notRefund]
    exact Int.add_zero _
  kinds := fun refunds => (notRefund refunds).elim
  leads := by
    refine ⟨remainingScale, ?_, ?_⟩
    · rw [Posting.change, if_neg fun both => notRefund both.1]
      exact taken
    · exact (account.minorUnits_remaining_apply label remaining).symm
  labels := ⟨_, rfl, (account.paymentStatus_apply label remaining).symm⟩

/-- A share of what is owed can be paid, waived or transferred. -/
theorem settling_carriesOut
    (notRefund : kind ≠ .refund)
    (atScale : account.remaining.scale = scale)
    (inRange : account.remaining.minorUnits < twoTo 95)
    {share : Money}
    (shareScale : share.scale = scale)
    (shareNonneg : 0 ≤ share.minorUnits)
    (within : share.minorUnits ≤ account.remaining.minorUnits)
    (options : ActionOptions) :
    ∃ plan,
      settling kind account share options = .ok plan ∧
        plan.CarriesOut scale kind account share.minorUnits := by
  have double : twoTo 96 = 2 * twoTo 95 := twoTo_succ 95
  obtain ⟨remaining, subtracted, remainingScale, taken⟩ :=
    Money.subtract_eq (shareScale.trans atScale.symm)
      (by omega) (by omega) (by omega)
  refine ⟨_, ?_,
    carriesOut_single notRefund (kind.label remaining.isZero) shareScale
      shareNonneg (remainingScale.trans atScale) (by omega) taken options⟩
  simp only [settling, subtracted, Outcome.ok_bind, Outcome.pure_eq]

/-- A cancellation carries out all that is owed. -/
theorem cancelling_carriesOut
    (capped : scale ≤ Money.maxScale)
    (atScale : account.remaining.scale = scale)
    (nonneg : 0 ≤ account.remaining.minorUnits)
    (options : ActionOptions) :
    (cancelling account scale options).CarriesOut scale .cancel account
      account.remaining.minorUnits := by
  have nothing := Money.minorUnits_zero scale
  exact carriesOut_single (by decide) (cancellationLabel options) atScale nonneg
    (Money.scale_zero capped) (by omega) (by omega) options

/-- A share of no more than was received can be refunded. -/
theorem refunding_carriesOut
    {history : List Posting}
    (sound : Refund.IsSound scale history)
    (receivedIn : Refund.unitsReceived history < twoTo 95)
    (atScale : account.remaining.scale = scale)
    (nonneg : 0 ≤ account.remaining.minorUnits)
    (inRange : account.remaining.minorUnits < twoTo 95)
    {share : Money}
    (shareScale : share.scale = scale)
    (sharePositive : 0 < share.minorUnits)
    (within : share.minorUnits ≤ Refund.unitsReceived history)
    (options : ActionOptions) :
    ∃ plan,
      refunding account history share options = .ok plan ∧
        plan.CarriesOut scale .refund account share.minorUnits := by
  obtain ⟨breakdown, calculated, divides⟩ :=
    Refund.Breakdown.calculate_divides sound receivedIn shareScale
      (by omega) within
  obtain ⟨postings, posted, refund⟩ :=
    divides.postings_isRefund (by omega) atScale nonneg inRange options
  -- A share above zero takes at least one posting.
  have nonempty : postings ≠ [] := by
    rintro rfl
    have nothing : (0 : Int) = share.minorUnits := refund.refunds
    omega
  obtain ⟨last, isLast⟩ := Option.isSome_iff_exists.mp
    (List.getLast?_isSome.mpr nonempty)
  have lastTagged :
      (postings.map fun posting => (ActionKind.refund, posting)).getLast? =
        some (.refund, last) := by
    rw [List.getLast?_map, isLast]
    rfl
  obtain ⟨lastScale, lastUnits⟩ := refund.leads.getLast?_balance lastTagged
  dsimp only at lastScale lastUnits
  refine ⟨⟨account.apply last.actionType last.balance, postings⟩, ?_, ?_⟩
  · simp only [refunding, calculated, posted, Outcome.ok_bind, isLast,
      Outcome.pure_eq]
  · exact
      { sameDebt := account.isSameDebt_apply _ _
        scale_eq := (account.scale_remaining_apply _ _).trans lastScale
        nonneg := by
          rw [Account.minorUnits_remaining_apply, lastUnits]
          exact nonneg
        share_nonneg := by omega
        positive := fun _ => sharePositive
        remaining_eq := by
          rw [Account.minorUnits_remaining_apply, if_pos rfl]
          exact lastUnits
        closed_iff := by
          rw [Account.minorUnits_remaining_apply]
          exact account.status_apply _ _
        few := by
          rw [if_pos rfl]
          exact refund.few
        onAccount := refund.onAccount
        sound := refund.sound
        applies := by
          rw [unitsApplied, if_pos rfl]
          exact refund.refunds
        kinds := fun _ => refund.kinds
        leads := by
          rw [Account.minorUnits_remaining_apply, lastUnits]
          exact refund.leads
        labels := ⟨last, isLast, (account.paymentStatus_apply _ _).symm⟩ }

end PatronFees.AccountPlan
