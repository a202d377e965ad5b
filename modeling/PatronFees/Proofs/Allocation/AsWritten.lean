import PatronFees.Proofs.Allocation.Split
import PatronFees.Proofs.Timestamp.Text

namespace PatronFees

/-!
# Allocations among accounts as they are written

A table of accounts does not show what amounts were before they were rounded, nor
the fraction of a second. Allocations do not depend on the former, and on the latter
only by the order of service. So they are the same among targets that are written
alike, as long as these stand in the order that they are written in.
-/

namespace Money

variable {first other second another : Money} {amounts others : List Money}

/-- Amounts that are settled alike come to the same sum. -/
theorem add_eq_of_settled
    (same : first.settled = other.settled)
    (alsoSame : second.settled = another.settled) :
    first.add second = other.add another := by
  change first.settled.add second.settled = other.settled.add another.settled
  rw [same, alsoSame]

/-- Amounts that are settled alike leave the same difference. -/
theorem subtract_eq_of_settled
    (same : first.settled = other.settled)
    (alsoSame : second.settled = another.settled) :
    first.subtract second = other.subtract another := by
  change first.settled.subtract second.settled =
    other.settled.subtract another.settled
  rw [same, alsoSame]

/-- Amounts that are settled alike are compared alike. -/
theorem units_eq_of_settled
    (same : first.settled = other.settled) :
    first.units = other.units :=
  (congrArg Money.units same :)

/-- Lists of amounts that are settled alike have the same sum. -/
theorem sum_eq_of_settled
    (same : amounts.map settled = others.map settled)
    (scale : Nat) :
    sum amounts scale = sum others scale := by
  rw [← sum_map_settled amounts, same, sum_map_settled]

end Money

/-- The target as a table shows it. -/
def Target.asWritten (target : Target) : Target where
  account := target.account
  capacity := target.capacity.settled
  createdAt := target.createdAt.cut

/-- The targets are the same once they are written. -/
def Target.IsWrittenAs (target other : Target) : Prop :=
  target.asWritten = other.asWritten

/-- The shares are the same once they are written. -/
structure Share.IsWrittenAs (share other : Share) : Prop where
  target : share.target.IsWrittenAs other.target
  amount : share.amount.settled = other.amount.settled

namespace Allocation

variable {targets others : List Target} {shares given : List Share}

/-- Targets stand in the order that they are written in. -/
def KeepOrder (targets : List Target) : Prop :=
  ∀ first ∈ targets, ∀ second ∈ targets,
    first.precedes second = first.asWritten.precedes second.asWritten

/-- Rounds are the same once their shares are written. -/
structure HandOut.IsWrittenAs (round other : HandOut) : Prop where
  shares : List.Forall₂ Share.IsWrittenAs round.shares other.shares
  left : round.left = other.left
  progressed : round.progressed = other.progressed

/-- Targets that are written alike have room for the same. -/
theorem capacity_eq_of_isWrittenAs
    {target other : Target}
    (same : target.IsWrittenAs other) :
    target.capacity.settled = other.capacity.settled :=
  (congrArg Target.capacity same :)

theorem le_capacity_iff
    {target other : Target}
    (same : target.IsWrittenAs other)
    (money : Money) :
    money ≤ target.capacity ↔ money ≤ other.capacity := by
  change money.units ≤ target.capacity.units ↔ money.units ≤ other.capacity.units
  rw [Money.units_eq_of_settled (capacity_eq_of_isWrittenAs same)]

/-- Targets that keep their order are served in the order that they are written in. -/
theorem serviceOrder_isWrittenAs
    (alike : List.Forall₂ Target.IsWrittenAs targets others)
    (kept : KeepOrder targets)
    (othersKept : KeepOrder others) :
    List.Forall₂ Target.IsWrittenAs (serviceOrder targets) (serviceOrder others) := by
  have written
      {some : List Target}
      (someKept : KeepOrder some) :
      (serviceOrder some).map Target.asWritten =
        serviceOrder (some.map Target.asWritten) := by
    rw [serviceOrder, serviceOrder, List.filter_map]
    apply List.map_mergeSort
    intro first member second among
    exact someKept first (List.mem_of_mem_filter member) second
      (List.mem_of_mem_filter among)
  have same : targets.map Target.asWritten = others.map Target.asWritten := by
    rw [← List.forall₂_eq_eq_eq, List.forall₂_map_left_iff,
      List.forall₂_map_right_iff]
    exact alike
  have served :
      (serviceOrder targets).map Target.asWritten =
        (serviceOrder others).map Target.asWritten := by
    rw [written kept, written othersKept, same]
  rw [← List.forall₂_eq_eq_eq, List.forall₂_map_left_iff,
    List.forall₂_map_right_iff] at served
  exact served

/-- Targets that are written alike are offered the same. -/
theorem offer_agree
    (alike : List.Forall₂ Target.IsWrittenAs targets others)
    (even : Money)
    (pending : Nat)
    (left : Money) :
    Outcome.Agree
      (fun (offered, leftover) (otherOffered, otherLeftover) =>
        List.Forall₂ Share.IsWrittenAs offered otherOffered ∧
          leftover = otherLeftover)
      (offer even pending left targets) (offer even pending left others) := by
  induction alike generalizing even pending left with
  | nil =>
      exact .ok ⟨.nil, rfl⟩
  | @cons target other rest more same _ inductionHypothesis =>
      rw [offer, offer]
      by_cases takesEven : even ≤ target.capacity
      · rw [if_pos takesEven, if_pos ((le_capacity_iff same even).mp takesEven)]
        refine (Outcome.Agree.refl Eq.refl _).bind fun still _ isStill => ?_
        subst isStill
        refine (inductionHypothesis even pending still).bind ?_
        rintro ⟨offered, leftover⟩ ⟨otherOffered, _⟩ ⟨shares, rfl⟩
        exact .ok ⟨.cons ⟨same, rfl⟩ shares, rfl⟩
      · rw [if_neg takesEven, if_neg (mt (le_capacity_iff same even).mpr takesEven),
          Money.subtract_eq_of_settled rfl (capacity_eq_of_isWrittenAs same)]
        refine (Outcome.Agree.refl Eq.refl _).bind fun still _ isStill => ?_
        subst isStill
        refine (Outcome.Agree.refl Eq.refl _).bind fun next _ isNext => ?_
        subst isNext
        refine (inductionHypothesis next (pending - 1) still).bind ?_
        rintro ⟨offered, leftover⟩ ⟨otherOffered, _⟩ ⟨shares, rfl⟩
        exact .ok
          ⟨.cons ⟨same, capacity_eq_of_isWrittenAs same⟩ shares, rfl⟩

/-- In a round, shares that are written alike take the same units. -/
theorem handOutOnce_agree
    (alike : List.Forall₂ Share.IsWrittenAs shares given)
    (unit left : Money) :
    Outcome.Agree HandOut.IsWrittenAs
      (handOutOnce unit left shares) (handOutOnce unit left given) := by
  induction alike generalizing left with
  | nil =>
      exact .ok ⟨.nil, rfl, rfl⟩
  | @cons share other rest more same alike inductionHypothesis =>
      rw [handOutOnce, handOutOnce]
      split
      next =>
        rw [Money.add_eq_of_settled same.amount rfl]
        refine (Outcome.Agree.refl Eq.refl _).bind fun raised _ isRaised => ?_
        subst isRaised
        by_cases hasRoom : raised ≤ share.target.capacity
        · rw [if_pos hasRoom, if_pos ((le_capacity_iff same.target raised).mp hasRoom)]
          refine (Outcome.Agree.refl Eq.refl _).bind fun still _ isStill => ?_
          subst isStill
          refine (inductionHypothesis still).bind fun round otherRound after => ?_
          exact .ok ⟨.cons ⟨same.target, rfl⟩ after.shares, after.left, rfl⟩
        · rw [if_neg hasRoom,
            if_neg (mt (le_capacity_iff same.target raised).mpr hasRoom)]
          refine (inductionHypothesis left).bind fun round otherRound after => ?_
          exact .ok ⟨.cons same after.shares, after.left, after.progressed⟩
      next =>
        exact .ok ⟨.cons same alike, rfl, rfl⟩

/-- Shares that are written alike leave the same slack. -/
theorem slack_eq_of_isWrittenAs
    (alike : List.Forall₂ Share.IsWrittenAs shares given)
    (left : Money) :
    slack left shares = slack left given := by
  rw [slack, slack]
  induction alike with
  | nil =>
      rfl
  | cons same _ inductionHypothesis =>
      rw [List.foldr_cons, List.foldr_cons, inductionHypothesis,
        Money.units_eq_of_settled (capacity_eq_of_isWrittenAs same.target),
        Money.units_eq_of_settled same.amount]

/-- Shares that are written alike are handed out the same units. -/
theorem handOut_agree
    (alike : List.Forall₂ Share.IsWrittenAs shares given)
    (unit left : Money) :
    Outcome.Agree (List.Forall₂ Share.IsWrittenAs)
      (handOut unit left shares) (handOut unit left given) := by
  induction room : slack left shares using Nat.strongRecOn
    generalizing left shares given with
  | ind room inductionHypothesis =>
      subst room
      rw [handOut, handOut]
      split
      next =>
        have once := handOutOnce_agree alike unit left
        cases ran : handOutOnce unit left shares with
        | error halt =>
            rw [ran] at once
            generalize handOutOnce unit left given = outcome at once
            cases once
            exact .error halt
        | ok round =>
            rw [ran] at once
            generalize handOutOnce unit left given = outcome at once
            cases once with
            | @ok _ other after =>
                dsimp only
                rw [← after.progressed, ← after.left,
                  ← slack_eq_of_isWrittenAs after.shares,
                  ← slack_eq_of_isWrittenAs alike]
                split
                next =>
                  split
                  next less =>
                    exact inductionHypothesis _ less after.shares round.left rfl
                  next =>
                    exact .error Halt.endless
                next =>
                  exact .ok after.shares
      next =>
        exact .ok alike

/-- Targets that are written alike share the same. -/
theorem sharesAmong_agree
    (alike : List.Forall₂ Target.IsWrittenAs targets others)
    (total : Money) :
    Outcome.Agree (List.Forall₂ Share.IsWrittenAs)
      (sharesAmong total targets) (sharesAmong total others) := by
  rw [sharesAmong, sharesAmong, alike.length_eq]
  refine (Outcome.Agree.refl Eq.refl _).bind fun even _ isEven => ?_
  subst isEven
  refine (offer_agree alike even others.length total).bind ?_
  rintro ⟨offered, leftover⟩ ⟨otherOffered, _⟩ ⟨shares, rfl⟩
  exact handOut_agree shares _ leftover

/-- The shares of an allocation are the same once they are written. -/
def SharesAlike (shares others : List (AccountId × Money)) : Prop :=
  List.Forall₂
    (fun share other => share.1 = other.1 ∧ share.2.settled = other.2.settled)
    shares others

/-- Of shares that are written alike the same ones are of nothing. -/
theorem ofShares_alike
    (alike : List.Forall₂ Share.IsWrittenAs shares given) :
    SharesAlike (ofShares shares).shares (ofShares given).shares := by
  rw [ofShares, ofShares]
  induction alike with
  | nil =>
      exact .nil
  | @cons share other rest more same _ inductionHypothesis =>
      have nothing : share.amount.isZero = other.amount.isZero :=
        congrArg (· == 0) (Money.units_eq_of_settled same.amount)
      have account : share.target.account = other.target.account :=
        (congrArg Target.account same.target :)
      cases isZero : other.amount.isZero with
      | true =>
          rw [List.filter_cons_of_neg (by simp [nothing, isZero]),
            List.filter_cons_of_neg (by simp [isZero])]
          exact inductionHypothesis
      | false =>
          rw [List.filter_cons_of_pos (by simp [nothing, isZero]),
            List.filter_cons_of_pos (by simp [isZero])]
          exact .cons ⟨account, same.amount⟩ inductionHypothesis

/-- Among targets that are written alike and keep their order a total is split alike. -/
theorem split_agree
    (alike : List.Forall₂ Target.IsWrittenAs targets others)
    (kept : KeepOrder targets)
    (othersKept : KeepOrder others)
    (total : Money) :
    Outcome.Agree (fun allocation other => SharesAlike allocation.shares other.shares)
      (split total targets) (split total others) := by
  have empty : targets.isEmpty = others.isEmpty := by
    cases alike <;> rfl
  rw [split, split, empty]
  split
  next =>
    exact .ok .nil
  next =>
    refine (sharesAmong_agree
      (serviceOrder_isWrittenAs alike kept othersKept) total).bind ?_
    intro shares given sharesAlike
    have allocated := ofShares_alike sharesAlike
    have sameAmounts :
        ((ofShares shares).shares.map Prod.snd).map Money.settled =
          ((ofShares given).shares.map Prod.snd).map Money.settled := by
      rw [List.map_map, List.map_map, ← List.forall₂_eq_eq_eq,
        List.forall₂_map_left_iff, List.forall₂_map_right_iff]
      exact allocated.imp fun _ _ same => same.2
    dsimp only
    rw [Allocation.total, Allocation.total,
      Money.sum_eq_of_settled sameAmounts]
    refine (Outcome.Agree.refl Eq.refl _).bind fun sum _ isSum => ?_
    subst isSum
    split
    next =>
      exact .ok allocated
    next =>
      exact .error _

end Allocation

end PatronFees
