import PatronFees.Proofs.Allocation.CoarseSplit
import PatronFees.Proofs.Money.LostDigits

namespace PatronFees.Allocation

/-!
# Rounds of units

A unit is taken by a target and from what is left. On either it may be lost: on
what is left from `2 ^ 96` units on, and on a share with fewer digits than the unit.
A round uses slack up unless both may happen to a unit.
-/

variable {scale : Nat} {left : Money} {shares : List Share} {share : Share}
  {round : HandOut}

/-- The share is at most the capacity of its target. -/
def IsWithin (share : Share) : Prop :=
  share.amount.units ≤ share.target.capacity.units

/-- Units of a scale are lost on the share, or on what it may grow to. -/
def IsBottomless
    (scale : Nat)
    (share : Share) : Prop :=
  share.amount.amount.digits < scale ∨
    (twoTo 96 * tenTo (28 - scale) : Nat) ≤ share.target.capacity.units

instance (scale : Nat) (share : Share) : Decidable (IsBottomless scale share) :=
  inferInstanceAs (Decidable (_ ∨ _))

/-- What is left has all its digits, or units are lost on it. -/
theorem hasAllDigits_or_lost
    (left_scale : left.scale = scale) :
    left.HasAllDigits ∨ left.amount.digits < scale := by
  rcases Nat.lt_or_ge left.amount.digits scale with lost | reaches
  · exact .inr lost
  · exact .inl (Nat.le_antisymm left.digits_le (left_scale ▸ reaches))

section Slack

variable {first second : Money}

/-- Slack differs by what is left alone. -/
theorem slack_add
    (first second : Money)
    (shares : List Share) :
    slack first shares + second.units.toNat =
      slack second shares + first.units.toNat := by
  induction shares with
  | nil =>
      exact Nat.add_comm _ _
  | cons share rest inductionHypothesis =>
      change (_ + slack first rest) + _ = (_ + slack second rest) + _
      omega

theorem slack_le_slack
    (less : first.units ≤ second.units)
    (shares : List Share) :
    slack first shares ≤ slack second shares := by
  have same := slack_add first second shares
  omega

theorem slack_lt_slack
    (less : first.units < second.units)
    (positive : 0 < second.units)
    (shares : List Share) :
    slack first shares < slack second shares := by
  have same := slack_add first second shares
  omega

end Slack

section Unit

variable (capped : scale ≤ Money.maxScale)

include capped

section Share

variable {raised : Money}
  (added : share.amount.add (Money.smallestUnit scale) = .ok raised)

include added

/-- A unit never makes a share less. -/
theorem units_le_of_added :
    share.amount.units ≤ raised.units := by
  rcases Nat.lt_or_ge share.amount.amount.digits scale with lost | reaches
  · obtain ⟨same, alsoAdded, amount, -⟩ := Money.add_smallestUnit_of_lost capped lost
    obtain rfl := Except.ok.inj (alsoAdded.symm.trans added)
    rw [Money.units, Money.units, amount]
  · exact Int.le_of_lt (Money.units_lt_of_add_smallestUnit capped reaches added)

/-- A unit makes a share more that cannot take units forever. -/
theorem units_lt_of_added
    (bounded : ¬ IsBottomless scale share) :
    share.amount.units < raised.units := by
  have reaches : scale ≤ share.amount.amount.digits :=
    Nat.le_of_not_lt fun lost => bounded (.inl lost)
  exact Money.units_lt_of_add_smallestUnit capped reaches added

/-- Taking a unit changes nothing about taking units forever. -/
theorem isBottomless_of_added
    (room : raised ≤ share.target.capacity) :
    IsBottomless scale ⟨share.target, raised⟩ ↔ IsBottomless scale share := by
  rcases Nat.lt_or_ge share.amount.amount.digits scale with lost | reaches
  · obtain ⟨same, alsoAdded, amount, -⟩ := Money.add_smallestUnit_of_lost capped lost
    obtain rfl := Except.ok.inj (alsoAdded.symm.trans added)
    simp only [IsBottomless, amount]
  · constructor
    · rintro (lost | huge)
      · exact .inr (Int.le_trans
          (Money.le_units_of_add_smallestUnit capped reaches added lost) room)
      · exact .inr huge
    · rintro (lost | huge)
      · omega
      · exact .inr huge

end Share

/-- A unit can always be taken by a target that takes them forever. -/
theorem room_of_isBottomless
    {raised : Money}
    (within : IsWithin share)
    (bottomless : IsBottomless scale share)
    (added : share.amount.add (Money.smallestUnit scale) = .ok raised) :
    raised ≤ share.target.capacity := by
  rcases bottomless with lost | huge
  · obtain ⟨same, alsoAdded, amount, -⟩ := Money.add_smallestUnit_of_lost capped lost
    obtain rfl := Except.ok.inj (alsoAdded.symm.trans added)
    change same.amount.finestUnits ≤ _
    rw [amount]
    exact within
  · obtain ⟨same, alsoAdded, room⟩ :=
      Money.exists_add_smallestUnit_le capped huge within
    obtain rfl := Except.ok.inj (alsoAdded.symm.trans added)
    exact room

/-- A unit taken from what is left is lost on it, or makes it one less. -/
theorem cases_of_subtracted
    {still : Money}
    (left_scale : left.scale = scale)
    (remains : left.isPositive = true)
    (subtracted : left.subtract (Money.smallestUnit scale) = .ok still) :
    still.scale = scale ∧
      (left.amount.digits < scale ∧ still.amount = left.amount ∨
        left.HasAllDigits ∧ still.minorUnits = left.minorUnits - 1) := by
  rcases Nat.lt_or_ge left.amount.digits scale with lost | reaches
  · obtain ⟨same, alsoSubtracted, amount, same_scale⟩ :=
      Money.subtract_smallestUnit_of_lost capped lost
    obtain rfl := Except.ok.inj (alsoSubtracted.symm.trans subtracted)
    exact ⟨same_scale.trans left_scale, .inl ⟨lost, amount⟩⟩
  · have allDigits : left.HasAllDigits :=
      Nat.le_antisymm left.digits_le (left_scale ▸ reaches)
    have left_lt := Money.minorUnits_lt allDigits
    obtain ⟨still_scale, still_units⟩ :=
      units_of_subtracted capped left_scale (by omega) remains subtracted
    exact ⟨still_scale, .inr ⟨allDigits, still_units⟩⟩

/-- A unit is never added to what is left. -/
theorem still_le_of_subtracted
    {still : Money}
    (left_scale : left.scale = scale)
    (remains : left.isPositive = true)
    (subtracted : left.subtract (Money.smallestUnit scale) = .ok still) :
    still.units ≤ left.units := by
  obtain ⟨still_scale, ⟨-, amount⟩ | ⟨-, still_units⟩⟩ :=
    cases_of_subtracted capped left_scale remains subtracted
  · rw [Money.units, Money.units, amount]
  · refine (Money.le_iff (left_scale.trans still_scale.symm)).mpr ?_
    omega

/-- A unit is taken from what is left where it has all its digits. -/
theorem still_lt_of_subtracted
    {still : Money}
    (left_scale : left.scale = scale)
    (remains : left.isPositive = true)
    (allDigits : left.HasAllDigits)
    (subtracted : left.subtract (Money.smallestUnit scale) = .ok still) :
    still.units < left.units := by
  obtain ⟨still_scale, ⟨lost, -⟩ | ⟨-, still_units⟩⟩ :=
    cases_of_subtracted capped left_scale remains subtracted
  · rw [Money.HasAllDigits] at allDigits
    omega
  · refine (Money.lt_iff (left_scale.trans still_scale.symm)).mpr ?_
    omega

section Round

variable
  (left_scale : left.scale = scale)
  (handed : HandsOut (Money.smallestUnit scale) left shares round)

include left_scale handed

theorem scale_of_handsOut :
    round.left.scale = scale := by
  induction handed with
  | nobody =>
      exact left_scale
  | nothing =>
      exact left_scale
  | takes remains _ _ subtracted _ inductionHypothesis =>
      exact inductionHypothesis
        (cases_of_subtracted capped left_scale remains subtracted).1
  | full _ _ _ _ inductionHypothesis =>
      exact inductionHypothesis left_scale

/-- What is left keeps its amount where units are lost on it. -/
theorem amount_left_of_handsOut
    (lost : left.amount.digits < scale) :
    round.left.amount = left.amount := by
  induction handed with
  | nobody =>
      rfl
  | nothing =>
      rfl
  | takes remains _ _ subtracted _ inductionHypothesis =>
      obtain ⟨still_scale, ⟨-, amount⟩ | ⟨allDigits, -⟩⟩ :=
        cases_of_subtracted capped left_scale remains subtracted
      · exact (inductionHypothesis still_scale (amount ▸ lost)).trans amount
      · rw [Money.HasAllDigits] at allDigits
        omega
  | full _ _ _ _ inductionHypothesis =>
      exact inductionHypothesis left_scale lost

/-- With all its digits, what is left falls with each unit that is taken. -/
theorem left_of_handsOut
    (allDigits : left.HasAllDigits) :
    round.left.HasAllDigits ∧
      round.left.minorUnits ≤ left.minorUnits ∧
      (round.progressed = true → round.left.minorUnits < left.minorUnits) := by
  induction handed with
  | nobody =>
      exact ⟨allDigits, Int.le_refl _, Bool.noConfusion⟩
  | nothing =>
      exact ⟨allDigits, Int.le_refl _, Bool.noConfusion⟩
  | @takes left raised still share rest after remains added room subtracted others
      inductionHypothesis =>
      have positive := left.isPositive_iff.mp remains
      have left_lt := Money.minorUnits_lt allDigits
      obtain ⟨still_scale, ⟨lost, -⟩ | ⟨-, still_units⟩⟩ :=
        cases_of_subtracted capped left_scale remains subtracted
      · rw [Money.HasAllDigits] at allDigits
        omega
      · obtain ⟨afterDigits, notMore, -⟩ :=
          inductionHypothesis still_scale (Money.hasAllDigits_of_lt (by omega))
        exact ⟨afterDigits, by dsimp only; omega, fun _ => by dsimp only; omega⟩
  | full _ _ _ _ inductionHypothesis =>
      exact inductionHypothesis left_scale allDigits

/-- A round that progresses takes from what is left exactly if that has all its digits. -/
theorem left_lt_iff_of_progressed
    (progressed : round.progressed = true) :
    round.left < left ↔ left.HasAllDigits := by
  have round_scale := scale_of_handsOut capped left_scale handed
  rw [Money.lt_iff (left_scale.trans round_scale.symm)]
  constructor
  · intro less
    refine (hasAllDigits_or_lost left_scale).resolve_right fun lost => ?_
    have same := amount_left_of_handsOut capped left_scale handed lost
    rw [Money.minorUnits, Money.minorUnits, same, left_scale, round_scale] at less
    exact Int.lt_irrefl _ less
  · intro allDigits
    exact (left_of_handsOut capped left_scale handed allDigits).2.2 progressed

/-- No round makes slack. -/
theorem slack_le_of_handsOut :
    slack round.left round.shares ≤ slack left shares := by
  induction handed with
  | nobody =>
      exact Nat.le_refl _
  | nothing =>
      exact Nat.le_refl _
  | @takes left raised still share rest after remains added room subtracted others
      inductionHypothesis =>
      have still_scale := (cases_of_subtracted capped left_scale remains subtracted).1
      have behind := inductionHypothesis still_scale
      have notMore :=
        slack_le_slack (still_le_of_subtracted capped left_scale remains subtracted) rest
      have grows := units_le_of_added capped added
      change (share.target.capacity.units - raised.units).toNat +
          slack after.left after.shares ≤
        (share.target.capacity.units - share.amount.units).toNat + slack left rest
      omega
  | full _ _ _ _ inductionHypothesis =>
      exact Nat.add_le_add_left (inductionHypothesis left_scale) _

/--
A round that progresses uses slack up if what is left has all its digits, or if
nobody takes units forever.
-/
theorem slack_lt_of_handsOut
    (progressed : round.progressed = true)
    (ends : left.HasAllDigits ∨ ∀ share ∈ shares, ¬ IsBottomless scale share) :
    slack round.left round.shares < slack left shares := by
  induction handed with
  | nobody =>
      cases progressed
  | nothing =>
      cases progressed
  | @takes left raised still share rest after remains added room subtracted others
      inductionHypothesis =>
      have still_scale := (cases_of_subtracted capped left_scale remains subtracted).1
      have behind := slack_le_of_handsOut capped still_scale others
      have still_le := still_le_of_subtracted capped left_scale remains subtracted
      have notMore := slack_le_slack still_le rest
      have grows := units_le_of_added capped added
      change (share.target.capacity.units - raised.units).toNat +
          slack after.left after.shares <
        (share.target.capacity.units - share.amount.units).toNat + slack left rest
      rcases ends with allDigits | bounded
      · have less := slack_lt_slack
          (still_lt_of_subtracted capped left_scale remains allDigits subtracted)
          (of_decide_eq_true remains) rest
        omega
      · have more :=
          units_lt_of_added capped added (bounded share List.mem_cons_self)
        have within : raised.units ≤ share.target.capacity.units := room
        omega
  | full _ _ _ others inductionHypothesis =>
      refine Nat.add_lt_add_left (inductionHypothesis left_scale progressed ?_) _
      exact ends.imp_right fun bounded other member =>
        bounded other (List.mem_cons_of_mem _ member)

end Round

/-- A round leaves targets that take units forever, if there were any. -/
theorem exists_isBottomless_iff
    (handed : HandsOut (Money.smallestUnit scale) left shares round) :
    (∃ share ∈ round.shares, IsBottomless scale share) ↔
      ∃ share ∈ shares, IsBottomless scale share := by
  induction handed with
  | nobody =>
      exact Iff.rfl
  | nothing =>
      exact Iff.rfl
  | takes _ added room _ _ inductionHypothesis =>
      simp only [List.exists_mem_cons_iff, isBottomless_of_added capped added room,
        inductionHypothesis]
  | full _ _ _ _ inductionHypothesis =>
      simp only [List.exists_mem_cons_iff, inductionHypothesis]

omit capped in
/-- Shares stay within the capacities of their targets. -/
theorem isWithin_of_handsOut
    {unit : Money}
    (within : ∀ share ∈ shares, IsWithin share)
    (handed : HandsOut unit left shares round) :
    ∀ share ∈ round.shares, IsWithin share := by
  induction handed with
  | nobody =>
      exact within
  | nothing =>
      exact within
  | takes _ _ room _ _ inductionHypothesis =>
      exact List.forall_mem_cons.mpr
        ⟨room, inductionHypothesis (List.forall_mem_cons.mp within).2⟩
  | full _ _ _ _ inductionHypothesis =>
      obtain ⟨first, others⟩ := List.forall_mem_cons.mp within
      exact List.forall_mem_cons.mpr ⟨first, inductionHypothesis others⟩

/--
Where units are lost on what is left, every round runs, and it progresses if
somebody takes units forever.
-/
theorem exists_handOutOnce_of_lost
    (within : ∀ share ∈ shares, IsWithin share)
    (remains : left.isPositive = true)
    (lost : left.amount.digits < scale) :
    ∃ round,
      handOutOnce (Money.smallestUnit scale) left shares = .ok round ∧
        ((∃ share ∈ shares, IsBottomless scale share) → round.progressed = true) := by
  induction shares generalizing left with
  | nil =>
      refine ⟨⟨[], left, false⟩, rfl, ?_⟩
      rintro ⟨_, member, _⟩
      cases member
  | cons share rest inductionHypothesis =>
      obtain ⟨firstWithin, restWithin⟩ := List.forall_mem_cons.mp within
      obtain ⟨raised, added⟩ :=
        Money.exists_add_smallestUnit capped (Nat.zero_lt_of_lt lost) share.amount
      rw [handOutOnce, if_pos remains]
      simp only [added, Outcome.ok_bind]
      by_cases room : raised ≤ share.target.capacity
      · obtain ⟨still, subtracted, amount, -⟩ :=
          Money.subtract_smallestUnit_of_lost capped lost
        have stillRemains : still.isPositive = true := by
          rw [Money.isPositive, Money.units, amount]
          exact remains
        obtain ⟨after, ran, -⟩ :=
          inductionHypothesis restWithin stillRemains (amount ▸ lost)
        refine ⟨⟨⟨share.target, raised⟩ :: after.shares, after.left, true⟩, ?_,
          fun _ => rfl⟩
        rw [if_pos room]
        simp only [subtracted, Outcome.ok_bind, ran, Outcome.pure_eq]
      · obtain ⟨after, ran, progresses⟩ :=
          inductionHypothesis restWithin remains lost
        refine ⟨⟨share :: after.shares, after.left, after.progressed⟩, ?_,
          fun bottomless => progresses ?_⟩
        · rw [if_neg room]
          simp only [ran, Outcome.ok_bind, Outcome.pure_eq]
        · refine (List.exists_mem_cons_iff _ _ _).mp bottomless |>.resolve_left ?_
          exact fun first => room (room_of_isBottomless capped firstWithin first added)

end Unit

end PatronFees.Allocation
