import PatronFees.Proofs.Allocation.Split

namespace PatronFees.Allocation

open List

/-!
# Who is served

Whatever the amounts come to, an allocation serves targets and nobody else:
offers and rounds of units give each target one share, in the order of service,
so each account of the targets has one share at most.
-/

/-- Offers give each target a share. -/
theorem map_target_of_offer
    {even left leftover : Money}
    {pending : Nat}
    {targets : List Target}
    {shares : List Share}
    (offered : offer even pending left targets = .ok (shares, leftover)) :
    shares.map (·.target) = targets := by
  induction targets generalizing even pending left shares leftover with
  | nil =>
      obtain ⟨rfl, -⟩ := Prod.mk.inj (Except.ok.inj offered)
      rfl
  | cons target rest inductionHypothesis =>
      by_cases takesEven : even ≤ target.capacity
      · obtain ⟨_, others, -, offeredRest, rfl⟩ :=
          (offer_cons_of_room takesEven).mp offered
        rw [List.map_cons, inductionHypothesis offeredRest]
      · obtain ⟨_, _, others, -, -, offeredRest, rfl⟩ :=
          (offer_cons_of_filled takesEven).mp offered
        rw [List.map_cons, inductionHypothesis offeredRest]

/-- A round of units keeps the targets of the shares. -/
theorem HandsOut.map_target
    {unit left : Money}
    {shares : List Share}
    {round : HandOut}
    (handed : HandsOut unit left shares round) :
    round.shares.map (·.target) = shares.map (·.target) := by
  induction handed with
  | nobody =>
      rfl
  | nothing =>
      rfl
  | takes _ _ _ _ _ inductionHypothesis =>
      rw [List.map_cons, List.map_cons, inductionHypothesis]
  | full _ _ _ _ inductionHypothesis =>
      rw [List.map_cons, List.map_cons, inductionHypothesis]

/-- Handing out units keeps the targets of the shares. -/
theorem map_target_of_handOut
    {unit left : Money}
    {shares final : List Share}
    (handed : handOut unit left shares = .ok final) :
    final.map (·.target) = shares.map (·.target) := by
  fun_induction handOut unit left shares with
  | case1 left shares positive halt failed =>
      cases handed
  | case2 left shares positive round once progressed less inductionHypothesis =>
      rw [inductionHypothesis handed, (handsOut_of_handOutOnce once).map_target]
  | case3 left shares positive round once progressed notLess =>
      cases handed
  | case4 left shares positive round once idle =>
      obtain rfl := Except.ok.inj handed
      exact (handsOut_of_handOutOnce once).map_target
  | case5 left shares nothing =>
      obtain rfl := Except.ok.inj handed
      rfl

/-- Spreading a total gives each target a share, in the order given. -/
theorem map_target_of_sharesAmong
    {total : Money}
    {ordered : List Target}
    {shares : List Share}
    (shared : sharesAmong total ordered = .ok shares) :
    shares.map (·.target) = ordered := by
  obtain ⟨even, -, onward⟩ := Outcome.bind_eq_ok_iff.mp shared
  obtain ⟨⟨offeredShares, left⟩, offered, handed⟩ :=
    Outcome.bind_eq_ok_iff.mp onward
  rw [map_target_of_handOut handed, map_target_of_offer offered]

/-- The accounts of an allocation are accounts of its targets, each once. -/
theorem accounts_of_split
    {total : Money}
    {targets : List Target}
    {allocation : Allocation}
    (allocated : split total targets = .ok allocation) :
    (allocation.shares.map Prod.fst).Subperm (targets.map (·.account)) := by
  rw [split] at allocated
  split at allocated
  next =>
    obtain rfl := Except.ok.inj allocated
    exact List.nil_subperm
  next =>
    obtain ⟨shares, shared, onward⟩ := Outcome.bind_eq_ok_iff.mp allocated
    obtain ⟨_, -, last⟩ := Outcome.bind_eq_ok_iff.mp onward
    split at last
    next =>
      obtain rfl := Except.ok.inj last
      have served := accounts_ofShares_sublist shares
      rw [map_target_of_sharesAmong shared] at served
      have ordered :
          ((serviceOrder targets).map (·.account)).Subperm
            (targets.map (·.account)) :=
        ((serviceOrder_perm targets).map _).subperm.trans
          (List.filter_sublist.map _).subperm
      exact served.subperm.trans ordered
    next =>
      cases last

end PatronFees.Allocation
