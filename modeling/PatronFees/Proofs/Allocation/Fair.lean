import PatronFees.Proofs.Allocation.Level
import PatronFees.Proofs.Allocation.Served

namespace PatronFees.Allocation

/-!
# Fair splits

Where the even share has room for its digits, a split is max-min fair: there is a
level that every target receives, or its whole capacity where that is less, and
the first targets in the order of service receive a unit more.
-/

/-- The units that an account receives. -/
def received
    (allocation : Allocation)
    (account : AccountId) : Int :=
  ((allocation.get? account).map Money.minorUnits).getD 0

/-- What it is for an allocation to distribute a total fairly, at some level. -/
structure IsFair
    (total : Money)
    (targets : List Target)
    (allocation : Allocation)
    (level : Int) : Prop where
  adds :
    Money.unitsOf (allocation.shares.map Prod.snd) = total.minorUnits
  level_nonneg : 0 ≤ level
  /-- Nobody receives less than the level or more than a unit above it. -/
  receives :
    ∀ target ∈ targets,
      0 < target.capacity.minorUnits →
        allocation.received target.account =
            min target.capacity.minorUnits level ∨
          allocation.received target.account =
            min target.capacity.minorUnits (level + 1)
  /-- Who receives a unit more is served before everybody who would take one. -/
  inOrder :
    ∀ first ∈ targets, ∀ second ∈ targets,
      allocation.received first.account = level + 1 →
        allocation.received second.account = level →
          level < second.capacity.minorUnits →
            first.compare second = .lt

section Received

variable {shares : List Share} {share : Share} {account : AccountId}

/-- The first share for an account is what it receives, unless it is nothing. -/
theorem received_cons
    (first : Share)
    (rest : List Share) :
    (ofShares (first :: rest)).received account =
      if account = first.target.account ∧ first.amount.isZero = false then
        first.amount.minorUnits
      else
        (ofShares rest).received account := by
  simp only [received, get?, shares_ofShares, List.filter_cons]
  cases nothing : first.amount.isZero with
  | true =>
      simp
  | false =>
      by_cases same : account = first.target.account
      · simp [same]
      · simp [same, List.lookup_cons, beq_false_of_ne same]

/-- An account that no target has receives nothing. -/
theorem received_of_not_mem
    (other : account ∉ shares.map (·.target.account)) :
    (ofShares shares).received account = 0 := by
  induction shares with
  | nil =>
      rfl
  | cons first rest inductionHypothesis =>
      have different : account ≠ first.target.account :=
        List.ne_of_not_mem_cons other
      rw [received_cons, if_neg fun same => different same.1]
      exact inductionHypothesis (List.not_mem_of_not_mem_cons other)

/-- Each target receives its share, shares of nothing included. -/
theorem received_ofShares
    (distinct : (shares.map (·.target.account)).Nodup)
    (member : share ∈ shares) :
    (ofShares shares).received share.target.account =
      share.amount.minorUnits := by
  induction shares with
  | nil =>
      cases member
  | cons first rest inductionHypothesis =>
      obtain ⟨fresh, restDistinct⟩ := List.nodup_cons.mp distinct
      rw [received_cons]
      rcases List.mem_cons.mp member with rfl | behind
      · split
        next =>
          rfl
        next nothing =>
          have zero : share.amount.isZero = true := by
            simpa using nothing
          rw [received_of_not_mem fresh, share.amount.isZero_iff.mp zero]
      · have different : share.target.account ≠ first.target.account := by
          intro same
          apply fresh
          dsimp only
          rw [← same]
          exact List.mem_map_of_mem behind
        rw [if_neg fun same => different same.1]
        exact inductionHypothesis restDistinct behind

end Received

section Fairness

variable {total : Money} {targets : List Target} {shares : List Share}
  {level : Int}

section Order

variable {target : Target}
  (distinct : (targets.map (·.account)).Nodup)
  (sameTargets : shares.map (·.target) = serviceOrder targets)
  (member : target ∈ targets)

include distinct sameTargets member

/-- A target with room has a share, and that is what it receives. -/
theorem exists_share_of_room
    (positive : 0 < target.capacity.minorUnits) :
    ∃ share ∈ shares,
      share.target = target ∧
        (ofShares shares).received target.account = share.amount.minorUnits := by
  have served := mem_serviceOrder.mpr ⟨member, positive⟩
  rw [← sameTargets] at served
  obtain ⟨share, among, rfl⟩ := List.mem_map.mp served
  have servedDistinct := nodup_serviceOrder distinct
  rw [← sameTargets, List.map_map] at servedDistinct
  exact ⟨share, among, rfl, received_ofShares servedDistinct among⟩

/-- A target without room receives nothing. -/
theorem received_of_no_room
    (noRoom : ¬ 0 < target.capacity.minorUnits) :
    (ofShares shares).received target.account = 0 := by
  refine received_of_not_mem fun present => ?_
  obtain ⟨share, among, same⟩ := List.mem_map.mp present
  have served : share.target ∈ serviceOrder targets :=
    sameTargets ▸ List.mem_map_of_mem among
  obtain ⟨servedMember, positive⟩ := mem_serviceOrder.mp served
  rw [List.inj_on_of_nodup_map distinct servedMember member same] at positive
  exact noRoom positive

end Order

/-- Shares near a level, in the order of service, are a fair allocation. -/
theorem isFair_of_areNearLevel
    (distinct : (targets.map (·.account)).Nodup)
    (sameTargets : shares.map (·.target) = serviceOrder targets)
    (adds : unitsShared shares = total.minorUnits)
    (level_nonneg : 0 ≤ level)
    (near : AreNearLevel level shares) :
    (ofShares shares).IsFair total targets level := by
  obtain ⟨raised, waiting, together, up, still⟩ := near
  have inOrder := serviceOrder_pairwise_lt distinct
  rw [← sameTargets, List.pairwise_map, together, List.pairwise_append] at inOrder
  refine
    { adds := (unitsOf_ofShares shares).trans adds
      level_nonneg := level_nonneg
      receives := ?_
      inOrder := ?_ }
  · intro target member positive
    obtain ⟨share, among, rfl, units⟩ :=
      exists_share_of_room distinct sameTargets member positive
    rw [units]
    rw [together] at among
    rcases List.mem_append.mp among with first | later
    · exact .inr (up share first)
    · exact .inl (still share later)
  · intro first firstMember second secondMember more less roomy
    have firstPositive : 0 < first.capacity.minorUnits := by
      by_contra noRoom
      rw [received_of_no_room distinct sameTargets firstMember noRoom] at more
      omega
    obtain ⟨earlier, earlierAmong, rfl, earlierUnits⟩ :=
      exists_share_of_room distinct sameTargets firstMember firstPositive
    obtain ⟨later, laterAmong, rfl, laterUnits⟩ :=
      exists_share_of_room distinct sameTargets secondMember (by omega)
    rw [earlierUnits] at more
    rw [laterUnits] at less
    rw [together] at earlierAmong laterAmong
    rcases List.mem_append.mp earlierAmong with isRaised | waits
    · rcases List.mem_append.mp laterAmong with alsoRaised | waits
      · have units := up later alsoRaised
        omega
      · exact inOrder.2.2 earlier isRaised later waits
    · have units := still earlier waits
      omega

/-- Sound shares near a level that add up to the total are what a split comes to. -/
theorem split_fair_of_shares
    (nonempty : targets ≠ [])
    (distinct : (targets.map (·.account)).Nodup)
    (shared : sharesAmong total (serviceOrder targets) = .ok shares)
    (sound : Money.AreSound total.scale (shares.map (·.amount)))
    (total_lt : total.minorUnits < twoTo 96)
    (adds : unitsShared shares = total.minorUnits)
    (level_nonneg : 0 ≤ level)
    (near : AreNearLevel level shares) :
    split total targets = .ok (ofShares shares) ∧
      (ofShares shares).IsFair total targets level := by
  obtain ⟨allocated, allocatedScale, allocatedUnits, outcome⟩ :=
    split_of_sound nonempty shared
      (sound.of_subset (amounts_ofShares_sublist shares).subset) (by omega)
  have balanced : allocated.equals total = true :=
    (Money.equals_iff allocatedScale.symm).mpr (allocatedUnits.trans adds)
  refine ⟨by rw [outcome, if_pos balanced], ?_⟩
  exact isFair_of_areNearLevel distinct (map_target_of_sharesAmong shared) adds
    level_nonneg near

end Fairness

section Sharing

variable {scale spare : Nat} {served : List Target} {total : Money}

/-- Shares among targets in the order of service are near a level. -/
theorem areNearLevel_of_sharesAmong
    {shares : List Share}
    (isOpen : ∀ target ∈ served, IsOpenTo total.scale target)
    (ordered :
      served.Pairwise fun first second => first.precedes second = true)
    (few : served.length ≤ tenTo spare)
    (within : total.scale + spare ≤ 28)
    (roomy : total.minorUnits * tenTo spare < twoTo 96)
    (nonneg : 0 ≤ total.minorUnits)
    (shared : sharesAmong total served = .ok shares) :
    ∃ level, 0 ≤ level ∧ AreNearLevel level shares := by
  have capped : tenTo spare < twoTo 96 := tenTo_lt_twoTo (by omega)
  have total_lt := le_mul_tenTo nonneg spare
  have byCapacity :=
    pairwise_capacity_le (fun target member => (isOpen target member).scale_eq)
      ordered
  obtain ⟨even, evenly, onward⟩ := Outcome.bind_eq_ok_iff.mp shared
  obtain ⟨⟨offers, left⟩, offered, handed⟩ := Outcome.bind_eq_ok_iff.mp onward
  obtain ⟨_, _, alsoOffered, spreads⟩ :=
    offer_spreads isOpen byCapacity (by omega) evenly rfl nonneg (by omega)
  obtain ⟨rfl, rfl⟩ := Prod.mk.inj (Except.ok.inj (alsoOffered.symm.trans offered))
  obtain ⟨level, above, atLevel⟩ :=
    exists_areAtLevel_of_offer isOpen byCapacity few within roomy evenly rfl nonneg
      offered
  have adds := spreads.adds
  have offersNonneg := unitsShared_nonneg spreads.fits
  have evenNonneg : 0 ≤ even.minorUnits := by
    obtain ⟨same, alsoEvenly, -, evenNonneg, -⟩ :=
      evenShare_between (Money.hasAllDigits_of_lt (by omega)) nonneg
        (show served.length < twoTo 96 by omega)
    obtain rfl := Except.ok.inj (alsoEvenly.symm.trans evenly)
    exact evenNonneg
  exact exists_areNearLevel_of_handOut total.scale_le spreads.fits atLevel
    (by omega) spreads.left_scale spreads.left_nonneg (by omega) handed

/-- One target with room for the total receives it, however much that is. -/
theorem sharesAmong_alone
    (sameScale : ∀ target ∈ served, target.capacity.scale = total.scale)
    (alone : served.length ≤ 1)
    (allDigits : total.HasAllDigits)
    (nonneg : 0 ≤ total.minorUnits)
    (enough : total.minorUnits ≤ unitsOfRoom served) :
    ∃ shares,
      sharesAmong total served = .ok shares ∧
        Money.AreSound total.scale (shares.map (·.amount)) ∧
        unitsShared shares = total.minorUnits ∧
        AreAtLevel total.minorUnits shares := by
  have total_lt := Money.minorUnits_lt allDigits
  cases served with
  | nil =>
      rw [unitsOfRoom_nil] at enough
      have nothing := mt total.isPositive_iff.mp (show ¬ 0 < total.minorUnits by omega)
      refine ⟨[], ?_, List.forall_mem_nil _, ?_, .nil⟩
      · rw [sharesAmong, List.length_nil, evenShare, if_pos rfl]
        simp only [Outcome.ok_bind, offer]
        rw [handOut, if_neg nothing]
      · rw [unitsShared_nil]
        omega
  | cons target rest =>
      obtain rfl : rest = [] := List.length_eq_zero_iff.mp
        (by rw [List.length_cons] at alone; omega)
      rw [unitsOfRoom_cons, unitsOfRoom_nil] at enough
      obtain ⟨even, evenly, even_scale, above, below⟩ :=
        evenShare_near allDigits nonneg Nat.one_pos (by decide)
      have even_units : even.minorUnits = total.minorUnits :=
        Int.le_antisymm (below _ (by omega)) (above _ (by omega))
      have takesEven : even ≤ target.capacity :=
        (Money.le_iff
          ((sameScale target List.mem_cons_self).trans even_scale.symm)).mpr
          (by omega)
      have amountScale := Money.scale_min even_scale.symm
      have amountUnits := Money.minorUnits_min even_scale.symm
      obtain ⟨left, subtracted, -, left_units⟩ :=
        Money.subtract_eq (amountScale.trans even_scale)
          (by omega) (by omega) (by omega)
      have nothing := mt left.isPositive_iff.mp (show ¬ 0 < left.minorUnits by omega)
      refine ⟨[⟨target, min even total⟩], ?_, ?_, ?_, ?_⟩
      · have offered :
            offer even 1 total [target] = .ok ([⟨target, min even total⟩], left) :=
          (offer_cons_of_room takesEven).mpr ⟨left, [], subtracted, rfl, rfl⟩
        rw [sharesAmong, List.length_singleton, evenly, Outcome.ok_bind, offered]
        simp only [Outcome.ok_bind]
        rw [handOut, if_neg nothing]
      · refine List.forall_mem_singleton.mpr ⟨amountScale.trans even_scale, ?_⟩
        dsimp only
        omega
      · rw [unitsShared_cons, unitsShared_nil]
        dsimp only
        omega
      · exact .cons (by dsimp only; omega) .nil

end Sharing

/--
A split is max-min fair. With as many spare digits as the number of targets has,
both at the scale and in what the targets have room for, each target receives its
capacity or a level that is the same for all, and the first in the order of
service that would take more receive a unit more.
-/
theorem split_is_fair
    {spare : Nat}
    {total : Money}
    {targets : List Target}
    (distinct : (targets.map (·.account)).Nodup)
    (sameScale : ∀ target ∈ targets, target.capacity.scale = total.scale)
    (few : targets.length ≤ tenTo spare)
    (within : total.scale + spare ≤ 28)
    (roomy : positiveRoom targets * tenTo spare < twoTo 96)
    (nonneg : 0 ≤ total.minorUnits)
    (enough : total.minorUnits ≤ positiveRoom targets) :
    ∃ allocation level,
      split total targets = .ok allocation ∧
        allocation.IsFair total targets level := by
  have servedRoom := unitsOfRoom_serviceOrder targets
  have servedFew : (serviceOrder targets).length ≤ targets.length :=
    (serviceOrder_perm targets).length_eq ▸ List.length_filter_le _ _
  have room_nonneg : 0 ≤ positiveRoom targets := by omega
  have room_lt := le_mul_tenTo room_nonneg spare
  have total_lt : total.minorUnits < twoTo 96 := by omega
  have allDigits : total.HasAllDigits := Money.hasAllDigits_of_lt (by omega)
  by_cases nonempty : targets = []
  · obtain rfl := nonempty
    have nothing : positiveRoom [] = 0 := rfl
    refine ⟨empty, 0, rfl, ?_⟩
    have near : AreNearLevel 0 [] := AreAtLevel.nil.areNearLevel
    have nobody : ([] : List Share).map (·.target) = serviceOrder [] :=
      List.mergeSort_nil.symm
    exact isFair_of_areNearLevel distinct nobody
      (by rw [unitsShared_nil]; omega) (Int.le_refl 0) near
  cases spare with
  | zero =>
      have servedScale :
          ∀ target ∈ serviceOrder targets, target.capacity.scale = total.scale :=
        fun target member => sameScale target (mem_serviceOrder.mp member).1
      obtain ⟨shares, shared, sound, adds, atLevel⟩ :=
        sharesAmong_alone servedScale (Nat.le_trans servedFew few) allDigits nonneg
          (by omega)
      exact ⟨_, _, split_fair_of_shares nonempty distinct shared sound total_lt adds
        nonneg atLevel.areNearLevel⟩
  | succ spare =>
      -- One spare digit keeps what units are added to within bounds.
      have bounded : positiveRoom targets < twoTo 95 := by
        have tenfold : tenTo 1 ≤ tenTo (spare + 1) := tenTo_le_tenTo (by omega)
        have less := Int.mul_le_mul_of_nonneg_left
          (show (10 : Int) ≤ tenTo (spare + 1) from Int.ofNat_le.mpr tenfold)
          room_nonneg
        have double : twoTo 96 = 2 * twoTo 95 := twoTo_succ 95
        omega
      have isOpen := isOpenTo_of_served sameScale bounded
      have ordered := serviceOrder_pairwise targets
      have spareCapped : tenTo (spare + 1) < twoTo 96 := tenTo_lt_twoTo (by omega)
      have totalRoomy : total.minorUnits * tenTo (spare + 1) < twoTo 96 := by
        have less := Int.mul_le_mul_of_nonneg_right enough
          (show (0 : Int) ≤ tenTo (spare + 1) by omega)
        omega
      obtain ⟨shares, shared, -, fits, units⟩ :=
        sharesAmong_spreads isOpen ordered (by omega) allDigits nonneg
      obtain ⟨level, level_nonneg, near⟩ :=
        areNearLevel_of_sharesAmong isOpen ordered (Nat.le_trans servedFew few)
          within totalRoomy nonneg shared
      exact ⟨_, _, split_fair_of_shares nonempty distinct shared
        (areSound_of_fits fits) total_lt (by omega) level_nonneg near⟩

/-- Three targets with the same room, opened one after another. -/
def equalTargets : List Target :=
  [⟨"c", .ofMinorUnits 100 2, .epoch⟩, ⟨"a", .ofMinorUnits 100 2, ⟨1, 0⟩⟩,
    ⟨"b", .ofMinorUnits 100 2, ⟨2, 0⟩⟩]

/-- Two units that an even split leaves over go to two of three equal targets. -/
theorem split_is_fair_equalTargets :
    ∃ allocation level,
      split (.ofMinorUnits 200 2) equalTargets = .ok allocation ∧
        allocation.IsFair (.ofMinorUnits 200 2) equalTargets level :=
  split_is_fair (by decide) (by decide)
    (by decide : equalTargets.length ≤ tenTo 1) (by decide) (by decide)
    (by decide) (by decide)

end PatronFees.Allocation
