import PatronFees.Proofs.Allocation.HandOut
import PatronFees.Proofs.Allocation.Offer
import Mathlib.Data.List.Nodup

namespace PatronFees

/-!
# Splits are exact

A split succeeds exactly where the targets have room for the total together.
Its shares then add up to the total, each is positive and within the capacity
of its target, and they stand in the order in which targets are served.
Otherwise it fails and names the room that there was.
-/

namespace Target

/-- Targets are compared by a lexicographic order of their fields. -/
instance : Std.TransCmp Target.compare :=
  inferInstanceAs <|
    Std.TransCmp <|
      compareLex (compareOn fun target : Target => target.capacity.units) <|
        compareLex
          (compareLex
            (compareOn fun target => target.createdAt.seconds)
            (compareOn fun target => target.createdAt.nanoseconds))
          (compareOn fun target => target.account)

/-- Only targets of one account can tie. -/
theorem account_eq_of_compare_eq
    {first second : Target}
    (tie : first.compare second = .eq) :
    first.account = second.account := by
  simp only [compare, Ordering.then_eq_eq] at tie
  exact Std.compare_eq_iff_eq.mp tie.2.2

/-- A target that is served first at its scale has no more room. -/
theorem capacity_le_of_precedes
    {first second : Target}
    (same : second.capacity.scale = first.capacity.scale)
    (precedes : first.precedes second = true) :
    first.capacity.minorUnits ≤ second.capacity.minorUnits :=
  (Money.compare_isLE_iff same).mp
    (Ordering.isLE_left_of_isLE_then precedes)

/-- One of two targets with accounts of their own is served before the other. -/
theorem compare_eq_lt
    {first second : Target}
    (precedes : first.precedes second = true)
    (different : first.account ≠ second.account) :
    first.compare second = .lt := by
  cases order : first.compare second with
  | lt => rfl
  | eq => exact (different (account_eq_of_compare_eq order)).elim
  | gt => simp [Target.precedes, order] at precedes

end Target

namespace Allocation

/-- The units of room of all targets with room for anything. -/
def positiveRoom (targets : List Target) : Int :=
  unitsOfRoom (targets.filter (·.capacity.isPositive))

/-- What it is for an allocation to distribute a total over targets exactly. -/
structure Distributes
    (total : Money)
    (targets : List Target)
    (allocation : Allocation) : Prop where
  adds :
    Money.unitsOf (allocation.shares.map Prod.snd) = total.minorUnits
  within :
    ∀ share ∈ allocation.shares,
      ∃ target ∈ targets,
        target.account = share.1 ∧
          share.2.scale = total.scale ∧
          0 < share.2.minorUnits ∧
          share.2.minorUnits ≤ target.capacity.minorUnits
  once : (allocation.shares.map Prod.fst).Nodup
  /-- Targets without room are absent. -/
  absent :
    ∀ target ∈ targets,
      target.capacity.minorUnits ≤ 0 →
        target.account ∉ allocation.shares.map Prod.fst
  /-- Shares stand in the order of capacity, age and identifier. -/
  inOrder :
    (allocation.shares.map Prod.fst).Pairwise fun first second =>
      ∀ earlier ∈ targets, ∀ later ∈ targets,
        earlier.account = first → later.account = second →
          earlier.compare later = .lt

/-- One more target has room for what it has room for, if for anything. -/
theorem positiveRoom_cons
    (target : Target)
    (rest : List Target) :
    positiveRoom (target :: rest) =
      max target.capacity.minorUnits 0 + positiveRoom rest := by
  simp only [positiveRoom, List.filter_cons]
  split
  next positive =>
    have := target.capacity.isPositive_iff.mp positive
    rw [unitsOfRoom_cons]
    omega
  next notPositive =>
    have := mt target.capacity.isPositive_iff.mpr notPositive
    omega

/-- Targets with room for nothing do not add room. -/
theorem unitsOfRoom_le_positiveRoom (targets : List Target) :
    unitsOfRoom targets ≤ positiveRoom targets := by
  induction targets with
  | nil =>
      exact Int.le_refl _
  | cons target rest inductionHypothesis =>
      rw [unitsOfRoom_cons, positiveRoom_cons]
      omega

/-- Targets have together no more room than what bounds the room of each. -/
theorem positiveRoom_le
    {targets : List Target}
    {bound : Target → Int}
    (bounds :
      ∀ target ∈ targets,
        0 ≤ bound target ∧ target.capacity.minorUnits ≤ bound target) :
    positiveRoom targets ≤ (targets.map bound).sum := by
  induction targets with
  | nil =>
      exact Int.le_refl _
  | cons target rest inductionHypothesis =>
      have here := bounds target List.mem_cons_self
      have others := inductionHypothesis
        fun other member => bounds other (List.mem_cons_of_mem _ member)
      rw [positiveRoom_cons, List.map_cons, List.sum_cons]
      omega

section ServiceOrder

variable {scale : Nat} {targets : List Target}

/-- Those served are the targets with room for anything. -/
theorem serviceOrder_perm (targets : List Target) :
    (serviceOrder targets).Perm (targets.filter (·.capacity.isPositive)) :=
  List.mergeSort_perm _ _

/-- Targets are served if they have room for anything. -/
theorem mem_serviceOrder
    {target : Target} :
    target ∈ serviceOrder targets ↔
      target ∈ targets ∧ 0 < target.capacity.minorUnits := by
  rw [(serviceOrder_perm targets).mem_iff, List.mem_filter,
    Money.isPositive_iff]

/-- The order of service does not change the room. -/
theorem unitsOfRoom_serviceOrder (targets : List Target) :
    unitsOfRoom (serviceOrder targets) = positiveRoom targets :=
  ((serviceOrder_perm targets).map _).sum_eq

/-- Targets stand in the order of service. -/
theorem serviceOrder_pairwise (targets : List Target) :
    (serviceOrder targets).Pairwise
      fun first second => first.precedes second = true := by
  apply List.pairwise_mergeSort
  · intro first second third
    exact Std.TransCmp.isLE_trans
  · intro first second
    rw [Bool.or_eq_true]
    cases order : first.compare second with
    | lt => exact Or.inl (by simp [Target.precedes, order])
    | eq => exact Or.inl (by simp [Target.precedes, order])
    | gt =>
        have swapped : second.compare first = (first.compare second).swap :=
          Std.OrientedCmp.eq_swap
        refine Or.inr ?_
        rw [Target.precedes, swapped, order]
        rfl

/-- Targets at one scale that stand in the order of service have ever more room. -/
theorem pairwise_capacity_le
    {served : List Target}
    (sameScale : ∀ target ∈ served, target.capacity.scale = scale)
    (ordered :
      served.Pairwise fun first second => first.precedes second = true) :
    served.Pairwise fun first second =>
      first.capacity.minorUnits ≤ second.capacity.minorUnits := by
  refine ordered.imp_of_mem fun firstMember secondMember precedes => ?_
  exact Target.capacity_le_of_precedes
    ((sameScale _ secondMember).trans (sameScale _ firstMember).symm) precedes

/-- Accounts of their own are served once each. -/
theorem nodup_serviceOrder
    (distinct : (targets.map (·.account)).Nodup) :
    ((serviceOrder targets).map (·.account)).Nodup :=
  ((serviceOrder_perm targets).map _).nodup_iff.mpr
    ((List.filter_sublist.map _).nodup distinct)

/-- Targets with accounts of their own stand one before the other. -/
theorem serviceOrder_pairwise_lt
    (distinct : (targets.map (·.account)).Nodup) :
    (serviceOrder targets).Pairwise
      fun first second => first.compare second = .lt :=
  ((serviceOrder_pairwise targets).and
      (List.pairwise_map.mp (nodup_serviceOrder distinct))).imp
    fun both => Target.compare_eq_lt both.1 both.2

/-- Targets with room that stand in the order of service are served as they are. -/
theorem serviceOrder_of_ordered
    (positive : ∀ target ∈ targets, target.capacity.isPositive = true)
    (ordered :
      targets.Pairwise fun first second => first.precedes second = true) :
    serviceOrder targets = targets := by
  rw [serviceOrder, List.filter_eq_self.mpr positive]
  exact List.mergeSort_of_pairwise ordered

/-- A target of the service has room for no more than all have together. -/
theorem capacity_le_unitsOfRoom
    {served : List Target}
    (positive : ∀ target ∈ served, 0 < target.capacity.minorUnits)
    {target : Target}
    (member : target ∈ served) :
    target.capacity.minorUnits ≤ unitsOfRoom served := by
  apply List.single_le_sum
  · intro units among
    obtain ⟨other, inside, rfl⟩ := List.mem_map.mp among
    exact Int.le_of_lt (positive other inside)
  · exact List.mem_map_of_mem (f := (·.capacity.minorUnits)) member

/-- There are no more targets than units of room. -/
theorem length_le_unitsOfRoom
    {served : List Target}
    (positive : ∀ target ∈ served, 0 < target.capacity.minorUnits) :
    (served.length : Int) ≤ unitsOfRoom served := by
  induction served with
  | nil =>
      exact Int.le_refl _
  | cons target rest inductionHypothesis =>
      have first := positive target List.mem_cons_self
      have others := inductionHypothesis
        fun other member => positive other (List.mem_cons_of_mem _ member)
      rw [unitsOfRoom_cons, List.length_cons]
      omega

/-- Targets that are served are open where all together are within bounds. -/
theorem isOpenTo_of_served
    (sameScale : ∀ target ∈ targets, target.capacity.scale = scale)
    (bounded : positiveRoom targets < twoTo 95) :
    ∀ target ∈ serviceOrder targets, IsOpenTo scale target := by
  intro target member
  have within :=
    capacity_le_unitsOfRoom (fun _ among => (mem_serviceOrder.mp among).2) member
  rw [unitsOfRoom_serviceOrder] at within
  obtain ⟨among, positive⟩ := mem_serviceOrder.mp member
  exact ⟨sameScale target among, positive, by omega⟩

end ServiceOrder

section Sharing

variable {scale : Nat} {served : List Target} {total : Money}

/-- Targets in order of service share the total, or all the room that they have. -/
theorem sharesAmong_spreads
    (isOpen : ∀ target ∈ served, IsOpenTo total.scale target)
    (ordered :
      served.Pairwise fun first second => first.precedes second = true)
    (few : served.length < twoTo 96)
    (allDigits : total.HasAllDigits)
    (nonneg : 0 ≤ total.minorUnits) :
    ∃ shares,
      sharesAmong total served = .ok shares ∧
        shares.map (·.target) = served ∧
        (∀ share ∈ shares, Fits total.scale share) ∧
        unitsShared shares = min total.minorUnits (unitsOfRoom served) := by
  have total_lt := Money.minorUnits_lt allDigits
  have byCapacity :=
    pairwise_capacity_le (fun target member => (isOpen target member).scale_eq)
      ordered
  obtain ⟨even, shared, _⟩ := evenShare_between allDigits nonneg few
  obtain ⟨offers, leftover, offered, spreads⟩ :=
    offer_spreads isOpen byCapacity few shared rfl nonneg (by omega)
  have adds := spreads.adds
  have leftNonneg := spreads.left_nonneg
  have offersNonneg := unitsShared_nonneg spreads.fits
  obtain ⟨final, handed, targets, fits, units⟩ :=
    handOut_spreads total.scale_le spreads.fits spreads.left_scale
      leftNonneg (by omega)
  refine ⟨final, ?_, targets.trans spreads.sameTargets, fits, ?_⟩
  · rw [sharesAmong]
    simp only [shared, offered, handed, Outcome.ok_bind]
  · rw [units, spreads.sameTargets, adds]

theorem shares_ofShares (shares : List Share) :
    (ofShares shares).shares =
      (shares.filter fun share => !share.amount.isZero).map
        fun share => (share.target.account, share.amount) :=
  rfl

/-- Leaving out shares of nothing does not change what is shared. -/
theorem unitsOf_ofShares (shares : List Share) :
    Money.unitsOf ((ofShares shares).shares.map Prod.snd) =
      unitsShared shares := by
  induction shares with
  | nil =>
      rfl
  | cons share rest inductionHypothesis =>
      simp only [shares_ofShares, List.map_map, Money.unitsOf]
        at inductionHypothesis ⊢
      rw [List.filter_cons, unitsShared_cons]
      by_cases nothing : share.amount.isZero = true
      · have zero := share.amount.isZero_iff.mp nothing
        simp only [nothing, Bool.not_true, Bool.false_eq_true, if_false]
        rw [inductionHypothesis, zero, Int.zero_add]
      · simp only [nothing, Bool.not_false, if_true, List.map_cons,
          List.sum_cons, Function.comp_apply]
        rw [inductionHypothesis]

/-- The amounts of an allocation are those of some of the shares, in order. -/
theorem amounts_ofShares_sublist (shares : List Share) :
    ((ofShares shares).shares.map Prod.snd).Sublist (shares.map (·.amount)) := by
  rw [shares_ofShares, List.map_map]
  exact List.filter_sublist.map _

/-- Fitting shares are of sound amounts. -/
theorem areSound_of_fits
    {shares : List Share}
    (fits : ∀ share ∈ shares, Fits scale share) :
    Money.AreSound scale (shares.map (·.amount)) := by
  intro money member
  obtain ⟨share, among, rfl⟩ := List.mem_map.mp member
  exact ⟨(fits share among).scale_eq, (fits share among).nonneg⟩

/-- The amounts of an allocation of fitting shares are sound. -/
theorem areSound_ofShares
    {shares : List Share}
    (fits : ∀ share ∈ shares, Fits scale share) :
    Money.AreSound scale ((ofShares shares).shares.map Prod.snd) :=
  (areSound_of_fits fits).of_subset (amounts_ofShares_sublist shares).subset

/-- The accounts of an allocation are those of some of the targets, in order. -/
theorem accounts_ofShares_sublist (shares : List Share) :
    ((ofShares shares).shares.map Prod.fst).Sublist
      ((shares.map (·.target)).map (·.account)) := by
  rw [shares_ofShares, List.map_map, List.map_map]
  exact List.filter_sublist.map _

end Sharing

section Exactness

variable {total : Money} {targets : List Target} {shares : List Share}

/-- Fitting shares in the order of service distribute what they add up to. -/
theorem ofShares_distributes
    (distinct : (targets.map (·.account)).Nodup)
    (sameTargets : shares.map (·.target) = serviceOrder targets)
    (fits : ∀ share ∈ shares, Fits total.scale share)
    (adds : unitsShared shares = total.minorUnits) :
    (ofShares shares).Distributes total targets := by
  have accounts := accounts_ofShares_sublist shares
  rw [sameTargets] at accounts
  -- An identifier determines its target.
  have identified :
      ∀ first ∈ targets, ∀ second ∈ targets,
        first.account = second.account → first = second :=
    fun _ firstMember _ secondMember same =>
      List.inj_on_of_nodup_map distinct firstMember secondMember same
  refine
    { adds := (unitsOf_ofShares shares).trans adds
      within := ?_
      once := accounts.nodup (nodup_serviceOrder distinct)
      absent := ?_
      inOrder := ?_ }
  · intro share member
    rw [shares_ofShares, List.mem_map] at member
    obtain ⟨taken, kept, rfl⟩ := member
    obtain ⟨among, nonzero⟩ := List.mem_filter.mp kept
    have fit := fits taken among
    have served : taken.target ∈ serviceOrder targets :=
      sameTargets ▸ List.mem_map_of_mem among
    refine ⟨taken.target, (mem_serviceOrder.mp served).1, rfl,
      fit.scale_eq, ?_, fit.within⟩
    have notZero : taken.amount.minorUnits ≠ 0 := by
      intro zero
      rw [taken.amount.isZero_iff.mpr zero] at nonzero
      cases nonzero
    have nonneg := fit.nonneg
    dsimp only
    omega
  · intro target member noRoom present
    obtain ⟨served, servedMember, same⟩ :=
      List.mem_map.mp (accounts.subset present)
    obtain ⟨servedAmong, room⟩ := mem_serviceOrder.mp servedMember
    rw [identified served servedAmong target member same] at room
    omega
  · refine List.Pairwise.sublist accounts (List.pairwise_map.mpr ?_)
    refine (serviceOrder_pairwise_lt distinct).imp_of_mem ?_
    intro first second firstMember secondMember precedes earlier earlierMember
      later laterMember sameFirst sameSecond
    rw [identified earlier earlierMember first
        (mem_serviceOrder.mp firstMember).1 sameFirst,
      identified later laterMember second
        (mem_serviceOrder.mp secondMember).1 sameSecond]
    exact precedes

/-- A split compares what the shares come to with its total. -/
theorem split_of_sound
    (nonempty : targets ≠ [])
    (shared : sharesAmong total (serviceOrder targets) = .ok shares)
    (sound :
      Money.AreSound total.scale ((ofShares shares).shares.map Prod.snd))
    (inRange : unitsShared shares < twoTo 96) :
    ∃ allocated : Money,
      allocated.scale = total.scale ∧
        allocated.minorUnits = unitsShared shares ∧
        split total targets =
          if allocated.equals total then
            .ok (ofShares shares)
          else
            Outcome.fail (.unbalancedAllocation total.text allocated.text) := by
  have amounts := unitsOf_ofShares shares
  obtain ⟨allocated, summed, allocatedScale, allocatedUnits⟩ :=
    Money.sum_eq total.scale_le sound (by omega)
  refine ⟨allocated, allocatedScale, allocatedUnits.trans amounts, ?_⟩
  have notEmpty : ¬ targets.isEmpty = true := by
    rw [List.isEmpty_iff]
    exact nonempty
  rw [split, if_neg notEmpty]
  simp only [shared, Outcome.ok_bind, Allocation.total, summed,
    Outcome.pure_eq]

/-- Whatever the total, shares among the targets are exact up to their room. -/
theorem split_shares
    (nonempty : targets ≠ [])
    (sameScale : ∀ target ∈ targets, target.capacity.scale = total.scale)
    (bounded : positiveRoom targets < twoTo 95)
    (allDigits : total.HasAllDigits)
    (nonneg : 0 ≤ total.minorUnits) :
    ∃ (shares : List Share) (allocated : Money),
      shares.map (·.target) = serviceOrder targets ∧
        (∀ share ∈ shares, Fits total.scale share) ∧
        unitsShared shares = min total.minorUnits (positiveRoom targets) ∧
        allocated.scale = total.scale ∧
        allocated.minorUnits = unitsShared shares ∧
        split total targets =
          if allocated.equals total then
            .ok (ofShares shares)
          else
            Outcome.fail (.unbalancedAllocation total.text allocated.text) := by
  have positive :
      ∀ target ∈ serviceOrder targets, 0 < target.capacity.minorUnits :=
    fun _ member => (mem_serviceOrder.mp member).2
  have room := unitsOfRoom_serviceOrder targets
  have isOpen := isOpenTo_of_served sameScale bounded
  have few := length_le_unitsOfRoom positive
  have double : twoTo 96 = 2 * twoTo 95 := twoTo_succ 95
  obtain ⟨shares, shared, sameTargets, fits, units⟩ :=
    sharesAmong_spreads isOpen (serviceOrder_pairwise targets)
      (by omega) allDigits nonneg
  rw [room] at units
  obtain ⟨allocated, outcome⟩ :=
    split_of_sound nonempty shared (areSound_ofShares fits) (by omega)
  exact ⟨shares, allocated, sameTargets, fits, units, outcome⟩

/-- With room for the total a split distributes it. -/
theorem split_distributes
    (nonempty : targets ≠ [])
    (distinct : (targets.map (·.account)).Nodup)
    (sameScale : ∀ target ∈ targets, target.capacity.scale = total.scale)
    (bounded : positiveRoom targets < twoTo 95)
    (allDigits : total.HasAllDigits)
    (nonneg : 0 ≤ total.minorUnits)
    (room : total.minorUnits ≤ positiveRoom targets) :
    ∃ allocation,
      split total targets = .ok allocation ∧
        allocation.Distributes total targets := by
  obtain ⟨shares, allocated, sameTargets, fits, units, allocatedScale,
      allocatedUnits, outcome⟩ :=
    split_shares nonempty sameScale bounded allDigits nonneg
  have all : unitsShared shares = total.minorUnits := by omega
  have balanced : allocated.equals total = true :=
    (Money.equals_iff allocatedScale.symm).mpr (allocatedUnits.trans all)
  refine ⟨ofShares shares, ?_, ofShares_distributes distinct sameTargets fits all⟩
  rw [outcome, if_pos balanced]

/-- Without room for the total a split fails and names the room there was. -/
theorem split_unbalanced
    (nonempty : targets ≠ [])
    (sameScale : ∀ target ∈ targets, target.capacity.scale = total.scale)
    (bounded : positiveRoom targets < twoTo 95)
    (allDigits : total.HasAllDigits)
    (nonneg : 0 ≤ total.minorUnits)
    (exceeds : positiveRoom targets < total.minorUnits) :
    ∃ actual : Money,
      actual.scale = total.scale ∧
        actual.minorUnits = positiveRoom targets ∧
        split total targets =
          Outcome.fail (.unbalancedAllocation total.text actual.text) := by
  obtain ⟨shares, allocated, _, _, units, allocatedScale, allocatedUnits,
      outcome⟩ :=
    split_shares nonempty sameScale bounded allDigits nonneg
  have unbalanced : ¬ allocated.equals total = true := by
    intro same
    have := (Money.equals_iff allocatedScale.symm).mp same
    omega
  refine ⟨allocated, allocatedScale, by omega, ?_⟩
  rw [outcome, if_neg unbalanced]

/--
A split over targets with accounts of their own succeeds exactly where they
have room for the total. It then distributes the total exactly, and otherwise
fails and names all the room that there was.
-/
theorem split_exact
    (nonempty : targets ≠ [])
    (distinct : (targets.map (·.account)).Nodup)
    (sameScale : ∀ target ∈ targets, target.capacity.scale = total.scale)
    (bounded : positiveRoom targets < twoTo 95)
    (allDigits : total.HasAllDigits)
    (nonneg : 0 ≤ total.minorUnits) :
    ((∃ allocation, split total targets = .ok allocation) ↔
        total.minorUnits ≤ positiveRoom targets) ∧
      (∀ allocation,
        split total targets = .ok allocation →
          allocation.Distributes total targets) ∧
      (positiveRoom targets < total.minorUnits →
        ∃ actual : Money,
          actual.scale = total.scale ∧
            actual.minorUnits = positiveRoom targets ∧
            split total targets =
              Outcome.fail
                (.unbalancedAllocation total.text actual.text)) := by
  rcases lt_or_ge (positiveRoom targets) total.minorUnits with
    exceeds | room
  · obtain ⟨actual, actualScale, actualUnits, fails⟩ :=
      split_unbalanced nonempty sameScale bounded allDigits nonneg exceeds
    refine ⟨⟨?_, fun room => ?_⟩, ?_,
      fun _ => ⟨actual, actualScale, actualUnits, fails⟩⟩
    · rintro ⟨allocation, found⟩
      rw [fails] at found
      cases found
    · omega
    · intro allocation found
      rw [fails] at found
      cases found
  · obtain ⟨allocation, found, distributes⟩ :=
      split_distributes nonempty distinct sameScale bounded allDigits nonneg room
    refine ⟨⟨fun _ => room, fun _ => ⟨allocation, found⟩⟩, ?_, fun _ => ?_⟩
    · intro other alsoFound
      rw [found] at alsoFound
      obtain rfl := Except.ok.inj alsoFound
      exact distributes
    · omega

end Exactness

/-- A split comes to what one round hands out, where nothing is left after it. -/
theorem split_of_round
    {total even left rest allocated : Money}
    {targets served : List Target}
    {shares after : List Share}
    (order : serviceOrder targets = served)
    (nonempty : served ≠ [])
    (shared : evenShare total served.length = .ok even)
    (offered : offer even served.length total served = .ok (shares, left))
    (positive : left.isPositive = true)
    (handed :
      handOutOnce (Money.smallestUnit total.scale) left shares =
        .ok ⟨after, rest, true⟩)
    (less : slack rest after < slack left shares)
    (nothing : rest.isPositive = false)
    (summed : (ofShares after).total total.scale = .ok allocated)
    (adds : allocated.equals total = true) :
    split total targets = .ok (ofShares after) := by
  have notEmpty : ¬ targets.isEmpty = true := by
    intro isEmpty
    rw [List.isEmpty_iff.mp isEmpty, serviceOrder, List.filter_nil,
      List.mergeSort_nil] at order
    exact nonempty order.symm
  rw [split, if_neg notEmpty, order, sharesAmong]
  simp only [shared, offered, handOut_of_round positive handed less nothing,
    summed, Outcome.ok_bind, adds, if_true, Outcome.pure_eq]

/-- Two targets with different room and one that is overdrawn. -/
def threeTargets : List Target :=
  [⟨"a", .ofMinorUnits 500 2, .epoch⟩, ⟨"b", .ofMinorUnits 150 2, .epoch⟩,
    ⟨"c", .ofMinorUnits (-300) 2, .epoch⟩]

/-- More than an even share goes to the target that has room for it. -/
theorem split_exact_threeTargets :
    ∃ allocation,
      split (.ofMinorUnits 601 2) threeTargets = .ok allocation ∧
        allocation.Distributes (.ofMinorUnits 601 2) threeTargets := by
  have sameScale :
      ∀ target ∈ threeTargets,
        target.capacity.scale = (Money.ofMinorUnits 601 2).scale := by
    decide
  have room :
      (Money.ofMinorUnits 601 2).minorUnits ≤ positiveRoom threeTargets := by
    decide
  obtain ⟨succeeds, distributes, -⟩ :=
    split_exact (by decide : threeTargets ≠ []) (by decide) sameScale
      (by decide) rfl (by decide)
  obtain ⟨allocation, found⟩ := succeeds.mpr room
  exact ⟨allocation, found, distributes allocation found⟩

end Allocation

end PatronFees
