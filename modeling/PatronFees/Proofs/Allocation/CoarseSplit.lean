import PatronFees.Proofs.Allocation.LostUnit
import PatronFees.Proofs.Allocation.Served

namespace PatronFees

/-!
# Splits over coarser targets

Targets of coarser scales that have room for a total share it exactly, unless
offers leave units over after one of them was filled at its own scale. The first
unit is then lost on that target, and the split fails for what it has lost.
-/

namespace Target

/-- A target that is served first has no more room, whatever the scales. -/
theorem units_le_of_precedes
    {first second : Target}
    (precedes : first.precedes second = true) :
    first.capacity.units ≤ second.capacity.units :=
  Int.isLE_compare.mp (Ordering.isLE_left_of_isLE_then precedes)

end Target

namespace Allocation

/-- The offers of a total to targets in the order of service. -/
def offersOf
    (total : Money)
    (served : List Target) :
    Outcome (List Share × Money) := do
  let even ← evenShare total served.length
  offer even served.length total served

/-- What offers leave over is handed out. -/
theorem sharesAmong_eq
    (total : Money)
    (served : List Target) :
    sharesAmong total served =
      (offersOf total served) >>= fun offered =>
        handOut (Money.smallestUnit total.scale) offered.2 offered.1 := by
  rw [sharesAmong, offersOf]
  cases evenShare total served.length <;> rfl

/-- Offers leave units over, and filled a target of a coarser scale. -/
def LosesUnit
    (total : Money)
    (served : List Target) : Prop :=
  ∃ offered,
    offersOf total served = .ok offered ∧
      offered.2.isPositive = true ∧
      ∃ share ∈ offered.1, share.amount.scale < total.scale

instance
    (total : Money)
    (served : List Target) :
    Decidable (LosesUnit total served) :=
  match isOffered : offersOf total served with
  | .ok offered =>
      decidable_of_iff
        (offered.2.isPositive = true ∧
          ∃ share ∈ offered.1, share.amount.scale < total.scale)
        ⟨fun loses => ⟨offered, isOffered, loses⟩, fun ⟨_, same, loses⟩ =>
          Except.ok.inj (isOffered.symm.trans same) ▸ loses⟩
  | .error _ =>
      .isFalse fun ⟨_, same, _⟩ => nomatch isOffered.symm.trans same

/-- Targets of coarser scales have room for a total, below `2 ^ 95` units of it. -/
structure HaveRoomFor
    (total : Money)
    (targets : List Target) : Prop where
  coarser : ∀ target ∈ targets, target.capacity.scale ≤ total.scale
  bounded : positiveRoom (targets.map (Target.lift total.scale)) < twoTo 95
  nonneg : 0 ≤ total.minorUnits
  room : total.minorUnits ≤ positiveRoom (targets.map (Target.lift total.scale))

/-- Offers of a total to targets: as those to the lifted targets, full ones first. -/
structure AreOffers
    (total : Money)
    (served : List Target)
    (offers : List Share)
    (leftover : Money) : Prop where
  spreads :
    Spreads total.scale (served.map (Target.lift total.scale)) total.minorUnits
      (offers.map (Share.lift total.scale)) leftover
  /-- Full targets come first, and those behind have shares at the scale. -/
  ahead :
    ∃ full others,
      offers = full ++ others ∧
        (∀ share ∈ full, share.amount = share.target.capacity) ∧
        ∀ share ∈ others, share.amount.scale = total.scale

/-- Shares that add up to a total, at its scale unless they fill their target. -/
structure AddUpTo
    (total : Money)
    (served : List Target)
    (shares : List Share) : Prop where
  sameTargets : shares.map (·.target) = served
  fits : ∀ share ∈ shares.map (Share.lift total.scale), Fits total.scale share
  whole :
    ∀ share ∈ shares,
      share.amount.scale = total.scale ∨ share.amount = share.target.capacity
  adds : unitsLifted total.scale shares = total.minorUnits

variable {total leftover : Money} {served targets : List Target}
  {offers shares : List Share}

/-- Shares that add up to a total are no finer than it. -/
theorem AddUpTo.coarser
    (addUp : AddUpTo total served shares)
    (servedCoarser : ∀ target ∈ served, target.capacity.scale ≤ total.scale) :
    ∀ share ∈ shares, share.amount.scale ≤ total.scale := by
  intro share member
  rcases addUp.whole share member with atScale | fills
  · exact Nat.le_of_eq atScale
  · rw [fills]
    exact servedCoarser _ (addUp.sameTargets ▸ List.mem_map_of_mem member)

namespace AreOffers

/-- An offer is at the scale or fills its target. -/
theorem whole
    (areOffers : AreOffers total served offers leftover) :
    ∀ share ∈ offers,
      share.amount.scale = total.scale ∨
        share.amount = share.target.capacity := by
  obtain ⟨full, others, rfl, filled, atScale⟩ := areOffers.ahead
  intro share member
  rcases List.mem_append.mp member with ahead | behind
  · exact Or.inr (filled share ahead)
  · exact Or.inl (atScale share behind)

/-- A unit that is left over meets the first target filled at a coarser scale. -/
theorem meetsCoarse
    (areOffers : AreOffers total served offers leftover)
    (coarse : ∃ share ∈ offers, share.amount.scale < total.scale) :
    MeetsCoarse total.scale offers := by
  obtain ⟨full, others, rfl, filled, atScale⟩ := areOffers.ahead
  refine meetsCoarse_append (fun share member => by rw [filled share member]) ?_
  obtain ⟨share, member, finer⟩ := coarse
  rcases List.mem_append.mp member with ahead | behind
  · exact ⟨share, ahead, finer⟩
  · have scale := atScale share behind
    omega

/-- What is offered to targets of coarser scales is served. -/
theorem isServed
    (areOffers : AreOffers total served offers leftover)
    (sameTargets : offers.map (·.target) = served)
    (coarser : ∀ target ∈ served, target.capacity.scale ≤ total.scale) :
    ∀ share ∈ offers, IsServed total.scale share := by
  intro share member
  have whole := areOffers.whole share member
  refine
    { coarser := ?_
      fits := areOffers.spreads.fits _ (List.mem_map_of_mem member)
      full := ?_ }
  · rcases whole with atScale | fills
    · exact Nat.le_of_eq atScale
    · rw [fills]
      exact coarser _ (sameTargets ▸ List.mem_map_of_mem member)
  · intro finer
    rcases whole with atScale | fills
    · omega
    · rw [fills]

end AreOffers

section Sharing

variable
  (coarser : ∀ target ∈ served, target.capacity.scale ≤ total.scale)
  (isOpen :
    ∀ target ∈ served, IsOpenTo total.scale (target.lift total.scale))
  (ordered : served.Pairwise fun first second => first.precedes second = true)
  (few : served.length < twoTo 96)
  (allDigits : total.HasAllDigits)
  (nonneg : 0 ≤ total.minorUnits)

include coarser isOpen ordered few allDigits nonneg

/-- A total is offered to targets of coarser scales as to the lifted targets. -/
theorem offer_coarse :
    ∃ offers leftover,
      offersOf total served = .ok (offers, leftover) ∧
        offers.map (·.target) = served ∧
        AreOffers total served offers leftover := by
  have capped := total.scale_le
  have total_lt := Money.minorUnits_lt allDigits
  obtain ⟨even, shared, even_scale, -⟩ :=
    evenShare_between allDigits nonneg few
  have liftedOpen :
      ∀ target ∈ served.map (Target.lift total.scale),
        IsOpenTo total.scale target := by
    intro target member
    obtain ⟨own, among, rfl⟩ := List.mem_map.mp member
    exact isOpen own among
  have byUnits :
      served.Pairwise fun first second =>
        first.capacity.units ≤ second.capacity.units :=
    ordered.imp Target.units_le_of_precedes
  have byCapacity :
      (served.map (Target.lift total.scale)).Pairwise fun first second =>
        first.capacity.minorUnits ≤ second.capacity.minorUnits := by
    refine List.pairwise_map.mpr (byUnits.imp_of_mem ?_)
    intro first second firstMember secondMember less
    apply (Money.le_iff ((isOpen second secondMember).scale_eq.trans
      (isOpen first firstMember).scale_eq.symm)).mp
    change (first.capacity.lift _).units ≤ (second.capacity.lift _).units
    rwa [Money.units_lift capped, Money.units_lift capped]
  obtain ⟨lifted, leftover, offeredLifted, spreads⟩ :=
    offer_spreads liftedOpen byCapacity (by rwa [List.length_map])
      (by rwa [List.length_map]) rfl nonneg (by omega)
  rw [List.length_map] at offeredLifted
  obtain ⟨offers, offered, rfl⟩ :=
    offer_of_lift capped coarser isOpen even_scale rfl (by omega) offeredLifted
      spreads
  refine ⟨offers, leftover, ?_, map_target_of_offer offered, spreads,
    offer_prefix byUnits even_scale rfl offered⟩
  rw [offersOf, shared, Outcome.ok_bind]
  exact offered

end Sharing

/-- Shares at a scale are lifted with their targets. -/
theorem map_lift_of_scale
    {scale : Nat}
    (atScale : ∀ share ∈ shares, share.amount.scale = scale) :
    shares.map (Share.lift scale) = shares.map (Share.withTargetLifted scale) := by
  apply List.map_congr_left
  intro share member
  rw [Share.lift, Share.withTargetLifted,
    Money.lift_of_scale_eq (atScale share member)]

section HandingOut

variable
  (areOffers : AreOffers total served offers leftover)
  (sameTargets : offers.map (·.target) = served)

include areOffers sameTargets

/-- Offers that leave nothing over add up to the total. -/
theorem AreOffers.addUp_of_nothing
    (nothing : ¬ leftover.isPositive = true) :
    AddUpTo total served offers := by
  have adds := areOffers.spreads.adds
  have leftNonneg := areOffers.spreads.left_nonneg
  have notPositive := mt leftover.isPositive_iff.mpr nothing
  exact
    { sameTargets := sameTargets
      fits := areOffers.spreads.fits
      whole := areOffers.whole
      adds := by rw [unitsLifted]; omega }

/--
Where every offer is at the scale of the total, handing out what is left over adds
up to the total, as far as the targets have room for it.
-/
theorem AreOffers.addUp_of_scale
    (total_lt : total.minorUnits < twoTo 96)
    (room :
      total.minorUnits ≤ unitsOfRoom (served.map (Target.lift total.scale)))
    (atScale : ∀ share ∈ offers, share.amount.scale = total.scale) :
    ∃ final,
      handOut (Money.smallestUnit total.scale) leftover offers = .ok final ∧
        AddUpTo total served final := by
  have capped := total.scale_le
  have spreads := areOffers.spreads
  have adds := spreads.adds
  have sharedNonneg := unitsShared_nonneg spreads.fits
  obtain ⟨lifted, handedLifted, liftedTargets, fits, units⟩ :=
    handOut_spreads capped spreads.fits spreads.left_scale spreads.left_nonneg
      (by omega)
  rw [map_lift_of_scale atScale, handOut_withTargetLifted capped] at handedLifted
  cases handed : handOut (Money.smallestUnit total.scale) leftover offers with
  | error halt =>
      rw [handed] at handedLifted
      cases handedLifted
  | ok final =>
      rw [handed] at handedLifted
      obtain rfl := Except.ok.inj handedLifted
      have finalScale : ∀ share ∈ final, share.amount.scale = total.scale :=
        fun share member => (fits _ (List.mem_map_of_mem member)).scale_eq
      have sameFinal := map_lift_of_scale finalScale
      refine ⟨final, rfl,
        { sameTargets := (map_target_of_handOut handed).trans sameTargets
          fits := by rw [sameFinal]; exact fits
          whole := fun share member => Or.inl (finalScale share member)
          adds := ?_ }⟩
      rw [unitsLifted, sameFinal, units, spreads.sameTargets]
      omega

end HandingOut

section Service

variable {scale : Nat} (capped : scale ≤ Money.maxScale)

include capped

/-- Lifting does not change which targets have room for anything. -/
theorem isPositive_capacity_lift (target : Target) :
    (target.lift scale).capacity.isPositive = target.capacity.isPositive := by
  change decide (0 < (target.capacity.lift scale).units) = _
  rw [Money.units_lift capped]
  rfl

/-- Those that are served have together the room of all lifted targets. -/
theorem unitsOfRoom_lift_serviceOrder (targets : List Target) :
    unitsOfRoom ((serviceOrder targets).map (Target.lift scale)) =
      positiveRoom (targets.map (Target.lift scale)) := by
  have sameFilter :
      ((fun target : Target => target.capacity.isPositive) ∘ Target.lift scale) =
        fun target => target.capacity.isPositive :=
    funext (isPositive_capacity_lift capped)
  rw [positiveRoom, List.filter_map, sameFilter]
  exact (((serviceOrder_perm targets).map _).map _).sum_eq

/-- What is served has room for something, lifted or not. -/
theorem positive_of_served (targets : List Target) :
    ∀ target ∈ (serviceOrder targets).map (Target.lift scale),
      0 < target.capacity.minorUnits := by
  intro target member
  obtain ⟨own, among, rfl⟩ := List.mem_map.mp member
  rw [← Money.isPositive_iff, isPositive_capacity_lift capped,
    Money.isPositive_iff]
  exact (mem_serviceOrder.mp among).2

/-- No more targets are served than they have units of room. -/
theorem length_serviceOrder_le (targets : List Target) :
    ((serviceOrder targets).length : Int) ≤
      positiveRoom (targets.map (Target.lift scale)) := by
  have few := length_le_unitsOfRoom (positive_of_served capped targets)
  rwa [List.length_map, unitsOfRoom_lift_serviceOrder capped] at few

/-- Targets that are served are open once they are lifted. -/
theorem isOpenTo_lift_of_served
    (coarser : ∀ target ∈ targets, target.capacity.scale ≤ scale)
    (bounded : positiveRoom (targets.map (Target.lift scale)) < twoTo 95) :
    ∀ target ∈ serviceOrder targets, IsOpenTo scale (target.lift scale) := by
  intro target member
  have positive := positive_of_served capped targets
  have lifted : target.lift scale ∈ (serviceOrder targets).map (Target.lift scale) :=
    List.mem_map_of_mem member
  have within := capacity_le_unitsOfRoom positive lifted
  rw [unitsOfRoom_lift_serviceOrder capped] at within
  exact
    { scale_eq :=
        Money.scale_lift capped (coarser target (mem_serviceOrder.mp member).1)
      positive := positive _ lifted
      bounded := by omega }

end Service

namespace HaveRoomFor

theorem hasAllDigits
    (haveRoom : HaveRoomFor total targets) :
    total.HasAllDigits := by
  have nonneg := haveRoom.nonneg
  have bounded := haveRoom.bounded
  have room := haveRoom.room
  have double : twoTo 96 = 2 * twoTo 95 := twoTo_succ 95
  exact Money.hasAllDigits_of_lt (by omega)

/-- Those that are served are no finer than the total. -/
theorem servedCoarser
    (haveRoom : HaveRoomFor total targets) :
    ∀ target ∈ serviceOrder targets, target.capacity.scale ≤ total.scale :=
  fun target member => haveRoom.coarser target (mem_serviceOrder.mp member).1

end HaveRoomFor

section Coarse

/-- Shares of nothing are left out, whether lifted or not. -/
theorem map_lift_ofShares
    {scale : Nat}
    (capped : scale ≤ Money.maxScale)
    (shares : List Share) :
    ((ofShares shares).shares.map Prod.snd).map (Money.lift scale) =
      (ofShares (shares.map (Share.lift scale))).shares.map Prod.snd := by
  have sameZero :
      ∀ share : Share,
        (share.lift scale).amount.isZero = share.amount.isZero := by
    intro share
    change ((share.amount.lift scale).units == 0) = _
    rw [Money.units_lift capped]
    rfl
  simp only [shares_ofShares, List.map_map, List.filter_map]
  have sameFilter :
      ((fun share : Share => !share.amount.isZero) ∘ Share.lift scale) =
        fun share => !share.amount.isZero := by
    funext share
    exact congrArg not (sameZero share)
  rw [sameFilter]
  rfl

/-- Leaving out shares of nothing leaves no finer ones. -/
theorem coarser_ofShares
    {scale : Nat}
    (coarser : ∀ share ∈ shares, share.amount.scale ≤ scale) :
    ∀ money ∈ (ofShares shares).shares.map Prod.snd, money.scale ≤ scale := by
  intro money member
  rw [shares_ofShares, List.map_map, List.mem_map] at member
  obtain ⟨share, among, rfl⟩ := member
  exact coarser share (List.mem_of_mem_filter among)

/-- The shares that are not left out come to the total, too. -/
theorem AddUpTo.sum_units
    (addUp : AddUpTo total served shares)
    (servedCoarser : ∀ target ∈ served, target.capacity.scale ≤ total.scale) :
    ((ofShares shares).shares.map (·.2.units)).sum = total.units := by
  have capped := total.scale_le
  have coarser := coarser_ofShares (addUp.coarser servedCoarser)
  have units := unitsOf_ofShares (shares.map (Share.lift total.scale))
  have together := Money.sum_units_lift capped coarser
  have adds := addUp.adds
  rw [unitsLifted] at adds
  rw [map_lift_ofShares capped, units, adds, List.map_map] at together
  exact together.trans total.units_eq.symm

/-- A split compares what shares of coarser scales come to with its total. -/
theorem split_of_sharesAmong
    (nonempty : targets ≠ [])
    (shared : sharesAmong total (serviceOrder targets) = .ok shares)
    (coarser : ∀ share ∈ shares, share.amount.scale ≤ total.scale)
    (fits :
      ∀ share ∈ shares.map (Share.lift total.scale), Fits total.scale share)
    (inRange : unitsLifted total.scale shares < twoTo 96) :
    ∃ allocated : Money,
      allocated.scale = total.scale ∧
        allocated.minorUnits = unitsLifted total.scale shares ∧
        split total targets =
          if allocated.equals total then
            .ok (ofShares shares)
          else
            Outcome.fail (.unbalancedAllocation total.text allocated.text) := by
  have capped := total.scale_le
  have lifted := map_lift_ofShares capped shares
  have units := unitsOf_ofShares (shares.map (Share.lift total.scale))
  rw [← lifted] at units
  have sound := areSound_ofShares fits
  rw [← lifted] at sound
  have amountsCoarser := coarser_ofShares coarser
  rw [unitsLifted] at inRange
  obtain ⟨allocated, summed, allocatedScale, allocatedUnits⟩ :=
    Money.sum_lift_eq capped amountsCoarser sound (by omega)
  refine ⟨allocated, allocatedScale, allocatedUnits.trans units, ?_⟩
  have notEmpty : ¬ targets.isEmpty = true := by
    rw [List.isEmpty_iff]
    exact nonempty
  rw [split, if_neg notEmpty]
  simp only [shared, Outcome.ok_bind, Allocation.total, summed,
    Outcome.pure_eq]

/--
Coarser targets with room for a total share it exactly, unless a unit is lost on
one of them: then the split fails, and names less than the total as allocated.
-/
theorem split_coarse
    (nonempty : targets ≠ [])
    (haveRoom : HaveRoomFor total targets) :
    (LosesUnit total (serviceOrder targets) →
        ∃ allocated : Money,
          allocated.scale = total.scale ∧
            allocated.minorUnits < total.minorUnits ∧
            split total targets =
              Outcome.fail (.unbalancedAllocation total.text allocated.text)) ∧
      (¬ LosesUnit total (serviceOrder targets) →
        ∃ shares,
          split total targets = .ok (ofShares shares) ∧
            AddUpTo total (serviceOrder targets) shares) := by
  have capped := total.scale_le
  have nonneg := haveRoom.nonneg
  have bounded := haveRoom.bounded
  have room := haveRoom.room
  have allDigits := haveRoom.hasAllDigits
  have total_lt := Money.minorUnits_lt allDigits
  have isOpen := isOpenTo_lift_of_served capped haveRoom.coarser bounded
  have servedCoarser := haveRoom.servedCoarser
  have few := length_serviceOrder_le capped targets
  have double : twoTo 96 = 2 * twoTo 95 := twoTo_succ 95
  obtain ⟨offers, leftover, offered, sameTargets, areOffers⟩ :=
    offer_coarse servedCoarser isOpen (serviceOrder_pairwise targets) (by omega)
      allDigits nonneg
  rw [← unitsOfRoom_lift_serviceOrder capped] at room
  have isServed := areOffers.isServed sameTargets servedCoarser
  have spreads := areOffers.spreads
  have adds := spreads.adds
  have sharedNonneg := unitsShared_nonneg spreads.fits
  have among :
      ∀ final,
        handOut (Money.smallestUnit total.scale) leftover offers = .ok final →
          sharesAmong total (serviceOrder targets) = .ok final := by
    intro final handed
    rw [sharesAmong_eq, offered, Outcome.ok_bind]
    exact handed
  constructor
  · rintro ⟨_, alsoOffered, positive, coarse⟩
    obtain rfl := Except.ok.inj (alsoOffered.symm.trans offered)
    obtain ⟨final, handed, finalServed, -, loses⟩ :=
      handOut_lossy capped isServed spreads.left_scale spreads.left_nonneg
        (by omega)
    have less :=
      loses (leftover.isPositive_iff.mp positive)
        (areOffers.meetsCoarse coarse)
    have offersUnits :
        unitsLifted total.scale offers =
          unitsShared (offers.map (Share.lift total.scale)) :=
      rfl
    obtain ⟨allocated, allocatedScale, allocatedUnits, outcome⟩ :=
      split_of_sharesAmong nonempty (among final handed)
        (fun share member => (finalServed share member).coarser)
        (fits_map_lift finalServed) (by omega)
    have unbalanced : ¬ allocated.equals total = true := by
      intro same
      have := (Money.equals_iff allocatedScale.symm).mp same
      omega
    refine ⟨allocated, allocatedScale, by omega, ?_⟩
    rw [outcome, if_neg unbalanced]
  · intro keeps
    have shared :
        ∃ final,
          handOut (Money.smallestUnit total.scale) leftover offers = .ok final ∧
            AddUpTo total (serviceOrder targets) final := by
      by_cases positive : leftover.isPositive = true
      · refine areOffers.addUp_of_scale sameTargets (by omega) room ?_
        intro share member
        refine Nat.le_antisymm (isServed share member).coarser ?_
        refine Nat.le_of_not_lt fun coarse => keeps ?_
        exact ⟨_, offered, positive, share, member, coarse⟩
      · refine ⟨offers, ?_, areOffers.addUp_of_nothing sameTargets positive⟩
        rw [handOut, if_neg positive]
    obtain ⟨final, handed, addUp⟩ := shared
    have finalAdds := addUp.adds
    obtain ⟨allocated, allocatedScale, allocatedUnits, outcome⟩ :=
      split_of_sharesAmong nonempty (among final handed)
        (addUp.coarser servedCoarser) addUp.fits (by omega)
    have balanced : allocated.equals total = true :=
      (Money.equals_iff allocatedScale.symm).mpr (allocatedUnits.trans finalAdds)
    refine ⟨final, ?_, addUp⟩
    rw [outcome, if_pos balanced]

/-- Nothing is lost on one target. -/
theorem not_losesUnit_of_length_le_one
    (haveRoom : HaveRoomFor total targets)
    (alone : targets.length ≤ 1) :
    ¬ LosesUnit total (serviceOrder targets) := by
  have capped := total.scale_le
  have isOpen :=
    isOpenTo_lift_of_served capped haveRoom.coarser haveRoom.bounded
  have room := haveRoom.room
  rw [← unitsOfRoom_lift_serviceOrder capped] at room
  rintro ⟨⟨offers, leftover⟩, isOffered, -, share, member, coarse⟩
  obtain ⟨even, evenly, offered⟩ := Outcome.bind_eq_ok_iff.mp isOffered
  cases service : serviceOrder targets with
  | nil =>
      rw [service] at offered
      obtain ⟨rfl, -⟩ := Prod.mk.inj (Except.ok.inj offered)
      cases member
  | cons target rest =>
      have few := (serviceOrder_perm targets).length_eq
      have fewer := List.length_filter_le (·.capacity.isPositive) targets
      rw [service, List.length_cons] at few
      rw [service] at evenly offered isOpen room
      obtain rfl : rest = [] := List.length_eq_zero_iff.mp (by omega)
      -- One target is offered the whole total, and has room for it.
      obtain ⟨same, alsoEvenly, even_scale, -, even_le⟩ :=
        evenShare_near haveRoom.hasAllDigits haveRoom.nonneg Nat.one_pos
          (by decide)
      obtain rfl := Except.ok.inj (alsoEvenly.symm.trans evenly)
      have atMost := even_le total.minorUnits (by omega)
      have capacityScale := (isOpen target List.mem_cons_self).scale_eq
      have takesEven : same ≤ target.capacity := by
        rw [← le_capacity_lift capped,
          Money.le_iff (capacityScale.trans even_scale.symm)]
        rw [List.map_singleton, unitsOfRoom_cons, unitsOfRoom_nil] at room
        omega
      obtain ⟨still, others, -, offeredRest, rfl⟩ :=
        (offer_cons_of_room takesEven).mp offered
      obtain ⟨rfl, -⟩ := Prod.mk.inj (Except.ok.inj offeredRest)
      obtain rfl := List.mem_singleton.mp member
      have scale : (min same total).scale = same.scale :=
        Money.scale_min even_scale.symm
      dsimp only at coarse
      omega

end Coarse

end Allocation

end PatronFees
