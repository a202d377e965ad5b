import PatronFees.Proofs.Allocation.CoarseSplit
import PatronFees.Proofs.Engine.Session

namespace PatronFees

/-!
# Requests over coarser accounts

Accounts may owe amounts at scales coarser than that of the engine. A request that
settles what they owe is checked as if it were owed at the scale of the engine. A
share of it is taken off what an account owes, which is rounded to the scale of
the account: exactly where the share is a whole number of the account's units.
-/

/-- Accounts owe no finer amounts than a scale, below `2 ^ 95` units together. -/
structure AreCoarse
    (scale : Nat)
    (accounts : List Account) : Prop where
  coarser : ∀ account ∈ accounts, account.remaining.scale ≤ scale
  nonneg : ∀ account ∈ accounts, 0 ≤ account.remaining.minorUnits
  inRange : Money.unitsOf (accounts.map (·.remaining.lift scale)) < twoTo 95

namespace AreCoarse

variable {scale : Nat} {accounts : List Account}

/-- What is owed is sound once it is lifted. -/
theorem sound
    (coarse : AreCoarse scale accounts)
    (capped : scale ≤ Money.maxScale) :
    Money.AreSound scale (accounts.map (·.remaining.lift scale)) := by
  intro money member
  obtain ⟨account, among, rfl⟩ := List.mem_map.mp member
  have coarser := coarse.coarser account among
  refine ⟨Money.scale_lift capped coarser, ?_⟩
  rw [Money.minorUnits_lift capped coarser]
  exact Int.mul_nonneg (coarse.nonneg account among) (by omega)

/-- What one account owes is held at the scale, below `2 ^ 95` units of it. -/
theorem held
    (coarse : AreCoarse scale accounts)
    (capped : scale ≤ Money.maxScale)
    {account : Account}
    (member : account ∈ accounts) :
    account.remaining.IsHeldAt scale ∧
      0 ≤ (account.remaining.lift scale).minorUnits ∧
      (account.remaining.lift scale).minorUnits < twoTo 95 := by
  have sound := coarse.sound capped
  have among :
      account.remaining.lift scale ∈ accounts.map (·.remaining.lift scale) :=
    List.mem_map_of_mem member
  have nonneg := (sound _ among).2
  have within := sound.minorUnits_le among
  have inRange := coarse.inRange
  have double : twoTo 96 = 2 * twoTo 95 := twoTo_succ 95
  exact ⟨⟨coarse.coarser account member, by omega⟩, nonneg, by omega⟩

/-- What is owed adds up at the scale. -/
theorem sum_eq
    (coarse : AreCoarse scale accounts)
    (capped : scale ≤ Money.maxScale) :
    ∃ owed,
      Money.sum (accounts.map (·.remaining)) scale = .ok owed ∧
        owed.scale = scale ∧
        owed.minorUnits =
          Money.unitsOf (accounts.map (·.remaining.lift scale)) := by
  have lifted :
      (accounts.map (·.remaining)).map (Money.lift scale) =
        accounts.map (·.remaining.lift scale) :=
    List.map_map
  have double : twoTo 96 = 2 * twoTo 95 := twoTo_succ 95
  have inRange := coarse.inRange
  rw [← lifted] at inRange ⊢
  refine Money.sum_lift_eq capped ?_ (lifted ▸ coarse.sound capped) (by omega)
  intro money member
  obtain ⟨account, among, rfl⟩ := List.mem_map.mp member
  exact coarse.coarser account among

/-- Targets for the accounts have together the room of what is owed. -/
theorem positiveRoom_eq
    (coarse : AreCoarse scale accounts)
    (capped : scale ≤ Money.maxScale) :
    Allocation.positiveRoom
        ((accounts.map Target.ofRemaining).map (Target.lift scale)) =
      Money.unitsOf (accounts.map (·.remaining.lift scale)) := by
  have room :
      (((accounts.map Target.ofRemaining).map (Target.lift scale)).map
        (·.capacity.minorUnits)).sum =
        Money.unitsOf (accounts.map (·.remaining.lift scale)) := by
    simp only [Money.unitsOf, List.map_map]
    rfl
  apply Int.le_antisymm
  · rw [← room]
    apply Allocation.positiveRoom_le
    intro target member
    obtain ⟨own, among, rfl⟩ := List.mem_map.mp member
    obtain ⟨account, inside, rfl⟩ := List.mem_map.mp among
    exact ⟨(coarse.held capped inside).2.1, Int.le_refl _⟩
  · rw [← room]
    exact Allocation.unitsOfRoom_le_positiveRoom _

end AreCoarse

namespace Validation

/-- A settlement that passes is granted a part of what coarse accounts owe. -/
theorem grants_of_settlement
    {scale : Nat}
    {ids : List AccountId}
    {accounts : AccountBook}
    {history : List Posting}
    {entered : Option String}
    {preview : Preview}
    (capped : scale ≤ Money.maxScale)
    (coarse : AreCoarse scale (accounts.findEach ids))
    (passed :
      check .settlement ids accounts history entered scale = .ok preview) :
    Grants scale
      (Money.unitsOf
        ((accounts.findEach ids).map (·.remaining.lift scale)))
      preview := by
  obtain ⟨targets, all, summing⟩ := Outcome.bind_eq_ok_iff.mp passed
  obtain ⟨rfl, -⟩ := findAll_eq_ok all
  obtain ⟨owed, summed, owedScale, owedUnits⟩ := coarse.sum_eq capped
  rw [summed, Outcome.ok_bind] at summing
  obtain ⟨requested, read, rest⟩ := Outcome.bind_eq_ok_iff.mp summing
  obtain ⟨_, -, later⟩ := Outcome.bind_eq_ok_iff.mp rest
  obtain ⟨left, sufficed, last⟩ := Outcome.bind_eq_ok_iff.mp later
  obtain rfl := Except.ok.inj last
  rw [← owedUnits]
  have inRange := coarse.inRange
  exact grants_of_within owedScale (by omega) read sufficed

end Validation

namespace AccountPlan

/--
A plan takes a share off an account by one posting: exactly if the share is a
whole number of the units that the account owes.
-/
structure TakesOff
    (account : Account)
    (share : Money)
    (plan : AccountPlan) : Prop where
  sameDebt : plan.account.IsSameDebt account
  posts :
    ∃ posting,
      plan.postings = [posting] ∧
        posting.account = account.id ∧
        posting.amount = share
  exact_iff :
    plan.account.remaining.units + share.units = account.remaining.units ↔
      share.IsWholeAt account.remaining.scale

variable {scale : Nat} {kind : ActionKind} {account : Account} {share : Money}

/-- Once a share can be taken off, it is recorded by one posting. -/
theorem takesOff_of_subtract
    {remaining : Money}
    (subtracted : account.remaining.subtract share = .ok remaining)
    (exact_iff :
      remaining.units + share.units = account.remaining.units ↔
        share.IsWholeAt account.remaining.scale)
    (options : ActionOptions) :
    ∃ plan,
      settling kind account share options = .ok plan ∧
        plan.TakesOff account share := by
  refine
    ⟨{ account := account.apply (kind.label remaining.isZero) remaining
       postings :=
        [Posting.ofAction account (kind.label remaining.isZero) share remaining
          options] }, ?_,
      { sameDebt := account.isSameDebt_apply _ _
        posts := ⟨_, rfl, rfl, rfl⟩
        exact_iff := ?_ }⟩
  · simp only [settling, subtracted, Outcome.ok_bind, Outcome.pure_eq]
  · rw [account.units_remaining_apply]
    exact exact_iff

/-- A share at the scale of an engine can be taken off a coarser account. -/
theorem settling_takesOff
    (held : account.remaining.IsHeldAt scale)
    (nonneg : 0 ≤ (account.remaining.lift scale).minorUnits)
    (shareScale : share.scale = scale)
    (shareNonneg : 0 ≤ share.minorUnits)
    (within :
      share.minorUnits ≤ (account.remaining.lift scale).minorUnits)
    (options : ActionOptions) :
    ∃ plan,
      settling kind account share options = .ok plan ∧
        plan.TakesOff account share := by
  have inRange := held.inRange
  obtain ⟨remaining, subtracted, remainingScale, rounded⟩ :=
    Money.subtract_from_coarser held shareScale
      (Money.hasAllDigits_of_lt (by omega)) (by omega)
  exact takesOff_of_subtract subtracted
    (Money.subtract_exact_iff held shareScale remainingScale rounded) options

/-- All that is owed can be taken off. -/
theorem settling_all
    (allDigits : account.remaining.HasAllDigits)
    (options : ActionOptions) :
    ∃ plan,
      settling kind account account.remaining options = .ok plan ∧
        plan.TakesOff account account.remaining := by
  obtain ⟨nothing, subtracted, none⟩ := Money.subtract_self allDigits
  refine takesOff_of_subtract subtracted ?_ options
  rw [none, Int.zero_add]
  exact iff_of_true rfl account.remaining.isWholeAt_scale

/-- What is settled is split among the accounts by what they owe. -/
theorem plans_settling
    (settles : kind.validation = .settlement)
    (reviewed : Reviewed)
    (scale : Nat)
    (options : ActionOptions) :
    plans kind reviewed scale options =
      (Allocation.split reviewed.preview.allowed
        (reviewed.targets.map Target.ofRemaining)) >>= fun allocation =>
          allocation.shares.mapM (ofShare kind reviewed options) := by
  have notCancel : kind ≠ .cancel := by
    rintro rfl
    cases settles
  have notRefund : kind ≠ .refund := by
    rintro rfl
    cases settles
  have targets :
      reviewed.targets.mapM (target kind reviewed scale) =
        .ok (reviewed.targets.map Target.ofRemaining) := by
    have each :
        target kind reviewed scale = fun account =>
          pure (Target.ofRemaining account) := by
      funext account
      exact if_neg notRefund
    rw [each]
    exact List.mapM_pure
  rw [plans, if_neg notCancel, targets, Outcome.ok_bind]

end AccountPlan

namespace Reviewed

/-- Plans take what was allowed off accounts of the request, each of them once. -/
structure IsSettledBy
    (reviewed : Reviewed)
    (plans : List AccountPlan) : Prop where
  each :
    ∀ plan ∈ plans,
      ∃ account share,
        reviewed.accounts.find? plan.account.id = some account ∧
          plan.TakesOff account share
  once : ((plans.flatMap (·.postings)).map (·.account)).Nodup
  adds :
    ((plans.flatMap (·.postings)).map (·.amount.units)).sum =
      reviewed.preview.allowed.units

open Allocation

variable {kind : ActionKind} {reviewed : Reviewed} {options : ActionOptions}
  {shares : List Share}

/-- The targets of a settlement, for the accounts in the order of the request. -/
def settlementTargets (reviewed : Reviewed) : List Target :=
  reviewed.targets.map Target.ofRemaining

/-- The accounts have together the room for what was allowed. -/
theorem haveRoomFor_allowed
    {scale : Nat}
    (coarse : AreCoarse scale reviewed.targets)
    (granted :
      Validation.Grants scale
        (Money.unitsOf (reviewed.targets.map (·.remaining.lift scale)))
        reviewed.preview) :
    HaveRoomFor reviewed.preview.allowed reviewed.settlementTargets := by
  obtain rfl := granted.allowed_scale
  have positive := granted.positive
  have divides := granted.divides
  have remaining := granted.remaining_nonneg
  have inRange := coarse.inRange
  have room := coarse.positiveRoom_eq reviewed.preview.allowed.scale_le
  refine
    { coarser := ?_
      bounded := by rw [settlementTargets]; omega
      nonneg := by omega
      room := by rw [settlementTargets]; omega }
  intro target member
  obtain ⟨account, among, rfl⟩ := List.mem_map.mp member
  exact coarse.coarser account among

/-- The share of an account that owes an amount can be taken off it. -/
theorem ofShare_takesOff
    (settles : kind.validation = .settlement)
    (coarse : AreCoarse reviewed.preview.allowed.scale reviewed.targets)
    (addUp :
      AddUpTo reviewed.preview.allowed (serviceOrder reviewed.settlementTargets)
        shares)
    (options : ActionOptions)
    {share : Share}
    (member : share ∈ shares) :
    ∃ plan account,
      AccountPlan.ofShare kind reviewed options
          (share.target.account, share.amount) = .ok plan ∧
        reviewed.accounts.find? share.target.account = some account ∧
        plan.TakesOff account share.amount := by
  have notRefund : kind ≠ .refund := by
    rintro rfl
    cases settles
  have capped := reviewed.preview.allowed.scale_le
  have served : share.target ∈ serviceOrder reviewed.settlementTargets :=
    addUp.sameTargets ▸ List.mem_map_of_mem member
  obtain ⟨account, among, isTarget⟩ :=
    List.mem_map.mp (mem_serviceOrder.mp served).1
  have found := (AccountBook.find?_of_mem_findEach among).2
  obtain ⟨held, nonneg, -⟩ := coarse.held capped among
  have fits := addUp.fits _ (List.mem_map_of_mem member)
  have takes :
      ∃ plan,
        AccountPlan.settling kind account share.amount options = .ok plan ∧
          plan.TakesOff account share.amount := by
    rcases addUp.whole share member with atScale | fills
    · have shareNonneg := fits.nonneg
      have within := fits.within
      rw [Share.lift, Money.lift_of_scale_eq atScale, ← isTarget]
        at shareNonneg within
      exact AccountPlan.settling_takesOff held nonneg atScale shareNonneg within
        options
    · rw [fills, ← isTarget]
      exact AccountPlan.settling_all (held.hasAllDigits capped) options
  obtain ⟨plan, planned, takesOff⟩ := takes
  have sameAccount : share.target.account = account.id := by
    rw [← isTarget]
    rfl
  refine ⟨plan, account, ?_, sameAccount ▸ found, takesOff⟩
  simp only [AccountPlan.ofShare, sameAccount]
  rw [show reviewed.accounts.find? account.id = some account from found]
  simp only [if_neg notRefund]
  exact planned

/-- Plans that take the shares of an allocation off accounts settle it. -/
theorem isSettledBy_of_takesOff
    {allocation : Allocation}
    {plans : List AccountPlan}
    (distinct : (plans.map (·.account.id)).Nodup)
    (adds :
      (allocation.shares.map (·.2.units)).sum =
        reviewed.preview.allowed.units)
    (related :
      List.Forall₂
        (fun share plan =>
          ∃ account,
            reviewed.accounts.find? share.1 = some account ∧
              AccountPlan.TakesOff account share.2 plan)
        allocation.shares plans) :
    reviewed.IsSettledBy plans := by
  have ids : plans.map (·.account.id) = allocation.shares.map Prod.fst := by
    apply map_eq_map_of_forall₂
    refine related.imp fun share plan isPlan => ?_
    obtain ⟨account, found, takesOff⟩ := isPlan
    exact takesOff.sameDebt.id.trans (AccountBook.id_of_find? found)
  have accounts :
      (plans.flatMap (·.postings)).map (·.account) =
        allocation.shares.map Prod.fst := by
    apply map_flatMap_of_forall₂
    refine related.imp fun share plan isPlan => ?_
    obtain ⟨account, found, takesOff⟩ := isPlan
    obtain ⟨posting, alone, own, -⟩ := takesOff.posts
    exact ⟨posting, alone, own.trans (AccountBook.id_of_find? found)⟩
  have amounts :
      (plans.flatMap (·.postings)).map (·.amount.units) =
        allocation.shares.map (·.2.units) := by
    apply map_flatMap_of_forall₂
    refine related.imp fun share plan isPlan => ?_
    obtain ⟨account, -, takesOff⟩ := isPlan
    obtain ⟨posting, alone, -, amount⟩ := takesOff.posts
    exact ⟨posting, alone, congrArg Money.units amount⟩
  refine
    { each := ?_
      once := by rw [accounts, ← ids]; exact distinct
      adds := by rw [amounts]; exact adds }
  intro plan member
  obtain ⟨share, -, account, found, takesOff⟩ := exists_of_forall₂ related member
  refine ⟨account, share.2, ?_, takesOff⟩
  rw [takesOff.sameDebt.id, AccountBook.id_of_find? found]
  exact found

/--
A settlement of coarser accounts that was granted has plans that settle it, unless
a unit is lost in its split: then it fails and names less than was allowed.
-/
theorem plans_settle
    {scale : Nat}
    (settles : kind.validation = .settlement)
    (coarse : AreCoarse scale reviewed.targets)
    (granted :
      Validation.Grants scale
        (Money.unitsOf (reviewed.targets.map (·.remaining.lift scale)))
        reviewed.preview)
    (distinct : reviewed.ids.Nodup)
    (options : ActionOptions) :
    (LosesUnit reviewed.preview.allowed
          (serviceOrder reviewed.settlementTargets) →
        ∃ allocated : Money,
          allocated < reviewed.preview.allowed ∧
            AccountPlan.plans kind reviewed scale options =
              Outcome.fail
                (.unbalancedAllocation reviewed.preview.allowed.text
                  allocated.text)) ∧
      (¬ LosesUnit reviewed.preview.allowed
          (serviceOrder reviewed.settlementTargets) →
        ∃ plans,
          AccountPlan.plans kind reviewed scale options = .ok plans ∧
            reviewed.IsSettledBy plans) := by
  obtain rfl := granted.allowed_scale
  have haveRoom := haveRoomFor_allowed coarse granted
  have nonempty : reviewed.settlementTargets ≠ [] := by
    intro nobody
    have positive := granted.positive
    have room := haveRoom.room
    rw [nobody] at room
    have nothing : positiveRoom [] = 0 := rfl
    rw [List.map_nil] at room
    omega
  obtain ⟨loses, keeps⟩ := split_coarse nonempty haveRoom
  have planning := AccountPlan.plans_settling settles reviewed
    reviewed.preview.allowed.scale options
  constructor
  · intro lost
    obtain ⟨allocated, allocatedScale, less, failed⟩ := loses lost
    refine ⟨allocated, (Money.lt_iff allocatedScale.symm).mpr less, ?_⟩
    rw [planning]
    exact congrArg (· >>= _) failed
  · intro kept
    obtain ⟨shares, succeeds, addUp⟩ := keeps kept
    have each :
        ∀ share ∈ (ofShares shares).shares,
          ∃ plan,
            AccountPlan.ofShare kind reviewed options share = .ok plan ∧
              ∃ account,
                reviewed.accounts.find? share.1 = some account ∧
                  plan.TakesOff account share.2 := by
      intro share member
      rw [shares_ofShares] at member
      obtain ⟨own, among, rfl⟩ := List.mem_map.mp member
      obtain ⟨plan, account, planned, found, takesOff⟩ :=
        ofShare_takesOff settles coarse addUp options
          (List.mem_of_mem_filter among)
      exact ⟨plan, planned, account, found, takesOff⟩
    obtain ⟨plans, mapped, related⟩ := Outcome.mapM_of_forall each
    have planned :
        AccountPlan.plans kind reviewed reviewed.preview.allowed.scale options =
          .ok plans := by
      rw [planning]
      exact (congrArg (· >>= _) succeeds).trans mapped
    exact ⟨plans, planned,
      isSettledBy_of_takesOff (AccountPlan.nodup_ids_of_plans planned distinct)
        (addUp.sum_units haveRoom.servedCoarser) related⟩

end Reviewed

end PatronFees
