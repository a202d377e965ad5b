import PatronFees.Proofs.Engine.Coarse
import PatronFees.Proofs.Preview

namespace PatronFees

open Allocation

/-!
# Settling coarser accounts

A payment, waiver or transfer over accounts of coarser scales that passes its check
fails only where a unit is lost in its split. Where it succeeds, its entries come
to exactly what was allowed; but what an account still owes is rounded to its own
scale, and falls by exactly its entry only if that is whole at this scale.
-/

/-- The accounts of a call as targets for what is settled, each of them once. -/
def Office.targetsOf
    (office : Office)
    (call : Call) : List Target :=
  (office.accounts.findEach call.accounts.eraseDups).map Target.ofRemaining

/-- A receipt whose entries come to the amount that was allowed, one an account. -/
structure Receipt.Settles
    (preview : Preview)
    (before after : Office)
    (receipt : Receipt) : Prop where
  amount : receipt.amount = preview.allowed
  remaining : receipt.remaining = preview.remaining
  recorded : after.ledger = receipt.entries.foldl Ledger.append before.ledger
  adds :
    (receipt.entries.map (·.posting.amount.units)).sum = preview.allowed.units
  once : (receipt.entries.map (·.account)).Nodup
  /-- An account falls by its entry exactly if the entry is whole at its scale. -/
  falls :
    ∀ entry ∈ receipt.entries,
      ∃ old now,
        before.accounts.find? entry.account = some old ∧
          after.accounts.find? entry.account = some now ∧
          (now.remaining.units + entry.posting.amount.units =
              old.remaining.units ↔
            entry.posting.amount.IsWholeAt old.remaining.scale)
  untouched :
    ∀ id,
      id ∉ receipt.entries.map (·.account) →
        after.accounts.find? id = before.accounts.find? id

section Settling

variable {engine : Engine} {office after : Office} {call : Call}
  {reviewed : Reviewed} {plans : List AccountPlan}

/-- The accounts of the entries are those of what the plans post. -/
theorem Engine.map_account_entriesOf
    (office : Office)
    (plans : List AccountPlan) :
    (Engine.entriesOf office plans).map (·.account) =
      (plans.flatMap (·.postings)).map (·.account) := by
  rw [← Engine.map_posting_entriesOf office plans, List.map_map]
  rfl

/-- An account falls by its entry exactly if the entry is whole at its scale. -/
theorem Engine.HasCarriedOut.falls
    (done : Engine.HasCarriedOut office plans after)
    (isPlanned : engine.IsPlanned office call reviewed plans)
    (settled : reviewed.IsSettledBy plans)
    {entry : LedgerEntry}
    (member : entry ∈ Engine.entriesOf office plans) :
    ∃ old now,
      office.accounts.find? entry.account = some old ∧
        after.accounts.find? entry.account = some now ∧
        (now.remaining.units + entry.posting.amount.units =
            old.remaining.units ↔
          entry.posting.amount.IsWholeAt old.remaining.scale) := by
  have isRead := Engine.isReadFrom_of_review isPlanned.accepted
  have posted : entry.posting ∈ plans.flatMap (·.postings) := by
    rw [← Engine.map_posting_entriesOf office plans]
    exact List.mem_map_of_mem member
  obtain ⟨plan, among, inside⟩ := List.mem_flatMap.mp posted
  obtain ⟨account, share, found, takesOff⟩ := settled.each plan among
  obtain ⟨posting, alone, own, amount⟩ := takesOff.posts
  rw [alone, List.mem_singleton] at inside
  have sameAccount : entry.account = plan.account.id := by
    rw [takesOff.sameDebt.id, ← own, ← inside]
    rfl
  have saved : plan.account ∈ plans.map (·.account) :=
    List.mem_map_of_mem among
  have distinct : ((plans.map (·.account)).map (·.id)).Nodup := by
    rw [List.map_map]
    exact isPlanned.distinct
  rw [isRead.accounts_eq, AccountBook.find?_only] at found
  split at found
  next =>
    rw [sameAccount, inside, amount, done.accounts]
    exact ⟨account, plan.account, found,
      AccountBook.find?_saveAll_of_mem distinct saved, takesOff.exact_iff⟩
  next =>
    cases found

/-- An account without an entry is left as it is. -/
theorem Engine.HasCarriedOut.untouched
    (done : Engine.HasCarriedOut office plans after)
    (settled : reviewed.IsSettledBy plans)
    {id : AccountId}
    (absent : id ∉ (Engine.entriesOf office plans).map (·.account)) :
    after.accounts.find? id = office.accounts.find? id := by
  rw [done.accounts]
  apply AccountBook.find?_saveAll_of_forall_ne
  rintro account member rfl
  obtain ⟨plan, among, rfl⟩ := List.mem_map.mp member
  obtain ⟨account, share, -, takesOff⟩ := settled.each plan among
  obtain ⟨posting, alone, own, -⟩ := takesOff.posts
  apply absent
  rw [Engine.map_account_entriesOf, takesOff.sameDebt.id, ← own]
  refine List.mem_map_of_mem (List.mem_flatMap.mpr ⟨plan, among, ?_⟩)
  rw [alone]
  exact List.mem_singleton_self posting

/-- Plans that settle a call end with a receipt that settles it. -/
theorem Engine.HasCarriedOut.settles
    (done : Engine.HasCarriedOut office plans after)
    (isPlanned : engine.IsPlanned office call reviewed plans)
    (settled : reviewed.IsSettledBy plans) :
    (Engine.receiptFor office reviewed plans).Settles reviewed.preview office
      after where
  amount := rfl
  remaining := rfl
  recorded := done.ledger
  adds := by
    have adds := settled.adds
    rw [← Engine.map_posting_entriesOf office plans, List.map_map] at adds
    exact adds
  once := Engine.map_account_entriesOf office plans ▸ settled.once
  falls _ member := done.falls isPlanned settled member
  untouched _ absent := done.untouched settled absent

/-- A call that settles what is owed on coarser accounts was reviewed and granted. -/
structure Engine.IsGranted
    (engine : Engine)
    (office : Office)
    (call : Call)
    (reviewed : Reviewed) : Prop where
  accepted :
    engine.reviewIn office call.kind call.accounts call.amount = .ok reviewed
  settles : call.kind.validation = .settlement
  coarse : AreCoarse engine.scale reviewed.targets
  grants :
    Validation.Grants engine.scale
      (Money.unitsOf (reviewed.targets.map (·.remaining.lift engine.scale)))
      reviewed.preview
  targets : office.targetsOf call = reviewed.settlementTargets

/-- What passes its check was granted. -/
theorem Engine.exists_isGranted
    {preview : Preview}
    (settles : call.kind.validation = .settlement)
    (coarse :
      AreCoarse engine.scale (office.accounts.findEach call.accounts.eraseDups))
    (passes :
      (office.run (engine.check call.kind call.accounts call.amount)).1 =
        .ok preview) :
    ∃ reviewed,
      engine.IsGranted office call reviewed ∧ reviewed.preview = preview := by
  rw [engine.run_check] at passes
  cases accepted :
      engine.reviewIn office call.kind call.accounts call.amount with
  | error halt =>
      rw [accepted] at passes
      cases passes
  | ok reviewed =>
      rw [accepted] at passes
      have isRead := Engine.isReadFrom_of_review accepted
      have targets := isRead.targets_eq
      rw [isRead.ids_eq] at targets
      rw [← targets] at coarse
      have checked := isRead.checked
      rw [settles] at checked
      exact ⟨reviewed,
        { accepted := accepted
          settles := settles
          coarse := coarse
          grants :=
            Validation.grants_of_settlement engine.scale_le coarse checked
          targets := by
            rw [Office.targetsOf, ← targets, Reviewed.settlementTargets] },
        Except.ok.inj passes⟩

namespace Engine.IsGranted

/-- Where a unit is lost, the call fails and changes no store. -/
theorem fails
    (granted : engine.IsGranted office call reviewed)
    (loses :
      LosesUnit reviewed.preview.allowed
        (serviceOrder (office.targetsOf call))) :
    ∃ allocated : Money,
      allocated < reviewed.preview.allowed ∧
        (office.run (engine.perform call)).1 =
          Outcome.fail
            (.unbalancedAllocation reviewed.preview.allowed.text
              allocated.text) ∧
        HasStoresOf (office.run (engine.perform call)).2 office := by
  have isRead := isReadFrom_of_review granted.accepted
  rw [granted.targets] at loses
  obtain ⟨allocated, less, failed⟩ :=
    (Reviewed.plans_settle granted.settles granted.coarse granted.grants
      isRead.distinct call.options).1 loses
  obtain ⟨after, ended, same⟩ := run_perform_unplanned granted.accepted failed
  rw [ended]
  exact ⟨allocated, less, rfl, same⟩

/-- Where no unit is lost, the call succeeds with a receipt that settles it. -/
theorem succeeds
    (granted : engine.IsGranted office call reviewed)
    (fresh : office.DrawsFresh (4 * call.accounts.length))
    (keeps :
      ¬ LosesUnit reviewed.preview.allowed
        (serviceOrder (office.targetsOf call))) :
    ∃ receipt,
      (office.run (engine.perform call)).1 = .ok receipt ∧
        receipt.Settles reviewed.preview office
          (office.run (engine.perform call)).2 := by
  have isRead := isReadFrom_of_review granted.accepted
  rw [granted.targets] at keeps
  obtain ⟨plans, planned, settled⟩ :=
    (Reviewed.plans_settle granted.settles granted.coarse granted.grants
      isRead.distinct call.options).2 keeps
  obtain ⟨after, ended, done⟩ :=
    run_perform_fresh granted.accepted planned
      (found_of_review granted.accepted)
      (firstRepeated?_entriesOf fresh
        (arePlansFor_of_plans isRead.ids_eq planned).few)
  rw [ended]
  exact ⟨_, rfl, done.settles ⟨granted.accepted, planned⟩ settled⟩

/-- On one account no unit is lost. -/
theorem keeps_of_one
    (granted : engine.IsGranted office call reviewed)
    (one : call.accounts.eraseDups.length ≤ 1) :
    ¬ LosesUnit reviewed.preview.allowed
        (serviceOrder (office.targetsOf call)) := by
  have few :
      (office.targetsOf call).length ≤ call.accounts.eraseDups.length := by
    rw [Office.targetsOf, List.length_map]
    exact List.length_filterMap_le _ _
  have haveRoom := Reviewed.haveRoomFor_allowed granted.coarse granted.grants
  rw [← granted.targets] at haveRoom
  exact not_losesUnit_of_length_le_one haveRoom (few.trans one)

end Engine.IsGranted

end Settling

/--
The accounts of a call owe amounts at scales no finer than that of the engine, below
`2 ^ 95` units of it together, and the next identifiers are fresh. A payment, waiver
or transfer that passes its check then fails exactly where its split loses a unit,
which it never does on one account: it changes no store and names less than was
allowed. Otherwise it succeeds, and its entries come to exactly what was allowed.
-/
theorem settling_coarse_accounts
    {engine : Engine}
    {office : Office}
    {call : Call}
    {preview : Preview}
    (settles : call.kind.validation = .settlement)
    (coarse :
      AreCoarse engine.scale (office.accounts.findEach call.accounts.eraseDups))
    (fresh : office.DrawsFresh (4 * call.accounts.length))
    (passes :
      (office.run (engine.check call.kind call.accounts call.amount)).1 =
        .ok preview) :
    let served := serviceOrder (office.targetsOf call)
    let performed := office.run (engine.perform call)
    (LosesUnit preview.allowed served →
        ∃ allocated : Money,
          allocated < preview.allowed ∧
            performed.1 =
              Outcome.fail
                (.unbalancedAllocation preview.allowed.text allocated.text) ∧
            Engine.HasStoresOf performed.2 office) ∧
      (¬ LosesUnit preview.allowed served →
        ∃ receipt,
          performed.1 = .ok receipt ∧
            receipt.Settles preview office performed.2) ∧
      (call.accounts.eraseDups.length ≤ 1 →
        ¬ LosesUnit preview.allowed served) := by
  obtain ⟨reviewed, granted, rfl⟩ :=
    Engine.exists_isGranted settles coarse passes
  exact ⟨granted.fails, granted.succeeds fresh, granted.keeps_of_one⟩

/-- An office with an account of whole units and two of hundredths. -/
def Office.withCoarseAccount : Office :=
  .opened
    (.ofList
      [.new "a" "u" "Overdue" (.ofMinorUnits 1 0) .epoch,
        .new "b" "u" "Lost item" (.ofMinorUnits 1000 2) .epoch,
        .new "c" "u" "Damage" (.ofMinorUnits 1000 2) .epoch])
    1 .epoch

/-- Three accounts share a payment of which nothing is left over. -/
theorem settling_coarse_accounts_even :
    let call : Call := .bulk .pay ["a", "b", "c"] (some "10.00") .none
    let performed := Office.withCoarseAccount.run ((Engine.new 2).perform call)
    ∃ receipt,
      performed.1 = .ok receipt ∧
        receipt.Settles ⟨.ofMinorUnits 1000 2, .ofMinorUnits 1100 2⟩
          .withCoarseAccount performed.2 := by
  intro call performed
  have inOrder :
      serviceOrder (Office.withCoarseAccount.targetsOf call) =
        Office.withCoarseAccount.targetsOf call :=
    serviceOrder_of_ordered (by decide +kernel) (by decide +kernel)
  have coarse :
      AreCoarse (Engine.new 2).scale
        (Office.withCoarseAccount.accounts.findEach call.accounts.eraseDups) :=
    ⟨by decide +kernel, by decide +kernel, by decide +kernel⟩
  have passes :
      (Office.withCoarseAccount.run
          ((Engine.new 2).check call.kind call.accounts call.amount)).1 =
        .ok ⟨.ofMinorUnits 1000 2, .ofMinorUnits 1100 2⟩ := by
    decide +kernel
  obtain ⟨-, succeeds, -⟩ :=
    settling_coarse_accounts rfl coarse (by decide +kernel) passes
  apply succeeds
  rw [inOrder]
  decide +kernel

/--
Of one hundredth more, the first account takes the unit that is left over: it was
filled by its share and is rounded back to it. So the payment passes its check and
fails for the unit that was lost, though the accounts owe enough.
-/
theorem settling_coarse_accounts_lostUnit :
    let call : Call := .bulk .pay ["a", "b", "c"] (some "10.01") .none
    let engine := Engine.new 2
    let office := Office.withCoarseAccount
    AreCoarse engine.scale
        (office.accounts.findEach call.accounts.eraseDups) ∧
      (office.run (engine.check call.kind call.accounts call.amount)).1 =
        .ok ⟨.ofMinorUnits 1001 2, .ofMinorUnits 1099 2⟩ ∧
      ∃ allocated,
        (office.run (engine.perform call)).1 =
          Outcome.fail (.unbalancedAllocation "10.01" allocated) := by
  intro call engine office
  have inOrder :
      serviceOrder (office.targetsOf call) = office.targetsOf call :=
    serviceOrder_of_ordered (by decide +kernel) (by decide +kernel)
  have coarse :
      AreCoarse engine.scale
        (office.accounts.findEach call.accounts.eraseDups) :=
    ⟨by decide +kernel, by decide +kernel, by decide +kernel⟩
  have passes :
      (office.run (engine.check call.kind call.accounts call.amount)).1 =
        .ok ⟨.ofMinorUnits 1001 2, .ofMinorUnits 1099 2⟩ := by
    decide +kernel
  refine ⟨coarse, passes, ?_⟩
  obtain ⟨reviewed, granted, same⟩ :=
    Engine.exists_isGranted rfl coarse passes
  have loses :
      LosesUnit reviewed.preview.allowed
        (serviceOrder (office.targetsOf call)) := by
    rw [inOrder, same]
    decide +kernel
  obtain ⟨allocated, -, failed, -⟩ := granted.fails loses
  rw [same] at failed
  exact ⟨allocated.text, failed⟩

end PatronFees
