import PatronFees.Proofs.Engine.Fresh
import PatronFees.Proofs.Engine.SameSet

namespace PatronFees

open List

/-!
# Only the set of accounts matters

A request may name accounts in any order and as often as it likes. Two requests
that name the same accounts end alike: they are refused in the same way, or they
apply the same amounts, leave the same accounts and post the same on each of
them. Named alone, an account is left as by an action over several.
-/

/-- Two results tell the same, their accounts perhaps in another order. -/
structure BulkResult.TellsSame (first second : BulkResult) : Prop where
  amount : first.amount = second.amount
  remaining : first.remaining = second.remaining
  accounts : first.accounts ~ second.accounts
  entries : ∀ id, postingsOn first.entries id = postingsOn second.entries id

/-- The result for one account tells the same as one for several. -/
structure ActionResult.TellsSame
    (alone : ActionResult)
    (several : BulkResult) : Prop where
  amount : alone.amount = several.amount
  remaining : alone.remaining = several.remaining
  account : several.accounts = [alone.account]
  entries : alone.entries = several.entries

/-- Two offices have the same accounts, and the same is posted on each. -/
structure Office.HasSameBooks (first second : Office) : Prop where
  accounts : first.accounts = second.accounts
  histories :
    ∀ id,
      (first.ledger.historyOf id).map (·.posting) =
        (second.ledger.historyOf id).map (·.posting)

namespace AccountPlan

variable {plans others : List AccountPlan} {id : AccountId}

/-- Plans in another order post the same on each account. -/
theorem postings_filter_perm
    (onAccount :
      ∀ plan ∈ plans,
        ∀ posting ∈ plan.postings, posting.account = plan.account.id)
    (distinct : (plans.map (·.account.id)).Nodup)
    (same : plans ~ others)
    (id : AccountId) :
    (plans.flatMap (·.postings)).filter (·.account == id) =
      (others.flatMap (·.postings)).filter (·.account == id) := by
  have othersOn :
      ∀ plan ∈ others,
        ∀ posting ∈ plan.postings, posting.account = plan.account.id :=
    fun plan member => onAccount plan (same.mem_iff.mpr member)
  by_cases isPlanned : ∃ plan ∈ plans, plan.account.id = id
  · obtain ⟨plan, member, rfl⟩ := isPlanned
    rw [postings_filter_of_mem onAccount distinct member,
      postings_filter_of_mem othersOn ((same.map _).nodup distinct)
        (same.mem_iff.mp member)]
  · have different : ∀ plan ∈ plans, plan.account.id ≠ id :=
      fun plan member isIt => isPlanned ⟨plan, member, isIt⟩
    rw [postings_filter_of_forall_ne onAccount different,
      postings_filter_of_forall_ne othersOn
        fun plan member => different plan (same.mem_iff.mpr member)]

end AccountPlan

/-- An identifier is drawn for a posting whatever it says. -/
theorem Ledger.firstRepeated?_map_id
    {used : List EntryId}
    {entries others : List LedgerEntry}
    (same : entries.map (·.id) = others.map (·.id)) :
    (firstRepeated? used entries).map (·.id) =
      (firstRepeated? used others).map (·.id) := by
  induction entries generalizing used others with
  | nil =>
      rw [List.map_eq_nil_iff.mp same.symm]
  | cons entry rest inductionHypothesis =>
      cases others with
      | nil =>
          cases same
      | cons other behind =>
          obtain ⟨first, later⟩ := List.cons.inj same
          dsimp only at first
          rw [firstRepeated?, firstRepeated?, first]
          split
          next =>
            exact congrArg some first
          next =>
            exact inductionHypothesis later

namespace Engine

variable {engine : Engine} {office : Office} {kind : ActionKind}
  {accounts others : List AccountId} {amount : Option String}
  {options : ActionOptions} {order otherOrder : SaveOrder}
  {first second : Reviewed} {plans otherPlans : List AccountPlan}

/-- Plans for the same accounts, in orders of their own. -/
structure SamePlans (plans others : List AccountPlan) : Prop where
  distinct : (plans.map (·.account.id)).Nodup
  onAccount :
    ∀ plan ∈ plans,
      ∀ posting ∈ plan.postings, posting.account = plan.account.id
  perm : plans ~ others

/-- Requests for the same accounts have the same plans. -/
theorem samePlans_of_perm
    (same : SameRequest first second)
    (planned : AccountPlan.plans kind first engine.scale options = .ok plans)
    (perm : plans ~ otherPlans) :
    SamePlans plans otherPlans where
  distinct := AccountPlan.nodup_ids_of_plans planned same.distinct
  onAccount := by
    intro plan member posting inside
    obtain ⟨account, -, isFor⟩ := AccountPlan.isFor_of_mem_plans planned member
    exact (isFor.onAccount posting inside).trans isFor.sameDebt.id.symm
  perm := perm

/-- The accounts of requests for the same accounts stand in the end as planned. -/
theorem SamePlans.standing_perm
    (plansSame : SamePlans plans otherPlans)
    (same : SameRequest first second) :
    standing first plans ~ standing second otherPlans := by
  have sameFound :
      ∀ id,
        (plans.map (·.account)).find? (·.id == id) =
          (otherPlans.map (·.account)).find? (·.id == id) := by
    refine find?_eq_of_perm Account.id ?_ (plansSame.perm.map _)
    rw [List.map_map]
    exact plansSame.distinct
  simp only [standing, sameFound, same.accounts]
  exact same.ids.filterMap _

/-- The same accounts are saved, in whichever orders. -/
theorem SamePlans.saveAll_eq
    (plansSame : SamePlans plans otherPlans)
    (order otherOrder : SaveOrder)
    (book : AccountBook) :
    (order.arrange (plans.map (·.account))).foldl AccountBook.save book =
      (otherOrder.arrange (otherPlans.map (·.account))).foldl AccountBook.save
        book := by
  have between :
      order.arrange (plans.map (·.account)) ~
        otherOrder.arrange (otherPlans.map (·.account)) :=
    (order.perm _).trans
      ((plansSame.perm.map _).trans (otherOrder.perm _).symm)
  refine AccountBook.saveAll_perm ?_ between
  refine ((order.perm _).map _).symm.nodup ?_
  rw [List.map_map]
  exact plansSame.distinct

/-- The same is posted on each account. -/
theorem SamePlans.postingsOn_entriesOf
    (plansSame : SamePlans plans otherPlans)
    (office : Office)
    (id : AccountId) :
    postingsOn (entriesOf office plans) id =
      postingsOn (entriesOf office otherPlans) id := by
  rw [Engine.postingsOn_entriesOf, Engine.postingsOn_entriesOf]
  exact AccountPlan.postings_filter_perm plansSame.onAccount
    plansSame.distinct plansSame.perm id

/-- The same plans draw the same identifiers. -/
theorem SamePlans.ids_entriesOf
    (plansSame : SamePlans plans otherPlans)
    (office : Office) :
    (entriesOf office plans).map (·.id) =
      (entriesOf office otherPlans).map (·.id) := by
  have asMany :
      (plans.flatMap (·.postings)).length =
        (otherPlans.flatMap (·.postings)).length :=
    (plansSame.perm.flatMap_right _).length_eq
  rw [entriesOf, entriesOf, map_id_stampedFrom, map_id_stampedFrom, asMany]

/-- Recording entries adds to a history what they post on its account. -/
theorem history_recorded
    (ledger : Ledger)
    (entries : List LedgerEntry)
    (id : AccountId) :
    ((entries.foldl Ledger.append ledger).historyOf id).map (·.posting) =
      (ledger.historyOf id).map (·.posting) ++ postingsOn entries id := by
  rw [Ledger.historyOf_foldl_append, List.map_append, postingsOn]

theorem hasSameBooks_of_stores
    {after otherAfter : Office}
    (same : HasStoresOf after office)
    (otherSame : HasStoresOf otherAfter office) :
    after.HasSameBooks otherAfter where
  accounts := same.accounts.trans otherSame.accounts.symm
  histories := by
    intro id
    rw [same.ledger, otherSame.ledger]

/-- The same plans are carried out alike, in whichever order accounts are saved. -/
theorem SamePlans.run_alike
    (plansSame : SamePlans plans otherPlans)
    (same : SameRequest first second)
    (read : engine.reviewIn office kind accounts amount = .ok first)
    (otherRead : engine.reviewIn office kind others amount = .ok second)
    (planned : AccountPlan.plans kind first engine.scale options = .ok plans)
    (otherPlanned :
      AccountPlan.plans kind second engine.scale options = .ok otherPlans)
    (order otherOrder : SaveOrder) :
    let ended := office.run (engine.bulkSaving order kind accounts amount options)
    let otherEnded :=
      office.run (engine.bulkSaving otherOrder kind others amount options)
    Outcome.Alike BulkResult.TellsSame ended.1 otherEnded.1 ∧
      ended.2.HasSameBooks otherEnded.2 := by
  intro ended otherEnded
  have ids := plansSame.ids_entriesOf office
  have repeats :
      (Ledger.firstRepeated? office.ledger.ids (entriesOf office plans)).map (·.id) =
        (Ledger.firstRepeated? office.ledger.ids
          (entriesOf office otherPlans)).map (·.id) :=
    Ledger.firstRepeated?_map_id ids
  cases found : Ledger.firstRepeated? office.ledger.ids (entriesOf office plans) with
  | none =>
      rw [found] at repeats
      have otherFresh := Option.map_eq_none_iff.mp repeats.symm
      obtain ⟨after, run, saved, ledger⟩ :=
        run_bulkSaving_fresh order read planned found
      obtain ⟨otherAfter, otherRun, otherSaved, otherLedger⟩ :=
        run_bulkSaving_fresh otherOrder otherRead otherPlanned otherFresh
      have isEnded : ended = _ := run
      have isOtherEnded : otherEnded = _ := otherRun
      rw [isEnded, isOtherEnded]
      refine ⟨.results ?_, ?_, ?_⟩
      · exact
          { amount := congrArg Preview.allowed same.preview
            remaining := congrArg Preview.remaining same.preview
            accounts := plansSame.standing_perm same
            entries := plansSame.postingsOn_entriesOf office }
      · rw [saved, otherSaved]
        exact plansSame.saveAll_eq order otherOrder _
      · intro id
        rw [ledger, otherLedger, history_recorded, history_recorded,
          plansSame.postingsOn_entriesOf]
  | some repeated =>
      rw [found] at repeats
      obtain ⟨other, otherFound, sameId⟩ := Option.map_eq_some_iff.mp repeats.symm
      have isEnded : ended = _ :=
        run_bulkSaving_repeated order read planned found
      have isOtherEnded : otherEnded = _ :=
        run_bulkSaving_repeated otherOrder otherRead otherPlanned otherFound
      have asMany := congrArg List.length ids
      rw [List.length_map, List.length_map] at asMany
      rw [isEnded, isOtherEnded, asMany, Ledger.conflict, Ledger.conflict, sameId]
      exact ⟨.halts (.same _), hasSameBooks_of_stores ⟨rfl, rfl⟩ ⟨rfl, rfl⟩⟩

/-- Actions over the same accounts end alike. -/
theorem run_bulkSaving_alike
    (recorded : office.ledger.IsRecorded)
    (inRange : office.accounts.IsInRange engine.scale)
    (kind : ActionKind)
    (amount : Option String)
    (options : ActionOptions)
    (sameSet : ∀ id, id ∈ accounts ↔ id ∈ others)
    (order otherOrder : SaveOrder) :
    let ended := office.run (engine.bulkSaving order kind accounts amount options)
    let otherEnded :=
      office.run (engine.bulkSaving otherOrder kind others amount options)
    Outcome.Alike BulkResult.TellsSame ended.1 otherEnded.1 ∧
      ended.2.HasSameBooks otherEnded.2 := by
  intro ended otherEnded
  have reviews := reviewIn_alike recorded inRange kind amount sameSet
  generalize read : engine.reviewIn office kind accounts amount = outcome at reviews
  generalize otherRead : engine.reviewIn office kind others amount = otherOutcome
    at reviews
  cases reviews with
  | halts isLike =>
      have isEnded : ended = _ := run_bulkSaving_refused order read options
      have isOtherEnded : otherEnded = _ :=
        run_bulkSaving_refused otherOrder otherRead options
      rw [isEnded, isOtherEnded]
      exact ⟨.halts isLike, hasSameBooks_of_stores ⟨rfl, rfl⟩ ⟨rfl, rfl⟩⟩
  | @results first second same =>
      have plannings := AccountPlan.plans_alike same kind engine.scale options
      generalize planned :
        AccountPlan.plans kind first engine.scale options = planning at plannings
      generalize otherPlanned :
        AccountPlan.plans kind second engine.scale options = otherPlanning
        at plannings
      cases plannings with
      | halts isLike =>
          obtain ⟨after, run, stores⟩ :=
            run_bulkSaving_unplanned order read planned
          obtain ⟨otherAfter, otherRun, otherStores⟩ :=
            run_bulkSaving_unplanned otherOrder otherRead otherPlanned
          have isEnded : ended = _ := run
          have isOtherEnded : otherEnded = _ := otherRun
          rw [isEnded, isOtherEnded]
          exact ⟨.halts isLike, hasSameBooks_of_stores stores otherStores⟩
      | results perm =>
          exact (samePlans_of_perm same planned perm).run_alike same read
            otherRead planned otherPlanned order otherOrder

section OneAccount

variable {id : AccountId} {reviewed : Reviewed}

/-- A request that names one account, however often, is reviewed as for it alone. -/
theorem reviewIn_one
    (engine : Engine)
    (office : Office)
    (only : ∀ other, other ∈ accounts ↔ other = id)
    (kind : ActionKind)
    (amount : Option String) :
    engine.reviewIn office kind accounts amount =
      engine.reviewIn office kind [id] amount := by
  have once : accounts.eraseDups = [id] := by
    have sameSet : ∀ other, other ∈ accounts ↔ other ∈ [id] := by
      intro other
      rw [only, List.mem_singleton]
    exact (List.perm_singleton.mp (eraseDups_perm sameSet))
  rw [reviewIn, reviewIn, once]
  rfl

/-- One account has one plan at most. -/
theorem plans_of_one
    (isRead : engine.IsReadFrom office kind [id] amount reviewed)
    (planned : AccountPlan.plans kind reviewed engine.scale options = .ok plans) :
    plans.length ≤ 1 ∧ ∀ plan ∈ plans, plan.account.id = id := by
  have named := AccountPlan.ids_of_plans planned
  have targetIds : reviewed.targets.map (·.id) ⊆ [id] := by
    intro other member
    obtain ⟨account, among, rfl⟩ := List.mem_map.mp member
    have inIds := (AccountBook.find?_of_mem_findEach among).1
    rw [isRead.ids_eq, List.mem_eraseDups] at inIds
    exact inIds
  have few := ((AccountPlan.nodup_ids_of_plans planned isRead.distinct).subperm
    fun other member => targetIds (named.subset member)).length_le
  rw [List.length_map] at few
  refine ⟨few, fun plan member => ?_⟩
  exact List.mem_singleton.mp
    (targetIds (named.subset (List.mem_map_of_mem member)))

/-- The account of a request for one stands in the end as it was saved. -/
theorem standing_one
    (isRead : engine.IsReadFrom office kind [id] amount reviewed)
    (planned : AccountPlan.plans kind reviewed engine.scale options = .ok plans)
    {saved : Account}
    (isSaved :
      ((plans.map (·.account)).getLast? <|> reviewed.accounts.find? id) =
        some saved) :
    standing reviewed plans = [saved] := by
  obtain ⟨few, own⟩ := plans_of_one isRead planned
  have sameFound :
      (plans.map (·.account)).find? (·.id == id) =
        (plans.map (·.account)).getLast? := by
    rcases plans with _ | ⟨plan, _ | ⟨next, rest⟩⟩
    · rfl
    · have isIt := beq_iff_eq.mpr (own plan List.mem_cons_self)
      rw [List.map_singleton, List.find?_cons, isIt, List.getLast?_singleton]
    · simp only [List.length_cons] at few
      omega
  have once : reviewed.ids = [id] := isRead.ids_eq
  rw [standing, once, List.filterMap_cons, sameFound, isSaved]
  rfl

/-- Named alone, an account is left as by an action over several. -/
theorem run_single_alike
    (fresh : office.DrawsFresh 4)
    (only : ∀ other, other ∈ accounts ↔ other = id)
    (kind : ActionKind)
    (amount : Option String)
    (options : ActionOptions)
    (order : SaveOrder) :
    let alone := office.run (engine.single kind id amount options)
    let several := office.run (engine.bulkSaving order kind accounts amount options)
    Outcome.Alike ActionResult.TellsSame alone.1 several.1 ∧
      HasStoresOf alone.2 several.2 := by
  intro alone several
  have review := reviewIn_one engine office only kind amount
  cases read : engine.reviewIn office kind [id] amount with
  | error halt =>
      have isAlone : alone = _ := run_single_refused read options
      have isSeveral : several = _ :=
        run_bulkSaving_refused order (review.trans read) options
      rw [isAlone, isSeveral]
      exact ⟨.halts (.same _), rfl, rfl⟩
  | ok reviewed =>
      have isRead := isReadFrom_of_review read
      cases planned : AccountPlan.plans kind reviewed engine.scale options with
      | error halt =>
          obtain ⟨after, run, stores⟩ := run_single_unplanned read planned
          obtain ⟨bulkAfter, bulkRun, bulkStores⟩ :=
            run_bulkSaving_unplanned order (review.trans read) planned
          have isAlone : alone = _ := run
          have isSeveral : several = _ := bulkRun
          rw [isAlone, isSeveral]
          exact ⟨.halts (.same _),
            stores.accounts.trans bulkStores.accounts.symm,
            stores.ledger.trans bulkStores.ledger.symm⟩
      | ok plans =>
          have few : (plans.flatMap (·.postings)).length ≤ 4 :=
            (arePlansFor_of_plans isRead.ids_eq planned).few
          have unused := firstRepeated?_entriesOf fresh few
          have found := found_of_review read id (List.mem_singleton_self id)
          obtain ⟨saved, after, isSaved, run, done⟩ :=
            run_single_fresh read planned found unused
          obtain ⟨bulkAfter, bulkRun, bulkSaved, bulkLedger⟩ :=
            run_bulkSaving_fresh order (review.trans read) planned unused
          have isAlone : alone = _ := run
          have isSeveral : several = _ := bulkRun
          rw [isAlone, isSeveral]
          refine ⟨.results ?_, ?_, done.ledger.trans bulkLedger.symm⟩
          · exact
              { amount := rfl
                remaining := rfl
                account := standing_one isRead planned isSaved
                entries := rfl }
          · have distinct :=
              AccountPlan.nodup_ids_of_plans planned isRead.distinct
            rw [done.accounts, bulkSaved]
            refine AccountBook.saveAll_perm ?_ (order.perm _).symm
            rw [List.map_map]
            exact distinct

end OneAccount

end Engine

/--
Accounts owe amounts at the scale of an engine, below `2 ^ 95` units together.
Then actions over any two lists of the same accounts end alike, however the
lists are ordered, whatever they repeat and in whichever orders the accounts are
saved: both are refused in one way, or both apply the same amounts, and they
leave the same accounts and post the same on each. With fresh identifiers an
account named alone is left as by an action over any list of it.
-/
theorem only_the_set_matters
    {engine : Engine}
    {office : Office}
    (recorded : office.ledger.IsRecorded)
    (owed :
      Money.AreSound engine.scale (office.accounts.accounts.map (·.remaining)))
    (owedInRange :
      Money.unitsOf (office.accounts.accounts.map (·.remaining)) < twoTo 95)
    (kind : ActionKind)
    (amount : Option String)
    (options : ActionOptions)
    {accounts others : List AccountId}
    (sameSet : ∀ id, id ∈ accounts ↔ id ∈ others)
    (order otherOrder : SaveOrder) :
    let ended := office.run (engine.bulkSaving order kind accounts amount options)
    let otherEnded :=
      office.run (engine.bulkSaving otherOrder kind others amount options)
    Outcome.Alike BulkResult.TellsSame ended.1 otherEnded.1 ∧
      ended.2.HasSameBooks otherEnded.2 ∧
      ∀ id,
        (∀ other, other ∈ accounts ↔ other = id) →
          office.DrawsFresh 4 →
            let alone := office.run (engine.single kind id amount options)
            Outcome.Alike ActionResult.TellsSame alone.1 ended.1 ∧
              Engine.HasStoresOf alone.2 ended.2 := by
  intro ended otherEnded
  have inRange : office.accounts.IsInRange engine.scale :=
    AccountBook.isInRange_of_listed AccountBook.mem_of_find? owed owedInRange
  obtain ⟨alike, books⟩ :=
    Engine.run_bulkSaving_alike recorded inRange kind amount options sameSet
      order otherOrder
  exact ⟨alike, books, fun id only fresh =>
    Engine.run_single_alike fresh only kind amount options order⟩

/--
Two lost items are cancelled, whichever is named and saved first, and one of
them is waived in part, named once or twice.
-/
theorem only_the_set_matters_lostItems :
    let engine := Engine.new 2
    let office :=
      Office.opened (.ofList [.lostItem, { Account.lostItem with id := "b" }]) 1
        .epoch
    let reversed : SaveOrder := ⟨List.reverse, List.reverse_perm⟩
    let ended := office.run (engine.bulk .cancel ["b", "a", "b"] none .none)
    let otherEnded :=
      office.run (engine.bulkSaving reversed .cancel ["a", "b"] none .none)
    let twice := office.run (engine.bulk .waive ["b", "b"] (some "2.50") .none)
    let alone := office.run (engine.single .waive "b" (some "2.50") .none)
    ended.1.isOk = true ∧
      Outcome.Alike BulkResult.TellsSame ended.1 otherEnded.1 ∧
      ended.2.HasSameBooks otherEnded.2 ∧
      alone.1.isOk = true ∧
      Outcome.Alike ActionResult.TellsSame alone.1 twice.1 ∧
      Engine.HasStoresOf alone.2 twice.2 := by
  intro engine office reversed ended otherEnded twice alone
  have recorded : office.ledger.IsRecorded := Ledger.isRecorded_ofEntries []
  have owed :
      Money.AreSound engine.scale
        (office.accounts.accounts.map (·.remaining)) := by
    decide +kernel
  have owedInRange :
      Money.unitsOf (office.accounts.accounts.map (·.remaining)) < twoTo 95 := by
    decide +kernel
  have sameSet :
      ∀ id, id ∈ (["b", "a", "b"] : List AccountId) ↔ id ∈ ["a", "b"] := by
    intro id
    simp only [List.mem_cons, List.not_mem_nil, or_false]
    tauto
  obtain ⟨alike, books, -⟩ :=
    only_the_set_matters recorded owed owedInRange .cancel none .none
      sameSet .listed reversed
  have itself :
      ∀ id, id ∈ (["b", "b"] : List AccountId) ↔ id ∈ ["b", "b"] :=
    fun _ => .rfl
  obtain ⟨-, -, one⟩ :=
    only_the_set_matters recorded owed owedInRange .waive (some "2.50") .none
      itself .listed .listed
  obtain ⟨aloneAlike, stores⟩ := one "b" (by simp) (by decide +kernel)
  exact ⟨by decide +kernel, alike, books, by decide +kernel, aloneAlike, stores⟩

end PatronFees
