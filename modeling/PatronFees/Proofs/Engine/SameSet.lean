import PatronFees.Proofs.Alike
import PatronFees.Proofs.Engine.AccountStep
import PatronFees.Proofs.Engine.Shape
import PatronFees.Proofs.Money.Exact

namespace PatronFees

open List

/-!
# Reviews and plans in another order

A request names accounts in an order that it does not depend on: in another
order its accounts, its history and its preview are the same, and so is what is
planned for each account. Where it is refused for an account, it is refused in
the same way for that account or for another one.
-/

/-- A part of a book is the same under identifiers in another order. -/
theorem AccountBook.only_perm
    (book : AccountBook)
    {ids others : List AccountId}
    (distinct : ids.Nodup)
    (same : ids ~ others) :
    book.only ids = book.only others :=
  saveAll_perm (nodup_ids_findEach distinct) (same.filterMap _)

/-- The ledger finds the same entries for the same accounts in any order. -/
theorem Ledger.find_perm
    {ledger : Ledger}
    (recorded : ledger.IsRecorded)
    {ids others : List AccountId}
    (same : ids ~ others)
    (kinds : List ActionKind) :
    ledger.find ids kinds = ledger.find others kinds := by
  rw [recorded, find_ofEntries, find_ofEntries]
  congr 1
  funext entry
  rw [same.contains_eq]

namespace Validation

variable {book : AccountBook} {scale : Nat} {ids others : List AccountId}

/-- Accounts are found, or one of them is not, in any order. -/
theorem findAll_perm
    (book : AccountBook)
    (same : ids ~ others) :
    Outcome.Alike Perm (findAll ids book) (findAll others book) := by
  refine Outcome.mapM_perm same ?_
  intro first _ second _ firstHalt secondHalt firstHalted secondHalted
  split at firstHalted
  next =>
    cases firstHalted
  next =>
    split at secondHalted
    next =>
      cases secondHalted
    next =>
      obtain rfl := Except.error.inj firstHalted
      obtain rfl := Except.error.inj secondHalted
      exact .notFound first second

/-- A closed account blocks a request in whatever order it is met. -/
theorem refuseClosed_perm
    (blocks : Account → Bool)
    {accounts others : List Account}
    (same : accounts ~ others) :
    Outcome.Alike Eq (refuseClosed blocks accounts) (refuseClosed blocks others) := by
  have unblocked :
      ∀ {these those : List Account},
        these ~ those →
          these.find? (fun account => account.isClosed && blocks account) = none →
            those.find? (fun account => account.isClosed && blocks account) =
              none := by
    intro these those between none
    rw [List.find?_eq_none] at none ⊢
    exact fun account member => none account (between.mem_iff.mpr member)
  rw [refuseClosed, refuseClosed]
  cases first : accounts.find? fun account => account.isClosed && blocks account with
  | none =>
      rw [unblocked same first]
      exact .results rfl
  | some account =>
      cases second : others.find? fun account => account.isClosed && blocks account with
      | none =>
          rw [unblocked same.symm second] at first
          cases first
      | some other =>
          exact .halts (.closed account.id other.id)

/-- The accounts of a book in range owe an amount in range. -/
theorem owed_inRange
    (inRange : book.IsInRange scale)
    (distinct : ids.Nodup) :
    Money.AreSound scale ((book.findEach ids).map (·.remaining)) ∧
      Money.unitsOf ((book.findEach ids).map (·.remaining)) < twoTo 95 := by
  constructor
  · intro money member
    obtain ⟨account, among, rfl⟩ := List.mem_map.mp member
    exact inRange.sound (AccountBook.find?_of_mem_findEach among).2
  · rw [Money.unitsOf, List.map_map]
    exact inRange.owed_lt distinct

/-- A check comes to the same preview in any order, or halts in the same way. -/
theorem check_perm
    (rules : Validation)
    (capped : scale ≤ Money.maxScale)
    (sound : Money.AreSound scale ((book.findEach ids).map (·.remaining)))
    (owed_lt : Money.unitsOf ((book.findEach ids).map (·.remaining)) < twoTo 95)
    (same : ids ~ others)
    (history : List Posting)
    (entered : Option String) :
    Outcome.Alike Eq (check rules ids book history entered scale)
      (check rules others book history entered scale) := by
  have double : twoTo 96 = 2 * twoTo 95 := twoTo_succ 95
  refine (findAll_perm book same).bind fun targets otherTargets found _ between => ?_
  obtain ⟨rfl, -⟩ := findAll_eq_ok found
  rw [Money.sum_perm capped sound (by omega) (between.map _)]
  refine (Outcome.Alike.refl _).bind fun owed _ _ _ isSame => ?_
  subst isSame
  cases rules with
  | cancellation =>
      exact (refuseClosed_perm _ between).bind fun _ _ _ _ _ => .results rfl
  | settlement =>
      refine (Outcome.Alike.refl _).bind fun requested _ _ _ isSame => ?_
      subst isSame
      refine (refuseClosed_perm _ between).bind fun _ _ _ _ _ => ?_
      exact .refl _
  | refunding =>
      exact .refl _

end Validation

namespace Engine

/-- Two requests name the same accounts and were reviewed alike. -/
structure SameRequest (first second : Reviewed) : Prop where
  distinct : first.ids.Nodup
  ids : first.ids ~ second.ids
  accounts : first.accounts = second.accounts
  history : first.history = second.history
  preview : first.preview = second.preview

variable {engine : Engine} {office : Office} {kind : ActionKind}
  {accounts others : List AccountId} {amount : Option String}

/-- Lists with the same members have them in some order, each once. -/
theorem eraseDups_perm
    (sameSet : ∀ id, id ∈ accounts ↔ id ∈ others) :
    accounts.eraseDups ~ others.eraseDups := by
  rw [List.perm_ext_iff_of_nodup (nodup_eraseDups _) (nodup_eraseDups _)]
  intro id
  rw [List.mem_eraseDups, List.mem_eraseDups]
  exact sameSet id

/-- Requests that name the same accounts are reviewed alike. -/
theorem reviewIn_alike
    (recorded : office.ledger.IsRecorded)
    (inRange : office.accounts.IsInRange engine.scale)
    (kind : ActionKind)
    (amount : Option String)
    (sameSet : ∀ id, id ∈ accounts ↔ id ∈ others) :
    Outcome.Alike SameRequest (engine.reviewIn office kind accounts amount)
      (engine.reviewIn office kind others amount) := by
  have same := eraseDups_perm sameSet
  have distinct := nodup_eraseDups accounts
  obtain ⟨sound, owed_lt⟩ := Validation.owed_inRange inRange distinct
  rw [← AccountBook.findEach_only] at sound owed_lt
  rw [reviewIn, reviewIn]
  split
  next =>
    simp only [← Ledger.find_perm recorded same,
      ← AccountBook.only_perm office.accounts distinct same]
    refine (Validation.check_perm _ engine.scale_le sound owed_lt same _ _).bind ?_
    intro preview _ _ _ isSame
    subst isSame
    exact .results ⟨distinct, same, rfl, rfl, rfl⟩
  next =>
    exact .halts (.same _)

end Engine

namespace Allocation

variable {total : Money} {targets others : List Target}

/-- Targets with accounts of their own are served in one order. -/
theorem serviceOrder_eq_of_perm
    (distinct : (targets.map (·.account)).Nodup)
    (same : targets ~ others) :
    serviceOrder targets = serviceOrder others := by
  have between : serviceOrder targets ~ serviceOrder others :=
    (serviceOrder_perm targets).trans
      ((same.filter _).trans (serviceOrder_perm others).symm)
  refine List.Perm.eq_of_pairwise ?_ (serviceOrder_pairwise targets)
    (serviceOrder_pairwise others) between
  intro first second firstServed secondServed before after
  have secondAmong : second ∈ serviceOrder targets := between.mem_iff.mpr secondServed
  have account : first.account = second.account := by
    by_contra different
    have less := Target.compare_eq_lt before different
    rw [Target.precedes, Std.OrientedCmp.gt_iff_lt.mpr less] at after
    cases after
  exact List.inj_on_of_nodup_map distinct (mem_serviceOrder.mp firstServed).1
    (mem_serviceOrder.mp secondAmong).1 account

/-- A total is split among the same targets in the same way. -/
theorem split_eq_of_perm
    (distinct : (targets.map (·.account)).Nodup)
    (same : targets ~ others) :
    split total targets = split total others := by
  have isEmpty : targets.isEmpty = others.isEmpty := by
    rw [Bool.eq_iff_iff, List.isEmpty_iff, List.isEmpty_iff]
    exact ⟨fun none => (none ▸ same).nil_eq.symm, fun none => (none ▸ same).eq_nil⟩
  rw [split, split, isEmpty, serviceOrder_eq_of_perm distinct same]

end Allocation

namespace AccountPlan

variable {kind : ActionKind} {scale : Nat} {options : ActionOptions}
  {first second : Reviewed}

/-- Accounts become targets in any order, or a history of one overflows. -/
theorem targets_alike
    (kind : ActionKind)
    (reviewed : Reviewed)
    (scale : Nat)
    {accounts others : List Account}
    (same : accounts ~ others) :
    Outcome.Alike Perm (accounts.mapM (target kind reviewed scale))
      (others.mapM (target kind reviewed scale)) := by
  have overflows :
      ∀ account halt,
        target kind reviewed scale account = .error halt →
          ∃ operation, halt = .overflow operation := by
    intro account halt halted
    rw [target] at halted
    split at halted
    next =>
      cases refundable : Refund.refundable (reviewed.historyOf account.id) scale with
      | ok amount =>
          rw [refundable] at halted
          cases halted
      | error inside =>
          rw [refundable] at halted
          obtain rfl := Except.error.inj halted
          exact Refund.halt_of_refundable refundable
    next =>
      cases halted
  refine Outcome.mapM_perm same ?_
  intro account _ other _ halt otherHalt halted otherHalted
  obtain ⟨operation, rfl⟩ := overflows account halt halted
  obtain ⟨otherOperation, rfl⟩ := overflows other otherHalt otherHalted
  exact .overflow operation otherOperation

/-- The same is planned for each account, in whatever order they are named. -/
theorem plans_alike
    (same : Engine.SameRequest first second)
    (kind : ActionKind)
    (scale : Nat)
    (options : ActionOptions) :
    Outcome.Alike Perm (plans kind first scale options)
      (plans kind second scale options) := by
  rcases first with ⟨ids, book, history, preview⟩
  rcases second with ⟨others, otherBook, otherHistory, otherPreview⟩
  obtain ⟨distinct, between, accounts, histories, previews⟩ := same
  dsimp only at distinct between accounts histories previews
  subst accounts histories previews
  have targets :
      Reviewed.targets ⟨ids, book, history, preview⟩ ~
        Reviewed.targets ⟨others, book, history, preview⟩ :=
    between.filterMap _
  have targetIds : ((Reviewed.targets ⟨ids, book, history, preview⟩).map (·.id)).Nodup :=
    AccountBook.nodup_ids_findEach distinct
  rw [plans, plans]
  split
  next =>
    exact .results (targets.map _)
  next notCancel =>
    refine (targets_alike kind _ scale targets).bind ?_
    intro made otherMade isMade _ order
    have accountIds : (made.map (·.account)).Nodup := by
      have sameIds :
          made.map (·.account) =
            (Reviewed.targets ⟨ids, book, history, preview⟩).map (·.id) :=
        map_eq_map_of_forall₂
          ((Outcome.mapM_eq_ok_iff.mp isMade).imp
            fun account target fromAccount => account_of_target fromAccount)
      rw [sameIds]
      exact targetIds
    rw [Allocation.split_eq_of_perm accountIds order]
    refine (Outcome.Alike.refl _).bind fun allocation _ _ _ isSame => ?_
    subst isSame
    refine (Outcome.Alike.refl _).imp fun _ _ isSame => ?_
    rw [isSame]

end AccountPlan

end PatronFees
