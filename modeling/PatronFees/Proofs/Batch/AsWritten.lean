import PatronFees.Proofs.Allocation.AsWritten
import PatronFees.Proofs.Batch.ComesFrom

namespace PatronFees

/-!
# Requests on accounts as they are written

On accounts that are written alike, and that stand in the order that they are written
in, any request but a refund has the same effect, again as it is written. A refund is
measured by histories, of which a table of accounts shows nothing.
-/

namespace Account

variable {account other : Account}

/-- The accounts are the same once they are written. -/
def IsWrittenAs (account other : Account) : Prop :=
  account.asWritten = other.asWritten

/-- Which of two accounts that owe the same is served first: the older one. -/
def seniority (first second : Account) : Ordering :=
  (first.createdAt.compare second.createdAt).then
    (Ord.compare first.id second.id)

namespace IsWrittenAs

theorem id
    (same : account.IsWrittenAs other) :
    account.id = other.id :=
  (congrArg Account.id same :)

theorem remaining
    (same : account.IsWrittenAs other) :
    account.remaining.settled = other.remaining.settled :=
  (congrArg Account.remaining same :)

theorem status
    (same : account.IsWrittenAs other) :
    account.status = other.status :=
  (congrArg Account.status same :)

theorem createdAt
    (same : account.IsWrittenAs other) :
    account.createdAt.cut = other.createdAt.cut :=
  (congrArg Account.createdAt same :)

/-- The same action leaves the accounts the same once they are written. -/
theorem apply
    (same : account.IsWrittenAs other)
    (label : String)
    (remaining : Money) :
    (account.apply label remaining).IsWrittenAs (other.apply label remaining) := by
  simp only [IsWrittenAs, asWritten, Account.mk.injEq] at same
  rw [IsWrittenAs, Account.apply, Account.apply]
  split <;> simp only [asWritten, same]

/-- As targets of an allocation, the accounts are the same once they are written. -/
theorem ofRemaining
    (same : account.IsWrittenAs other) :
    (Target.ofRemaining account).IsWrittenAs (Target.ofRemaining other) := by
  simp only [Target.IsWrittenAs, Target.asWritten, Target.ofRemaining, same.id,
    same.remaining, same.createdAt]

end IsWrittenAs

/-- Targets stand in the order of their accounts. -/
theorem precedes_ofRemaining
    (kept : account.seniority other = account.asWritten.seniority other.asWritten) :
    (Target.ofRemaining account).precedes (Target.ofRemaining other) =
      (Target.ofRemaining account).asWritten.precedes
        (Target.ofRemaining other).asWritten := by
  rw [seniority, seniority] at kept
  simp only [Target.precedes, Target.compare, Target.ofRemaining]
  rw [kept]
  rfl

end Account

namespace AccountBook

variable {book other : AccountBook}

/-- The books have the same accounts once they are written. -/
def IsWrittenAs (book other : AccountBook) : Prop :=
  ∀ id, Option.Rel Account.IsWrittenAs (book.find? id) (other.find? id)

/-- The accounts of a book stand in the order that they are written in. -/
def KeepsOrder (book : AccountBook) : Prop :=
  ∀ first ∈ book.accounts, ∀ second ∈ book.accounts,
    first.seniority second = first.asWritten.seniority second.asWritten

/-- A part of the accounts stands in the order that they are written in. -/
theorem KeepsOrder.only
    (kept : book.KeepsOrder)
    (ids : List AccountId) :
    (book.only ids).KeepsOrder := by
  have inBook
      {account : Account}
      (member : account ∈ (book.only ids).accounts) :
      account ∈ book.accounts := by
    rcases mem_saveAll member with among | nowhere
    · obtain ⟨id, -, found⟩ := List.mem_filterMap.mp among
      exact mem_of_find? found
    · cases nowhere
  exact fun first isFirst second isSecond =>
    kept first (inBook isFirst) second (inBook isSecond)

namespace IsWrittenAs

/-- Accounts that are saved in both books keep them the same once they are written. -/
theorem save
    {account another : Account}
    (alike : book.IsWrittenAs other)
    (same : account.IsWrittenAs another) :
    (book.save account).IsWrittenAs (other.save another) := by
  intro id
  rw [find?_save, find?_save, same.id]
  split
  next => exact .some same
  next => exact alike id

theorem saveAll
    {accounts others : List Account}
    (alike : book.IsWrittenAs other)
    (same : List.Forall₂ Account.IsWrittenAs accounts others) :
    (accounts.foldl AccountBook.save book).IsWrittenAs
      (others.foldl AccountBook.save other) := by
  induction same generalizing book other with
  | nil =>
      exact alike
  | cons first _ inductionHypothesis =>
      exact inductionHypothesis (alike.save first)

theorem only
    (alike : book.IsWrittenAs other)
    (ids : List AccountId) :
    (book.only ids).IsWrittenAs (other.only ids) := by
  intro id
  rw [find?_only, find?_only]
  split
  next => exact alike id
  next => exact .none

/-- The same accounts are found, as they are written. -/
theorem findEach
    (alike : book.IsWrittenAs other)
    (ids : List AccountId) :
    List.Forall₂ Account.IsWrittenAs (book.findEach ids) (other.findEach ids) := by
  induction ids with
  | nil =>
      exact .nil
  | cons id rest inductionHypothesis =>
      rw [AccountBook.findEach, AccountBook.findEach, List.filterMap_cons,
        List.filterMap_cons]
      have found := alike id
      generalize book.find? id = here at found ⊢
      generalize other.find? id = there at found ⊢
      cases found with
      | none => exact inductionHypothesis
      | some same => exact .cons same inductionHypothesis

end IsWrittenAs

end AccountBook

/-- Accounts keep their seniority. -/
theorem Account.ComesFrom.seniority_eq
    {now before another anotherBefore : Account}
    (comesFrom : now.ComesFrom before)
    (anotherComesFrom : another.ComesFrom anotherBefore) :
    now.seniority another = before.seniority anotherBefore ∧
      now.asWritten.seniority another.asWritten =
        before.asWritten.seniority anotherBefore.asWritten := by
  simp only [seniority, asWritten, comesFrom.sameDebt.id,
    comesFrom.sameDebt.createdAt, anotherComesFrom.sameDebt.id,
    anotherComesFrom.sameDebt.createdAt, and_self]

/-- Accounts that come from such as keep their order keep theirs. -/
theorem AccountBook.KeepsOrder.of_comesFrom
    {book later : AccountBook}
    (kept : book.KeepsOrder)
    (comesFrom :
      ∀ now ∈ later.accounts, ∃ before ∈ book.accounts, now.ComesFrom before) :
    later.KeepsOrder := by
  intro first isFirst second isSecond
  obtain ⟨before, inBook, ahead⟩ := comesFrom first isFirst
  obtain ⟨other, alsoInBook, alsoAhead⟩ := comesFrom second isSecond
  obtain ⟨seniority, written⟩ := ahead.seniority_eq alsoAhead
  rw [seniority, written]
  exact kept before inBook other alsoInBook

/-- The first of the accounts that a test holds for is the same once it is written. -/
theorem find?_isWrittenAs
    {accounts others : List Account}
    {test : Account → Bool}
    (alike : List.Forall₂ Account.IsWrittenAs accounts others)
    (sameTest :
      ∀ account other, account.IsWrittenAs other → test account = test other) :
    Option.Rel Account.IsWrittenAs (accounts.find? test) (others.find? test) := by
  induction alike with
  | nil =>
      exact .none
  | @cons account other rest more same _ inductionHypothesis =>
      rw [List.find?_cons, List.find?_cons, sameTest account other same]
      cases test other with
      | true => exact .some same
      | false => exact inductionHypothesis

namespace Validation

variable {book other : AccountBook}

theorem findAll_agree
    (alike : book.IsWrittenAs other)
    (ids : List AccountId) :
    Outcome.Agree (List.Forall₂ Account.IsWrittenAs)
      (findAll ids book) (findAll ids other) := by
  rw [findAll, findAll]
  have each : List.Forall₂ Eq ids ids := List.forall₂_refl ids
  apply Outcome.Agree.mapM each
  rintro id _ rfl
  have found := alike id
  generalize book.find? id = here at found ⊢
  generalize other.find? id = there at found ⊢
  cases found with
  | none => exact .error _
  | some same => exact .ok same

theorem refuseClosed_agree
    {accounts others : List Account}
    {blocks : Account → Bool}
    (alike : List.Forall₂ Account.IsWrittenAs accounts others)
    (sameBlocks :
      ∀ account other, account.IsWrittenAs other → blocks account = blocks other) :
    Outcome.Agree Eq (refuseClosed blocks accounts) (refuseClosed blocks others) := by
  rw [refuseClosed, refuseClosed]
  have found :
      Option.Rel Account.IsWrittenAs
        (accounts.find? fun account => account.isClosed && blocks account)
        (others.find? fun account => account.isClosed && blocks account) :=
    find?_isWrittenAs alike fun account other same => by
      rw [Account.isClosed, Account.isClosed, same.status,
        sameBlocks account other same]
  generalize accounts.find? _ = here at found ⊢
  generalize others.find? _ = there at found ⊢
  cases found with
  | none =>
      exact .ok rfl
  | some same =>
      dsimp only
      rw [same.id]
      exact .error _

/-- A check that is not for refunds finds the same on accounts that are written alike. -/
theorem check_agree
    {rules : Validation}
    (alike : book.IsWrittenAs other)
    (notRefund : rules ≠ .refunding)
    (ids : List AccountId)
    (entered : Option String)
    (scale : Nat) :
    Outcome.Agree Eq (check rules ids book [] entered scale)
      (check rules ids other [] entered scale) := by
  refine (findAll_agree alike ids).bind fun targets others found => ?_
  have remaining :
      (targets.map (·.remaining)).map Money.settled =
        (others.map (·.remaining)).map Money.settled := by
    rw [List.map_map, List.map_map, ← List.forall₂_eq_eq_eq,
      List.forall₂_map_left_iff, List.forall₂_map_right_iff]
    exact found.imp fun _ _ same => same.remaining
  rw [Money.sum_eq_of_settled remaining]
  refine (Outcome.Agree.refl Eq.refl _).bind fun owed _ isOwed => ?_
  subst isOwed
  cases rules with
  | refunding =>
      exact (notRefund rfl).elim
  | cancellation =>
      exact (refuseClosed_agree found fun _ _ _ => rfl).bind
        fun _ _ _ => .ok rfl
  | settlement =>
      refine (Outcome.Agree.refl Eq.refl _).bind fun requested _ isRequested => ?_
      subst isRequested
      refine (refuseClosed_agree found fun account other same => ?_).bind
        fun _ _ _ => .refl Eq.refl _
      exact congrArg (· == 0) (Money.units_eq_of_settled same.remaining)

end Validation

namespace AccountPlan

variable {book other : AccountBook} {kind : ActionKind} {ids : List AccountId}
  {plan another : AccountPlan}

/-- The accounts that are planned are the same once they are written. -/
def IsWrittenAs (plan other : AccountPlan) : Prop :=
  plan.account.IsWrittenAs other.account

/-- The targets of accounts that keep their order keep theirs. -/
theorem keepOrder_ofRemaining
    (kept : book.KeepsOrder)
    (ids : List AccountId) :
    Allocation.KeepOrder ((book.findEach ids).map Target.ofRemaining) := by
  have member
      {account : Account}
      (found : account ∈ book.findEach ids) :
      account ∈ book.accounts :=
    AccountBook.mem_of_find? (AccountBook.find?_of_mem_findEach found).2
  intro first isFirst second isSecond
  obtain ⟨account, found, rfl⟩ := List.mem_map.mp isFirst
  obtain ⟨another, alsoFound, rfl⟩ := List.mem_map.mp isSecond
  exact Account.precedes_ofRemaining
    (kept account (member found) another (member alsoFound))

/-- A share of accounts that are written alike is planned alike. -/
theorem settling_agree
    {account another : Account}
    {share given : Money}
    (same : account.IsWrittenAs another)
    (sameShare : share.settled = given.settled)
    (options : ActionOptions) :
    Outcome.Agree IsWrittenAs (settling kind account share options)
      (settling kind another given options) := by
  rw [settling, settling,
    Money.subtract_eq_of_settled same.remaining sameShare]
  refine (Outcome.Agree.refl Eq.refl _).bind fun remaining _ isRemaining => ?_
  subst isRemaining
  exact .ok (same.apply _ remaining)

/-- Any action but a refund is planned alike on accounts that are written alike. -/
theorem plans_agree
    (alike : book.IsWrittenAs other)
    (kept : book.KeepsOrder)
    (otherKept : other.KeepsOrder)
    (notRefund : kind ≠ .refund)
    (ids : List AccountId)
    (preview : Preview)
    (scale : Nat)
    (options : ActionOptions) :
    Outcome.Agree (List.Forall₂ IsWrittenAs)
      (plans kind ⟨ids, book, [], preview⟩ scale options)
      (plans kind ⟨ids, other, [], preview⟩ scale options) := by
  have found := alike.findEach ids
  have targetsOf (some : AccountBook) :
      (Reviewed.targets ⟨ids, some, [], preview⟩).mapM
          (target kind ⟨ids, some, [], preview⟩ scale) =
        .ok ((some.findEach ids).map Target.ofRemaining) := by
    have pure :
        target kind ⟨ids, some, [], preview⟩ scale =
          fun account => Except.ok (Target.ofRemaining account) := by
      funext account
      rw [target, if_neg notRefund]
    rw [pure]
    exact List.mapM_pure
  rw [plans, plans]
  split
  next =>
    refine .ok ?_
    rw [List.forall₂_map_left_iff, List.forall₂_map_right_iff]
    exact found.imp fun _ _ same => same.apply _ _
  next =>
    rw [targetsOf, targetsOf, Outcome.ok_bind, Outcome.ok_bind]
    have targets :
        List.Forall₂ Target.IsWrittenAs
          ((book.findEach ids).map Target.ofRemaining)
          ((other.findEach ids).map Target.ofRemaining) := by
      rw [List.forall₂_map_left_iff, List.forall₂_map_right_iff]
      exact found.imp fun _ _ same => same.ofRemaining
    refine (Allocation.split_agree targets (keepOrder_ofRemaining kept ids)
      (keepOrder_ofRemaining otherKept ids) preview.allowed).bind ?_
    intro allocation given sharesAlike
    apply Outcome.Agree.mapM sharesAlike
    rintro ⟨id, share⟩ ⟨_, given⟩ ⟨rfl, sameShare⟩
    rw [ofShare, ofShare]
    have foundShare := alike id
    dsimp only at foundShare sameShare ⊢
    generalize book.find? id = here at foundShare ⊢
    generalize other.find? id = there at foundShare ⊢
    cases foundShare with
    | none =>
        exact .error _
    | some same =>
        dsimp only
        rw [if_neg notRefund, if_neg notRefund]
        exact settling_agree same sameShare options

end AccountPlan

namespace Engine

variable {engine : Engine} {books others after : Books}
  {request : ActionRequest} {told : Told}

/-- Any request but a refund is planned alike on books that are written alike. -/
theorem planOn_agree
    (alike : books.accounts.IsWrittenAs others.accounts)
    (kept : books.accounts.KeepsOrder)
    (othersKept : others.accounts.KeepsOrder)
    (notRefund : request.kind ≠ .refund) :
    Outcome.Agree (List.Forall₂ AccountPlan.IsWrittenAs)
      (engine.planOn books request) (engine.planOn others request) := by
  have loaded := alike.only request.accounts.eraseDups
  rw [planOn, planOn, reviewOn, reviewOn]
  split
  next =>
    simp only [bind_assoc]
    refine (Validation.check_agree loaded
      (ActionKind.validation_ne_refunding notRefund) _ _ _).bind ?_
    rintro preview _ rfl
    exact AccountPlan.plans_agree loaded (kept.only _) (othersKept.only _)
      notRefund _ _ _ _
  next =>
    exact .error _

/-- A request keeps the accounts in the order that they are written in. -/
theorem keepsOrder_of_tell
    (kept : books.accounts.KeepsOrder)
    (tells : engine.tell books request = .ok (told, after)) :
    after.accounts.KeepsOrder :=
  kept.of_comesFrom fun _ member => comesFrom_of_tell tells member

/-- Any request but a refund has the same effect on books that are written alike. -/
theorem tell_isWrittenAs
    (alike : books.accounts.IsWrittenAs others.accounts)
    (kept : books.accounts.KeepsOrder)
    (othersKept : others.accounts.KeepsOrder)
    (notRefund : request.kind ≠ .refund)
    (tells : engine.tell books request = .ok (told, after)) :
    ∃ othersTold othersAfter,
      engine.tell others request = .ok (othersTold, othersAfter) ∧
        after.accounts.IsWrittenAs othersAfter.accounts := by
  have agree := @planOn_agree engine _ _ _ alike kept othersKept notRefund
  rw [tell] at tells ⊢
  generalize engine.planOn books request = planned at agree tells
  generalize engine.planOn others request = othersPlanned at agree ⊢
  cases agree with
  | ok same =>
      obtain ⟨-, rfl⟩ := Prod.mk.inj (Except.ok.inj tells)
      refine ⟨_, _, rfl, ?_⟩
      rw [Books.accounts_carryingOut, Books.accounts_carryingOut]
      refine alike.saveAll ?_
      rw [List.forall₂_map_left_iff, List.forall₂_map_right_iff]
      exact same
  | error halt =>
      cases halt with
      | failed failure =>
          obtain ⟨-, rfl⟩ := Prod.mk.inj (Except.ok.inj tells)
          exact ⟨_, _, rfl, alike⟩
      | overflow | endless =>
          cases tells

/-- Requests without refunds have the same effect on books that are written alike. -/
theorem tellAll_isWrittenAs
    {requests : List ActionRequest}
    {tolds : List Told}
    (alike : books.accounts.IsWrittenAs others.accounts)
    (kept : books.accounts.KeepsOrder)
    (othersKept : others.accounts.KeepsOrder)
    (noRefund : ∀ request ∈ requests, request.kind ≠ .refund)
    (tells : engine.tellAll books requests = .ok (tolds, after)) :
    ∃ othersTolds othersAfter,
      engine.tellAll others requests = .ok (othersTolds, othersAfter) ∧
        after.accounts.IsWrittenAs othersAfter.accounts := by
  induction requests generalizing books others tolds with
  | nil =>
      obtain ⟨-, rfl⟩ := Prod.mk.inj (Except.ok.inj tells)
      exact ⟨[], others, rfl, alike⟩
  | cons request rest inductionHypothesis =>
      obtain ⟨told, between, laterTolds, first, later, -⟩ :=
        tellAll_cons_eq_ok.mp tells
      obtain ⟨othersTold, othersBetween, othersFirst, alikeBetween⟩ :=
        tell_isWrittenAs alike kept othersKept
          (noRefund request List.mem_cons_self) first
      obtain ⟨othersTolds, othersAfter, othersLater, alikeAfter⟩ :=
        inductionHypothesis alikeBetween (keepsOrder_of_tell kept first)
          (keepsOrder_of_tell othersKept othersFirst)
          (fun other member => noRefund other (List.mem_cons_of_mem request member))
          later
      exact ⟨othersTold :: othersTolds, othersAfter,
        tellAll_cons_eq_ok.mpr
          ⟨othersTold, othersBetween, othersTolds, othersFirst, othersLater, rfl⟩,
        alikeAfter⟩

end Engine

end PatronFees
