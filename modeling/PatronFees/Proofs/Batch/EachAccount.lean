import PatronFees.Proofs.Batch.Telling

namespace PatronFees

/-!
# Books that are the same account by account

Books can have each account and its history in common and still differ in how the
histories are interleaved. What a request comes to depends on the interleaving in
one place only: a refund over several accounts is measured by the sum over their
histories together. Where that sum is the same in any interleaving, requests come
to the same on books that are the same account by account.
-/

/-- Histories in which each account has the same. -/
def SameHistories (history other : List Posting) : Prop :=
  ∀ id, history.filter (·.account == id) = other.filter (·.account == id)

/-- Histories in which each account has the same are the same in some order. -/
theorem SameHistories.perm
    {history other : List Posting}
    (same : SameHistories history other) :
    history.Perm other := by
  rw [List.perm_iff_count]
  intro posting
  have onAccount (some : List Posting) :
      some.count posting =
        (some.filter (·.account == posting.account)).count posting := by
    rw [List.count_filter (by simp)]
  rw [onAccount history, onAccount other, same]

namespace Books

variable {books others last : Books} {ids : List AccountId}

/-- The books have each account and its history in common. -/
def SameEach (books others : Books) : Prop :=
  ∀ id, SameOn [id] books others

namespace SameEach

theorem refl (books : Books) :
    books.SameEach books :=
  fun id => .refl [id] books

theorem symm
    (same : books.SameEach others) :
    others.SameEach books :=
  fun id => (same id).symm

theorem trans
    (same : books.SameEach others)
    (onward : others.SameEach last) :
    books.SameEach last :=
  fun id => (same id).trans (onward id)

theorem account_eq
    (same : books.SameEach others)
    (id : AccountId) :
    books.accounts.find? id = others.accounts.find? id :=
  (same id).account_eq id (List.mem_singleton_self id)

theorem historyOf_eq
    (same : books.SameEach others)
    (id : AccountId) :
    books.historyOf id = others.historyOf id :=
  (same id).historyOf_eq (List.mem_singleton_self id)

/-- The same accounts are found. -/
theorem only_eq
    (same : books.SameEach others)
    (ids : List AccountId) :
    books.accounts.only ids = others.accounts.only ids := by
  rw [AccountBook.only, AccountBook.only]
  congr 1
  exact List.filterMap_congr fun id _ => same.account_eq id

/-- The same plans keep the books the same. -/
theorem carryingOut
    (same : books.SameEach others)
    (plans : List AccountPlan) :
    (books.carryingOut plans).SameEach (others.carryingOut plans) :=
  fun id => (same id).carryingOut plans

/-- The same was posted, in some order. -/
theorem postings_perm
    (same : books.SameEach others) :
    books.postings.Perm others.postings :=
  SameHistories.perm same.historyOf_eq

end SameEach

/-- What is found on accounts has on each account what the books have on it. -/
theorem filter_find
    (books : Books)
    (ids : List AccountId)
    (kinds : List ActionKind)
    (id : AccountId) :
    (books.find ids kinds).filter (·.account == id) =
      (books.historyOf id).filter fun posting =>
        ids.contains posting.account &&
          (kinds.isEmpty || posting.isOneOf kinds) := by
  rw [find, historyOf, List.filter_filter, List.filter_filter]
  simp only [Bool.and_comm]

end Books

theorem Books.SameEach.sameHistories_find
    {books others : Books}
    (same : books.SameEach others)
    (ids : List AccountId)
    (kinds : List ActionKind) :
    SameHistories (books.find ids kinds) (others.find ids kinds) := by
  intro id
  rw [filter_find, filter_find, same.historyOf_eq]

/-- Only refunds are checked by a history, and by what it makes refundable. -/
theorem Validation.check_eq
    {rules : Validation}
    {history other : List Posting}
    {scale : Nat}
    (measured :
      rules = .refunding →
        Refund.refundable history scale = Refund.refundable other scale)
    (ids : List AccountId)
    (accounts : AccountBook)
    (entered : Option String) :
    check rules ids accounts history entered scale =
      check rules ids accounts other entered scale := by
  cases rules with
  | refunding => simp only [check, measured rfl]
  | settlement | cancellation => rfl

/-- A plan goes by the history of each account by itself. -/
theorem AccountPlan.plans_eq
    {history other : List Posting}
    (same : SameHistories history other)
    (kind : ActionKind)
    (ids : List AccountId)
    (accounts : AccountBook)
    (preview : Preview)
    (scale : Nat)
    (options : ActionOptions) :
    plans kind ⟨ids, accounts, history, preview⟩ scale options =
      plans kind ⟨ids, accounts, other, preview⟩ scale options := by
  have target :
      target kind ⟨ids, accounts, history, preview⟩ scale =
        target kind ⟨ids, accounts, other, preview⟩ scale := by
    funext account
    simp only [AccountPlan.target, Reviewed.historyOf, same account.id]
  have ofShare :
      ofShare kind ⟨ids, accounts, history, preview⟩ options =
        ofShare kind ⟨ids, accounts, other, preview⟩ options := by
    funext share
    simp only [AccountPlan.ofShare, Reviewed.historyOf, same share.1]
  simp only [plans, Reviewed.targets, target, ofShare]

namespace Engine

variable {engine : Engine} {books others after : Books}
  {request : ActionRequest} {told : Told}

/--
What a refund is measured by is the same in whatever order the histories of its
accounts are interleaved.
-/
def MeasuresAlike
    (engine : Engine)
    (books : Books)
    (request : ActionRequest) : Prop :=
  request.kind = .refund →
    ∀ history,
      SameHistories history
          (books.find request.accounts.eraseDups refundHistory) →
        Refund.refundable history engine.scale =
          Refund.refundable
            (books.find request.accounts.eraseDups refundHistory) engine.scale

/-- All refunds are measured alike where requests follow one another. -/
def MeasuresAllAlike
    (engine : Engine) :
    Books → List ActionRequest → Prop
  | _, [] => True
  | books, request :: rest =>
      engine.MeasuresAlike books request ∧
        ∀ told after,
          engine.tell books request = .ok (told, after) →
            engine.MeasuresAllAlike after rest

/-- On books that are the same account by account a request is planned the same. -/
theorem planOn_eq_of_sameEach
    (same : books.SameEach others)
    (alike : engine.MeasuresAlike books request) :
    engine.planOn books request = engine.planOn others request := by
  have histories :=
    same.sameHistories_find request.accounts.eraseDups refundHistory
  simp only [planOn, reviewOn, same.only_eq]
  split
  next =>
    by_cases refunds : request.kind = .refund
    · have measured := alike refunds _ fun id => (histories id).symm
      simp only [refunds, ↓reduceIte]
      rw [Validation.check_eq fun _ => measured]
      cases ActionKind.refund.validation.check request.accounts.eraseDups
          (others.accounts.only request.accounts.eraseDups)
          (books.find request.accounts.eraseDups refundHistory) request.amount
          engine.scale with
      | error halt =>
          rfl
      | ok preview =>
          exact AccountPlan.plans_eq histories .refund _ _ preview _ _
    · simp only [refunds, ↓reduceIte]
  next =>
    rfl

/-- What is told of a request is told on books that are the same account by account. -/
theorem tell_of_sameEach
    (same : books.SameEach others)
    (alike : engine.MeasuresAlike books request)
    (tells : engine.tell books request = .ok (told, after)) :
    ∃ othersAfter,
      engine.tell others request = .ok (told, othersAfter) ∧
        after.SameEach othersAfter := by
  have planned : engine.planOn books request = engine.planOn others request :=
    planOn_eq_of_sameEach same alike
  rcases tell_eq_ok.mp tells with
    ⟨plans, isPlanned, rfl, rfl⟩ | ⟨failure, refused, rfl, rfl⟩
  · exact ⟨_, tell_eq_ok.mpr (.inl ⟨plans, planned ▸ isPlanned, rfl, rfl⟩),
      same.carryingOut plans⟩
  · exact ⟨_, tell_eq_ok.mpr (.inr ⟨failure, planned ▸ refused, rfl, rfl⟩), same⟩

/-- What is told of requests is told on books that are the same account by account. -/
theorem tellAll_of_sameEach
    {requests : List ActionRequest}
    {tolds : List Told}
    (same : books.SameEach others)
    (alike : engine.MeasuresAllAlike books requests)
    (tells : engine.tellAll books requests = .ok (tolds, after)) :
    ∃ othersAfter,
      engine.tellAll others requests = .ok (tolds, othersAfter) ∧
        after.SameEach othersAfter := by
  induction requests generalizing books others tolds with
  | nil =>
      obtain ⟨rfl, rfl⟩ := Prod.mk.inj (Except.ok.inj tells)
      exact ⟨others, rfl, same⟩
  | cons request rest inductionHypothesis =>
      obtain ⟨told, between, laterTolds, first, later, rfl⟩ :=
        tellAll_cons_eq_ok.mp tells
      obtain ⟨othersBetween, othersFirst, sameBetween⟩ :=
        tell_of_sameEach same alike.1 first
      obtain ⟨othersAfter, othersLater, sameAfter⟩ :=
        inductionHypothesis sameBetween (alike.2 told between first) later
      exact ⟨othersAfter, tellAll_cons_eq_ok.mpr
        ⟨told, othersBetween, laterTolds, othersFirst, othersLater, rfl⟩, sameAfter⟩

/-- What is told of requests is told of the first of them and then of the others. -/
theorem tellAll_append
    {earlier later : List ActionRequest}
    {tolds : List Told}
    (tells : engine.tellAll books (earlier ++ later) = .ok (tolds, after)) :
    ∃ earlierTolds laterTolds between,
      engine.tellAll books earlier = .ok (earlierTolds, between) ∧
        engine.tellAll between later = .ok (laterTolds, after) ∧
        tolds = earlierTolds ++ laterTolds := by
  induction earlier generalizing books tolds with
  | nil =>
      exact ⟨[], tolds, books, rfl, tells, rfl⟩
  | cons request rest inductionHypothesis =>
      obtain ⟨told, between, others, first, both, rfl⟩ :=
        tellAll_cons_eq_ok.mp tells
      obtain ⟨restTolds, laterTolds, middle, restTells, laterTells, rfl⟩ :=
        inductionHypothesis both
      exact ⟨told :: restTolds, laterTolds, middle,
        tellAll_cons_eq_ok.mpr ⟨told, between, restTolds, first, restTells, rfl⟩,
        laterTells, rfl⟩

/-- Refunds that are measured alike are so among the first requests and then on. -/
theorem MeasuresAllAlike.append
    {earlier later : List ActionRequest}
    (alike : engine.MeasuresAllAlike books (earlier ++ later)) :
    engine.MeasuresAllAlike books earlier ∧
      ∀ tolds between,
        engine.tellAll books earlier = .ok (tolds, between) →
          engine.MeasuresAllAlike between later := by
  induction earlier generalizing books with
  | nil =>
      refine ⟨trivial, fun tolds between tells => ?_⟩
      obtain ⟨-, rfl⟩ := Prod.mk.inj (Except.ok.inj tells)
      exact alike
  | cons request rest inductionHypothesis =>
      refine ⟨⟨alike.1, fun told after first =>
        (inductionHypothesis (alike.2 told after first)).1⟩, ?_⟩
      intro tolds between tells
      obtain ⟨told, after, others, first, restTells, -⟩ :=
        tellAll_cons_eq_ok.mp tells
      exact (inductionHypothesis (alike.2 told after first)).2 others between
        restTells

end Engine

end PatronFees
