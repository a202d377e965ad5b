import PatronFees.Batch
import PatronFees.Proofs.Batch.Books
import PatronFees.Proofs.Engine.Shape
import PatronFees.Proofs.Validation

namespace PatronFees

/-!
# What requests come to

What a request comes to on some books is told without the stamps: what is posted
or why it is refused, and the books then. It is told by the books on its accounts
alone, and it changes the books on no others. So of requests that follow one
another, those on some accounts come to the same by themselves, whatever the
others do elsewhere.
-/

/-- A request with how it ended, the stamps of its entries aside. -/
structure Told where
  request : ActionRequest
  /-- What was posted, or why the request was refused. -/
  answer : Checked (List Posting)
  deriving DecidableEq

/-- A verdict, the stamps aside. -/
def Verdict.answer : Verdict → Checked (List Posting)
  | .applied entries => .ok (entries.map (·.posting))
  | .refused failure => .error failure

def Processed.told (processed : Processed) : Told :=
  ⟨processed.request, processed.verdict.answer⟩

/-- The books once plans are carried out. -/
def Books.carryingOut
    (books : Books)
    (plans : List AccountPlan) : Books :=
  (plans.map (·.account)).foldl save (books.post (plans.flatMap (·.postings)))

namespace Books

variable {ids : List AccountId} {books others : Books} {plans : List AccountPlan}

theorem SameOn.carryingOut
    (same : SameOn ids books others)
    (plans : List AccountPlan) :
    SameOn ids (books.carryingOut plans) (others.carryingOut plans) :=
  (same.post _).saveAll _

end Books

namespace Engine

variable {engine : Engine} {ids : List AccountId} {books others after : Books}
  {request : ActionRequest} {plans : List AccountPlan} {told : Told}

/-- The review of a request as the books answer it. -/
def reviewOn
    (engine : Engine)
    (books : Books)
    (kind : ActionKind)
    (accounts : List AccountId)
    (amount : Option String) :
    Outcome Reviewed :=
  if kind.isRequestable then do
    let ids := accounts.eraseDups
    let book := books.accounts.only ids
    let history := if kind = .refund then books.find ids refundHistory else []
    let preview ← kind.validation.check ids book history amount engine.scale
    return ⟨ids, book, history, preview⟩
  else
    Outcome.fail (.unsupportedAction kind.name)

/-- The plans that a request comes to. -/
def planOn
    (engine : Engine)
    (books : Books)
    (request : ActionRequest) :
    Outcome (List AccountPlan) := do
  let reviewed ←
    engine.reviewOn books request.kind request.accounts request.amount
  AccountPlan.plans request.kind reviewed engine.scale request.options

/-- What a request comes to, unless it ends its lane, and the books then. -/
def tell
    (engine : Engine)
    (books : Books)
    (request : ActionRequest) :
    Outcome (Told × Books) :=
  match engine.planOn books request with
  | .ok plans =>
      .ok (⟨request, .ok (plans.flatMap (·.postings))⟩, books.carryingOut plans)
  | .error (.failed failure) => .ok (⟨request, .error failure⟩, books)
  | .error halt => .error halt

/-- What requests come to, one after another. -/
def tellAll
    (engine : Engine) :
    Books → List ActionRequest → Outcome (List Told × Books)
  | books, [] => .ok ([], books)
  | books, request :: rest => do
      let (told, after) ← engine.tell books request
      let (others, last) ← engine.tellAll after rest
      return (told :: others, last)

/-- A request is planned and carried out, or it is refused and changes nothing. -/
theorem tell_eq_ok :
    engine.tell books request = .ok (told, after) ↔
      (∃ plans,
        engine.planOn books request = .ok plans ∧
          told = ⟨request, .ok (plans.flatMap (·.postings))⟩ ∧
          after = books.carryingOut plans) ∨
      ∃ failure,
        engine.planOn books request = .error (.failed failure) ∧
          told = ⟨request, .error failure⟩ ∧
          after = books := by
  rw [tell]
  constructor
  · intro tells
    split at tells
    next plans planned =>
      obtain ⟨rfl, rfl⟩ := Prod.mk.inj (Except.ok.inj tells)
      exact .inl ⟨plans, planned, rfl, rfl⟩
    next failure refused =>
      obtain ⟨rfl, rfl⟩ := Prod.mk.inj (Except.ok.inj tells)
      exact .inr ⟨failure, refused, rfl, rfl⟩
    next =>
      cases tells
  · rintro (⟨plans, planned, rfl, rfl⟩ | ⟨failure, refused, rfl, rfl⟩)
    · rw [planned]
    · rw [refused]

/-- Requests come to what the first one and then the others come to. -/
theorem tellAll_cons_eq_ok
    {rest : List ActionRequest}
    {tolds : List Told} :
    engine.tellAll books (request :: rest) = .ok (tolds, after) ↔
      ∃ told between others,
        engine.tell books request = .ok (told, between) ∧
          engine.tellAll between rest = .ok (others, after) ∧
          tolds = told :: others := by
  rw [tellAll]
  constructor
  · intro tells
    obtain ⟨⟨told, between⟩, first, onward⟩ := Outcome.bind_eq_ok_iff.mp tells
    obtain ⟨⟨others, last⟩, later, same⟩ := Outcome.bind_eq_ok_iff.mp onward
    obtain ⟨rfl, rfl⟩ := Prod.mk.inj (Except.ok.inj same)
    exact ⟨told, between, others, first, later, rfl⟩
  · rintro ⟨told, between, others, first, later, rfl⟩
    simp only [first, later, Outcome.ok_bind, Outcome.pure_eq]

/-- A review that accepts a request has read the books and found its accounts. -/
theorem read_of_reviewOn
    {kind : ActionKind}
    {accounts : List AccountId}
    {amount : Option String}
    {reviewed : Reviewed}
    (accepted : engine.reviewOn books kind accounts amount = .ok reviewed) :
    reviewed.ids = accounts.eraseDups ∧
      ∀ id ∈ accounts, (reviewed.accounts.find? id).isSome := by
  rw [reviewOn] at accepted
  split at accepted
  next =>
    obtain ⟨preview, checked, rest⟩ := Outcome.bind_eq_ok_iff.mp accepted
    obtain rfl := Except.ok.inj rest
    obtain ⟨targets, all, -⟩ := Outcome.bind_eq_ok_iff.mp checked
    obtain ⟨-, found⟩ := Validation.findAll_eq_ok all
    exact ⟨rfl, fun id member => found id (List.mem_eraseDups.mpr member)⟩
  next =>
    cases accepted

theorem arePlansFor_of_planOn
    (planned : engine.planOn books request = .ok plans) :
    ArePlansFor request.accounts plans := by
  obtain ⟨reviewed, accepted, planned⟩ := Outcome.bind_eq_ok_iff.mp planned
  exact arePlansFor_of_plans (read_of_reviewOn accepted).1 planned

/-- Plans change nothing on accounts that their request does not name. -/
theorem ArePlansFor.sameOn
    {accounts : List AccountId}
    (plansFor : ArePlansFor accounts plans)
    (apart : ids.Disjoint accounts) :
    Books.SameOn ids books (books.carryingOut plans) := by
  have posted :
      Books.SameOn ids books (books.post (plans.flatMap (·.postings))) :=
    .of_post fun posting member among => apart among (plansFor.posted posting member)
  refine posted.trans (.of_saveAll fun account member among => ?_)
  obtain ⟨plan, inside, rfl⟩ := List.mem_map.mp member
  exact apart among (plansFor.saved plan inside)

/-- The plans of a request depend on the books of its accounts alone. -/
theorem planOn_eq
    (same : Books.SameOn ids books others)
    (named : request.accounts ⊆ ids) :
    engine.planOn books request = engine.planOn others request := by
  have part : request.accounts.eraseDups ⊆ ids :=
    fun id member => named (List.mem_eraseDups.mp member)
  simp only [planOn, reviewOn, same.only_eq part, same.find_eq part]

/-- A request comes to the plans for the shares of its split. -/
theorem tell_of_split
    {reviewed : Reviewed}
    {targets : List Target}
    {allocation : Allocation}
    (accepted :
      engine.reviewOn books request.kind request.accounts request.amount =
        .ok reviewed)
    (notCancel : request.kind ≠ .cancel)
    (targeted :
      reviewed.targets.mapM
          (AccountPlan.target request.kind reviewed engine.scale) =
        .ok targets)
    (splits : Allocation.split reviewed.preview.allowed targets = .ok allocation)
    (planned :
      allocation.shares.mapM
          (AccountPlan.ofShare request.kind reviewed request.options) =
        .ok plans) :
    engine.tell books request =
      .ok
        (⟨request, .ok (plans.flatMap (·.postings))⟩, books.carryingOut plans) := by
  have isPlanned : engine.planOn books request = .ok plans := by
    simp only [planOn, accepted, AccountPlan.plans, if_neg notCancel, targeted,
      splits, planned, Outcome.ok_bind]
  exact tell_eq_ok.mpr (.inl ⟨plans, isPlanned, rfl, rfl⟩)

theorem request_of_tell
    (tells : engine.tell books request = .ok (told, after)) :
    told.request = request := by
  rcases tell_eq_ok.mp tells with ⟨plans, -, rfl, -⟩ | ⟨failure, -, rfl, -⟩ <;> rfl

/-- On books that are the same on its accounts a request comes to the same. -/
theorem tell_of_sameOn
    (same : Books.SameOn ids books others)
    (named : request.accounts ⊆ ids)
    (tells : engine.tell books request = .ok (told, after)) :
    ∃ othersAfter,
      engine.tell others request = .ok (told, othersAfter) ∧
        Books.SameOn ids after othersAfter := by
  have planned : engine.planOn books request = engine.planOn others request :=
    planOn_eq same named
  rcases tell_eq_ok.mp tells with
    ⟨plans, isPlanned, rfl, rfl⟩ | ⟨failure, refused, rfl, rfl⟩
  · exact ⟨_, tell_eq_ok.mpr (.inl ⟨plans, planned ▸ isPlanned, rfl, rfl⟩),
      same.carryingOut plans⟩
  · exact ⟨_, tell_eq_ok.mpr (.inr ⟨failure, planned ▸ refused, rfl, rfl⟩), same⟩

/-- A request changes nothing on accounts that it does not name. -/
theorem sameOn_of_tell
    (apart : ids.Disjoint request.accounts)
    (tells : engine.tell books request = .ok (told, after)) :
    Books.SameOn ids books after := by
  rcases tell_eq_ok.mp tells with ⟨plans, planned, -, rfl⟩ | ⟨failure, -, -, rfl⟩
  · exact (arePlansFor_of_planOn planned).sameOn apart
  · exact .refl ids after

/-- What is told of requests is told of each. -/
theorem map_request_of_tellAll
    {requests : List ActionRequest}
    {tolds : List Told}
    (tells : engine.tellAll books requests = .ok (tolds, after)) :
    tolds.map (·.request) = requests := by
  induction requests generalizing books tolds with
  | nil =>
      obtain ⟨rfl, -⟩ := Prod.mk.inj (Except.ok.inj tells)
      rfl
  | cons request rest inductionHypothesis =>
      obtain ⟨told, between, others, first, later, rfl⟩ := tellAll_cons_eq_ok.mp tells
      rw [List.map_cons, inductionHypothesis later, request_of_tell first]

/--
Of requests that follow one another, those on some accounts come to the same by
themselves, if the others name none of these accounts. What each comes to is
looked up by its place.
-/
theorem tellAll_filter
    (own : PlacedRequest → Bool)
    {placed : List PlacedRequest}
    {lookUp : PlacedRequest → Option Told}
    {tolds : List Told}
    (named : ∀ one ∈ placed, own one = true → one.request.accounts ⊆ ids)
    (apart :
      ∀ one ∈ placed, own one = false → ids.Disjoint one.request.accounts)
    (same : Books.SameOn ids books others)
    (tells : engine.tellAll books (placed.map (·.request)) = .ok (tolds, after))
    (listed : placed.map lookUp = tolds.map some) :
    ∃ ownTolds ownAfter,
      engine.tellAll others ((placed.filter own).map (·.request)) =
          .ok (ownTolds, ownAfter) ∧
        (placed.filter own).map lookUp = ownTolds.map some ∧
        Books.SameOn ids after ownAfter := by
  induction placed generalizing books others tolds with
  | nil =>
      obtain ⟨-, rfl⟩ := Prod.mk.inj (Except.ok.inj tells)
      exact ⟨[], others, rfl, rfl, same⟩
  | cons one rest inductionHypothesis =>
      obtain ⟨told, between, laterTolds, first, later, rfl⟩ :=
        tellAll_cons_eq_ok.mp tells
      obtain ⟨here, there⟩ := List.cons.inj listed
      have restNamed := fun other member =>
        named other (List.mem_cons_of_mem one member)
      have restApart := fun other member =>
        apart other (List.mem_cons_of_mem one member)
      cases isOwn : own one with
      | true =>
          obtain ⟨ownBetween, ownFirst, sameBetween⟩ :=
            tell_of_sameOn same (named one List.mem_cons_self isOwn) first
          obtain ⟨ownTolds, ownAfter, ownLater, ownListed, sameAfter⟩ :=
            inductionHypothesis restNamed restApart sameBetween later there
          refine ⟨told :: ownTolds, ownAfter, ?_, ?_, sameAfter⟩
          · rw [List.filter_cons_of_pos isOwn, List.map_cons]
            exact tellAll_cons_eq_ok.mpr
              ⟨told, ownBetween, ownTolds, ownFirst, ownLater, rfl⟩
          · rw [List.filter_cons_of_pos isOwn, List.map_cons, List.map_cons,
              here, ownListed]
      | false =>
          have elsewhere :=
            sameOn_of_tell (apart one List.mem_cons_self isOwn) first
          rw [List.filter_cons_of_neg (by rw [isOwn]; exact Bool.false_ne_true)]
          exact inductionHypothesis restNamed restApart
            (elsewhere.symm.trans same) later there

end Engine

end PatronFees
