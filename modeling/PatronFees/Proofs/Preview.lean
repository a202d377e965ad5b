import PatronFees.Proofs.Engine.Fresh
import PatronFees.Proofs.Engine.Journal

namespace PatronFees

/-!
# The preview is what happens

Checking a request and carrying it out fail alike. Where the check allows an
amount, carrying it out records entries over exactly that amount, and what
remains on the accounts is exactly what the check said would remain.
-/

section Outcome

variable {engine : Engine} {office after : Office} {kind : ActionKind}
  {accounts : List AccountId} {amount : Option String} {reviewed : Reviewed}
  {entries : List LedgerEntry} {plans : List AccountPlan}

/-- The amount that recorded entries apply: for refunds, what they refund. -/
def Engine.appliedBy
    (engine : Engine)
    (kind : ActionKind)
    (recorded : List LedgerEntry) : Outcome Money :=
  if kind = .refund then
    Refund.sumOf (recorded.map (·.posting)) [.refund] engine.scale
  else
    Money.sum (recorded.map (·.posting.amount)) engine.scale

/-- What is left on accounts: what is owed, or for refunds what is refundable. -/
def Engine.leftOn
    (engine : Engine)
    (kind : ActionKind)
    (accounts : List AccountId)
    (office : Office) : Outcome Money :=
  if kind = .refund then
    Refund.refundable ((office.ledger.find accounts []).map (·.posting))
      engine.scale
  else
    Money.sum ((office.accounts.findEach accounts.eraseDups).map (·.remaining))
      engine.scale

/-- What plans apply together is what their postings apply. -/
theorem unitsApplied_flatMap
    (kind : ActionKind)
    (plans : List AccountPlan) :
    AccountPlan.unitsApplied kind (plans.flatMap (·.postings)) =
      (plans.map fun plan =>
        AccountPlan.unitsApplied kind plan.postings).sum := by
  induction plans with
  | nil =>
      rw [List.map_nil, List.flatMap_nil, AccountPlan.unitsApplied]
      split <;> rfl
  | cons plan rest inductionHypothesis =>
      rw [List.flatMap_cons, List.map_cons, List.sum_cons,
        ← inductionHypothesis]
      simp only [AccountPlan.unitsApplied]
      split
      · exact Refund.unitsRefunded_append _ _
      · rw [List.map_append, Money.unitsOf, List.map_append, List.sum_append]
        rfl

/-- What is allowed and what remains are in range. -/
theorem Reviewed.IsAccepted.preview_bounds
    {scale : Nat}
    (accepted : reviewed.IsAccepted kind scale) :
    0 ≤ reviewed.preview.allowed.minorUnits ∧
      reviewed.preview.allowed.minorUnits < twoTo 95 ∧
      reviewed.preview.remaining.minorUnits < twoTo 95 := by
  have divides := accepted.divides
  have available_lt :
      Validation.unitsAvailable kind.validation reviewed.targets
          reviewed.history <
        twoTo 95 := by
    have owed_lt := accepted.inRange.owed_lt
    have received_lt := accepted.inRange.received_lt
    have refunded := accepted.inRange.posted.unitsRefunded_nonneg
    rw [Validation.unitsAvailable]
    split <;> omega
  have nonneg := accepted.accepts.remaining_nonneg
  have allowedNonneg : 0 ≤ reviewed.preview.allowed.minorUnits := by
    by_cases cancels : kind.validation = .cancellation
    · have whole := accepted.accepts.whole cancels
      have owed := accepted.inRange.owed.unitsOf_nonneg
      rw [Validation.unitsAvailable, if_neg (by rw [cancels]; decide)] at divides
      omega
    · exact Int.le_of_lt (accepted.accepts.positive cancels)
  exact ⟨allowedNonneg, by omega, by omega⟩

/-- What plans record is sound. -/
theorem Reviewed.IsCarriedOutBy.isSound
    {scale : Nat}
    (planned : reviewed.IsCarriedOutBy kind scale plans) :
    Refund.IsSound scale (plans.flatMap (·.postings)) := by
  intro money member
  obtain ⟨posting, among, rfl⟩ := List.mem_map.mp member
  obtain ⟨plan, inPlans, inside⟩ := List.mem_flatMap.mp among
  obtain ⟨-, account, -, carriesOut⟩ := planned.each plan inPlans
  exact carriesOut.sound _ (List.mem_map_of_mem inside)

/-- What plans record is on the accounts that the request names. -/
theorem Reviewed.IsCarriedOutBy.filter_named
    {scale : Nat}
    (planned : reviewed.IsCarriedOutBy kind scale plans) :
    (plans.flatMap (·.postings)).filter (reviewed.ids.contains <| ·.account) =
      plans.flatMap (·.postings) := by
  rw [List.filter_eq_self]
  intro posting member
  obtain ⟨plan, inPlans, inside⟩ := List.mem_flatMap.mp member
  obtain ⟨named, account, -, carriesOut⟩ := planned.each plan inPlans
  rw [List.contains_iff_mem, carriesOut.onAccount posting inside,
    ← carriesOut.sameDebt.id]
  exact named

/-- Sound entries apply what their postings do while it is in range. -/
theorem appliedBy_eq
    {recorded : List LedgerEntry}
    (sound : Refund.IsSound engine.scale (recorded.map (·.posting)))
    (inRange :
      AccountPlan.unitsApplied kind (recorded.map (·.posting)) < twoTo 96) :
    ∃ total,
      engine.appliedBy kind recorded = .ok total ∧
        total.scale = engine.scale ∧
        total.minorUnits =
          AccountPlan.unitsApplied kind (recorded.map (·.posting)) := by
  rw [Engine.appliedBy]
  rw [AccountPlan.unitsApplied] at inRange ⊢
  split at inRange
  next refunds =>
    rw [if_pos refunds, if_pos refunds]
    exact Refund.sumOf_eq engine.scale_le sound inRange
  next settles =>
    rw [if_neg settles, if_neg settles]
    rw [Refund.IsSound, List.map_map] at sound
    rw [List.map_map] at inRange ⊢
    exact Money.sum_eq engine.scale_le sound inRange

/-- What plans record applies exactly the amount that was allowed. -/
theorem appliedBy_entriesOf
    (accepted : reviewed.IsAccepted kind engine.scale)
    (planned : reviewed.IsCarriedOutBy kind engine.scale plans)
    (office : Office) :
    ∃ total,
      engine.appliedBy kind (Engine.entriesOf office plans) = .ok total ∧
        total.equals reviewed.preview.allowed = true := by
  have postings := Engine.map_posting_entriesOf office plans
  have sound := planned.isSound
  have adds := planned.adds
  rw [← unitsApplied_flatMap, ← postings] at adds
  rw [← postings] at sound
  obtain ⟨-, allowed_lt, -⟩ := accepted.preview_bounds
  have double : twoTo 96 = 2 * twoTo 95 := twoTo_succ 95
  have inRange :
      AccountPlan.unitsApplied kind
          ((Engine.entriesOf office plans).map (·.posting)) <
        twoTo 96 := by
    omega
  obtain ⟨total, summed, totalScale, totalUnits⟩ := appliedBy_eq sound inRange
  exact ⟨total, summed,
    Money.equals_of_units totalScale accepted.accepts.allowed_scale
      (totalUnits.trans adds)⟩

/-- A step that was taken leaves as much less owing as it applied. -/
theorem AccountStep.owes
    {receipt : Receipt}
    {scale : Nat}
    {history posted : List Posting}
    {before : Account}
    {now : Option Account}
    (taken :
      AccountStep (.ok receipt) scale kind history (some before) posted now)
    (notRefund : kind ≠ .refund)
    (atScale : before.remaining.scale = scale)
    (nonneg : 0 ≤ before.remaining.minorUnits) :
    ∃ account,
      now = some account ∧
        account.remaining.scale = scale ∧
        0 ≤ account.remaining.minorUnits ∧
        account.remaining.minorUnits +
            Money.unitsOf (posted.map (·.amount)) =
          before.remaining.minorUnits := by
  cases taken with
  | untouched =>
      exact ⟨before, rfl, atScale, nonneg, Int.add_zero _⟩
  | @carriedOut _ plan isAllowed =>
      have carriesOut := isAllowed.carriesOut
      have remaining := carriesOut.remaining_eq
      rw [if_neg notRefund, AccountPlan.unitsApplied, if_neg notRefund]
        at remaining
      exact ⟨plan.account, rfl, carriesOut.scale_eq, carriesOut.nonneg,
        by omega⟩
  | cutShort failed =>
      cases failed

/-- What plans post on the accounts of a request is all that they post. -/
theorem sum_postingsOn_entriesOf
    (distinct : reviewed.ids.Nodup)
    (planned : reviewed.IsCarriedOutBy kind engine.scale plans)
    (office : Office) :
    (reviewed.ids.map fun id =>
        Money.unitsOf
          ((postingsOn (Engine.entriesOf office plans) id).map (·.amount))).sum =
      Money.unitsOf ((plans.flatMap (·.postings)).map (·.amount)) := by
  have together :=
    sum_map_filter (fun posting : Posting => posting.account)
      (·.amount.minorUnits) (plans.flatMap (·.postings)) distinct
  rw [planned.filter_named] at together
  simp only [Engine.postingsOn_entriesOf, Money.unitsOf, List.map_map]
  exact together

/-- Each account of an action but a refund owes as much less as was posted. -/
theorem Engine.HasCarriedOut.owes
    (done : Engine.HasCarriedOut office plans after)
    (isRead : engine.IsReadFrom office kind accounts amount reviewed)
    (recorded : office.ledger = Ledger.ofEntries entries)
    (owed : office.accounts.IsInRange engine.scale)
    (accepted : reviewed.IsAccepted kind engine.scale)
    (planned : reviewed.IsCarriedOutBy kind engine.scale plans)
    (notRefund : kind ≠ .refund)
    {id : AccountId}
    (named : id ∈ reviewed.ids) :
    ∃ account,
      after.accounts.find? id = some account ∧
        account.remaining.scale = engine.scale ∧
        0 ≤ account.remaining.minorUnits ∧
        account.remaining.minorUnits +
            Money.unitsOf
              ((postingsOn (Engine.entriesOf office plans) id).map (·.amount)) =
          (office.accounts.find? id).elim 0 (·.remaining.minorUnits) := by
  obtain ⟨before, found⟩ :=
    Option.isSome_iff_exists.mp (accepted.accepts.found id named)
  rw [isRead.find?_eq named] at found
  obtain ⟨atScale, nonneg⟩ := owed.sound found
  have taken :=
    Engine.accountStep_of_carriedOut isRead recorded accepted planned done
      (.ok (Engine.receiptFor office reviewed plans)) id
  rw [found] at taken ⊢
  exact taken.owes notRefund atScale nonneg

/-- The accounts of any action but a refund owe what was to remain. -/
theorem Engine.HasCarriedOut.sum_remaining
    (done : Engine.HasCarriedOut office plans after)
    (isRead : engine.IsReadFrom office kind accounts amount reviewed)
    (recorded : office.ledger = Ledger.ofEntries entries)
    (owed : office.accounts.IsInRange engine.scale)
    (accepted : reviewed.IsAccepted kind engine.scale)
    (planned : reviewed.IsCarriedOutBy kind engine.scale plans)
    (notRefund : kind ≠ .refund) :
    ((after.accounts.findEach reviewed.ids).map
        (·.remaining.minorUnits)).sum =
      reviewed.preview.remaining.minorUnits := by
  have posted := sum_postingsOn_entriesOf isRead.distinct planned office
  have applied := planned.adds
  rw [← unitsApplied_flatMap, AccountPlan.unitsApplied, if_neg notRefund]
    at applied
  have divides := accepted.divides
  rw [Validation.unitsAvailable,
    if_neg (ActionKind.validation_ne_refunding notRefund), isRead.targets_eq,
    Money.unitsOf, List.map_map] at divides
  have before :=
    AccountBook.sum_findEach (·.remaining.minorUnits) office.accounts
      reviewed.ids
  -- Account by account, what is owed now and what was posted is what was owed.
  have together :
      (reviewed.ids.map fun id =>
          (after.accounts.find? id).elim 0 (·.remaining.minorUnits)).sum +
        (reviewed.ids.map fun id =>
          Money.unitsOf
            ((postingsOn (Engine.entriesOf office plans) id).map
              (·.amount))).sum =
        (reviewed.ids.map fun id =>
          (office.accounts.find? id).elim 0 (·.remaining.minorUnits)).sum := by
    rw [← List.sum_map_add]
    congr 1
    apply List.map_congr_left
    intro id named
    obtain ⟨account, found, -, -, less⟩ :=
      done.owes isRead recorded owed accepted planned notRefund named
    rw [found]
    exact less
  rw [AccountBook.sum_findEach]
  change _ = ((office.accounts.findEach reviewed.ids).map
    (·.remaining.minorUnits)).sum at divides
  omega

/-- After any action but a refund its accounts owe exactly what was to remain. -/
theorem leftOn_settled
    (isRead : engine.IsReadFrom office kind accounts amount reviewed)
    (recorded : office.ledger = Ledger.ofEntries entries)
    (owed : office.accounts.IsInRange engine.scale)
    (accepted : reviewed.IsAccepted kind engine.scale)
    (planned : reviewed.IsCarriedOutBy kind engine.scale plans)
    (done : Engine.HasCarriedOut office plans after)
    (notRefund : kind ≠ .refund) :
    ∃ left,
      engine.leftOn kind accounts after = .ok left ∧
        left.equals reviewed.preview.remaining = true := by
  have each := fun {id} (named : id ∈ reviewed.ids) =>
    done.owes isRead recorded owed accepted planned notRefund named
  have owes := done.sum_remaining isRead recorded owed accepted planned notRefund
  have sound :
      Money.AreSound engine.scale
        ((after.accounts.findEach reviewed.ids).map (·.remaining)) := by
    intro money member
    obtain ⟨account, among, rfl⟩ := List.mem_map.mp member
    obtain ⟨named, found⟩ := AccountBook.find?_of_mem_findEach among
    obtain ⟨same, sameFound, atScale, nonneg, -⟩ := each named
    obtain rfl := Option.some.inj (found.symm.trans sameFound)
    exact ⟨atScale, nonneg⟩
  have double : twoTo 96 = 2 * twoTo 95 := twoTo_succ 95
  obtain ⟨-, -, remaining_lt⟩ := accepted.preview_bounds
  have inRange :
      Money.unitsOf
          ((after.accounts.findEach reviewed.ids).map (·.remaining)) <
        twoTo 96 := by
    rw [Money.unitsOf, List.map_map]
    change ((after.accounts.findEach reviewed.ids).map
      (·.remaining.minorUnits)).sum < _
    omega
  obtain ⟨left, summed, leftScale, leftUnits⟩ :=
    Money.sum_eq engine.scale_le sound inRange
  rw [Money.unitsOf, List.map_map] at leftUnits
  refine ⟨left, ?_, ?_⟩
  · rw [Engine.leftOn, if_neg notRefund, ← isRead.ids_eq]
    exact summed
  · exact
      Money.equals_of_units leftScale accepted.accepts.remaining_scale
        (leftUnits.trans owes)

/-- What was posted on any accounts is sound if all that was posted is. -/
theorem ArePostedInRange.isSound_postingsOnAny
    {scale : Nat}
    (posted : ArePostedInRange scale entries)
    (ids : List AccountId) :
    Refund.IsSound scale (postingsOnAny entries ids) := by
  intro money member
  obtain ⟨posting, among, rfl⟩ := List.mem_map.mp member
  apply posted.sound posting.account
  rw [postingsOn_eq]
  apply List.mem_map_of_mem
  exact List.mem_filter.mpr ⟨List.mem_of_mem_filter among, beq_self_eq_true _⟩

/-- The history of accounts goes on with what plans posted on them. -/
theorem Engine.HasCarriedOut.find_ledger
    (done : Engine.HasCarriedOut office plans after)
    (isRead : engine.IsReadFrom office kind accounts amount reviewed)
    (recorded : office.ledger = Ledger.ofEntries entries)
    (planned : reviewed.IsCarriedOutBy kind engine.scale plans) :
    (after.ledger.find accounts []).map (·.posting) =
      postingsOnAny entries reviewed.ids ++ plans.flatMap (·.postings) := by
  have sameAccounts :
      (fun posting : Posting => accounts.contains posting.account) =
        fun posting => reviewed.ids.contains posting.account := by
    funext posting
    rw [isRead.ids_eq, Bool.eq_iff_iff, List.contains_iff_mem,
      List.contains_iff_mem, List.mem_eraseDups]
  have onAccounts :
      (after.ledger.find accounts []).map (·.posting) =
        ((entries ++ Engine.entriesOf office plans).map (·.posting)).filter
          (accounts.contains <| ·.account) := by
    rw [done.ledger, recorded, ← Ledger.ofEntries_append,
      Ledger.find_ofEntries, List.filter_map]
    congr 2
    funext entry
    exact Bool.and_true _
  rw [onAccounts, sameAccounts, List.map_append, List.filter_append,
    Engine.map_posting_entriesOf, planned.filter_named, postingsOnAny]

/-- A refund receives nothing and refunds what was allowed. -/
theorem Reviewed.IsCarriedOutBy.refunds
    {scale : Nat}
    (planned : reviewed.IsCarriedOutBy .refund scale plans) :
    Refund.unitsReceived (plans.flatMap (·.postings)) = 0 ∧
      Refund.unitsRefunded (plans.flatMap (·.postings)) =
        reviewed.preview.allowed.minorUnits := by
  constructor
  · apply Refund.unitsReceived_eq_zero
    intro posting member
    obtain ⟨plan, inPlans, inside⟩ := List.mem_flatMap.mp member
    obtain ⟨-, account, -, carriesOut⟩ := planned.each plan inPlans
    exact carriesOut.kinds rfl posting inside
  · have adds := planned.adds
    rw [← unitsApplied_flatMap, AccountPlan.unitsApplied, if_pos rfl] at adds
    exact adds

/-- After a refund exactly what was to remain is still refundable. -/
theorem leftOn_refunded
    (isRead : engine.IsReadFrom office .refund accounts amount reviewed)
    (recorded : office.ledger = Ledger.ofEntries entries)
    (posted : ArePostedInRange engine.scale entries)
    (accepted : reviewed.IsAccepted .refund engine.scale)
    (planned : reviewed.IsCarriedOutBy .refund engine.scale plans)
    (done : Engine.HasCarriedOut office plans after) :
    ∃ left,
      engine.leftOn .refund accounts after = .ok left ∧
        left.equals reviewed.preview.remaining = true := by
  have counted := isRead.history_refund recorded
  have received :
      Refund.unitsReceived reviewed.history =
        Refund.unitsReceived (postingsOnAny entries reviewed.ids) := by
    rw [counted, Engine.unitsReceived_filter]
  have refunded :
      Refund.unitsRefunded reviewed.history =
        Refund.unitsRefunded (postingsOnAny entries reviewed.ids) := by
    rw [counted, Engine.unitsRefunded_filter]
  obtain ⟨receivesNothing, refundsAllowed⟩ := planned.refunds
  have receivedAfter :=
    Refund.unitsReceived_append (postingsOnAny entries reviewed.ids)
      (plans.flatMap (·.postings))
  have refundedAfter :=
    Refund.unitsRefunded_append (postingsOnAny entries reviewed.ids)
      (plans.flatMap (·.postings))
  have rules : ActionKind.refund.validation = .refunding := rfl
  have divides := accepted.divides
  rw [Validation.unitsAvailable, if_pos rules] at divides
  have received_lt := accepted.inRange.received_lt
  have nonneg := accepted.accepts.remaining_nonneg
  have double : twoTo 96 = 2 * twoTo 95 := twoTo_succ 95
  obtain ⟨left, replayed, leftScale, leftUnits⟩ :=
    Refund.refundable_eq engine.scale_le
      ((posted.isSound_postingsOnAny reviewed.ids).append planned.isSound)
      (by omega) (by omega)
  refine ⟨left, ?_, ?_⟩
  · rw [Engine.leftOn, if_pos rfl, done.find_ledger isRead recorded planned]
    exact replayed
  · exact
      Money.equals_of_units leftScale accepted.accepts.remaining_scale
        (by omega)

/--
An action keeps its preview: it returns the amounts of the preview, records
entries over exactly what was allowed, and leaves exactly what was to remain.
-/
structure Receipt.Keeps
    (engine : Engine)
    (call : Call)
    (preview : Preview)
    (before after : Office)
    (receipt : Receipt) : Prop where
  amount : receipt.amount = preview.allowed
  remaining : receipt.remaining = preview.remaining
  recorded : after.ledger.entries = before.ledger.entries ++ receipt.entries
  applied :
    ∃ total,
      engine.appliedBy call.kind receipt.entries = .ok total ∧
        total.equals preview.allowed = true
  left :
    ∃ left,
      engine.leftOn call.kind call.accounts after = .ok left ∧
        left.equals preview.remaining = true

/-- What is carried out keeps the preview. -/
theorem Engine.HasCarriedOut.keeps
    {call : Call}
    (done : Engine.HasCarriedOut office plans after)
    (isRead :
      engine.IsReadFrom office call.kind call.accounts call.amount reviewed)
    (recorded : office.ledger = Ledger.ofEntries entries)
    (owed : office.accounts.IsInRange engine.scale)
    (posted : ArePostedInRange engine.scale entries)
    (accepted : reviewed.IsAccepted call.kind engine.scale)
    (planned : reviewed.IsCarriedOutBy call.kind engine.scale plans) :
    (Engine.receiptFor office reviewed plans).Keeps engine call reviewed.preview
      office after where
  amount := rfl
  remaining := rfl
  recorded := by
    rw [done.ledger, recorded, ← Ledger.ofEntries_append,
      Ledger.entries_ofEntries, Ledger.entries_ofEntries]
    rfl
  applied := appliedBy_entriesOf accepted planned office
  left := by
    by_cases refunds : call.kind = .refund
    · rw [refunds] at isRead accepted planned ⊢
      exact leftOn_refunded isRead recorded posted accepted planned done
    · exact leftOn_settled isRead recorded owed accepted planned done refunds

end Outcome

/-- Checking a request is reviewing it, and changes nothing. -/
theorem Engine.run_check
    (engine : Engine)
    (office : Office)
    (kind : ActionKind)
    (accounts : List AccountId)
    (amount : Option String) :
    office.run (engine.check kind accounts amount) =
      ((engine.reviewIn office kind accounts amount).map (·.preview),
        office) := by
  have review := run_review engine office kind accounts amount
  cases reviewed : engine.reviewIn office kind accounts amount with
  | error halt =>
      rw [reviewed] at review
      exact Office.run_bind_error review
  | ok accepted =>
      rw [reviewed] at review
      exact Office.run_bind_ok review

/--
Accounts owe amounts at the scale of an engine, and entries are of such
amounts, both below `2 ^ 95` units together; and the next identifiers are fresh.
Then a call fails exactly as its check does, and when the check gives a preview,
the call keeps it. Above all, no call that passes its check ends in an
unbalanced allocation.
-/
theorem preview_is_what_happens
    {engine : Engine}
    {office : Office}
    {entries : List LedgerEntry}
    (recorded : office.ledger = Ledger.ofEntries entries)
    (owed :
      Money.AreSound engine.scale (office.accounts.accounts.map (·.remaining)))
    (owedInRange :
      Money.unitsOf (office.accounts.accounts.map (·.remaining)) < twoTo 95)
    (posted : Money.AreSound engine.scale (entries.map (·.posting.amount)))
    (postedInRange :
      Money.unitsOf (entries.map (·.posting.amount)) < twoTo 95)
    (call : Call)
    (fresh : office.DrawsFresh (4 * call.accounts.length)) :
    let checked :=
      office.run (engine.check call.kind call.accounts call.amount)
    let performed := office.run (engine.perform call)
    (∀ halt, checked.1 = .error halt ↔ performed.1 = .error halt) ∧
      ∀ preview,
        checked.1 = .ok preview →
          ∃ receipt,
            performed.1 = .ok receipt ∧
              receipt.Keeps engine call preview checked.2 performed.2 := by
  intro checked performed
  have review : checked = _ := engine.run_check office _ _ _
  cases reviewed :
      engine.reviewIn office call.kind call.accounts call.amount with
  | error halt =>
      have refused : performed = _ := Engine.run_perform_refused reviewed
      rw [reviewed] at review
      rw [review, refused]
      constructor
      · intro other
        constructor
        · intro fails
          rw [Except.error.inj fails]
        · intro fails
          rw [Except.error.inj fails]
          rfl
      · intro preview passes
        cases passes
  | ok accepted =>
      have isRead := Engine.isReadFrom_of_review reviewed
      have bookInRange : office.accounts.IsInRange engine.scale :=
        AccountBook.isInRange_of_listed AccountBook.mem_of_find? owed owedInRange
      have postedEach := arePostedInRange_of_total posted postedInRange
      have isAccepted := isRead.isAccepted recorded bookInRange postedEach
      obtain ⟨plans, plansEq, planned⟩ :=
        isAccepted.plans_carryOut call.options
      obtain ⟨after, carriedOut, done⟩ :=
        Engine.run_perform_fresh reviewed plansEq (isRead.found isAccepted)
          (Engine.firstRepeated?_entriesOf fresh
            (Engine.length_postings_le isRead planned))
      have ended : performed = _ := carriedOut
      rw [reviewed] at review
      rw [review, ended]
      constructor
      · intro halt
        constructor <;> intro fails <;> cases fails
      · intro preview passes
        obtain rfl := Except.ok.inj passes
        exact ⟨_, rfl,
          done.keeps isRead recorded bookInRange postedEach isAccepted planned⟩

/-- Refunding what was paid for a lost item does what its check foretells. -/
theorem preview_is_what_happens_lostItem :
    let engine := Engine.new 2
    let office :=
      engine.performAll .withLostItem [.single .pay "a" (some "12.50") .none]
    let call : Call := .bulk .refund ["a", "a"] (some "2.50") .none
    let checked :=
      office.run (engine.check call.kind call.accounts call.amount)
    let performed := office.run (engine.perform call)
    ∃ preview receipt,
      checked.1 = .ok preview ∧
        performed.1 = .ok receipt ∧
        receipt.Keeps engine call preview checked.2 performed.2 := by
  intro engine office call checked performed
  have recorded :
      office.ledger = Ledger.ofEntries office.ledger.entries := by
    decide +kernel
  have owed :
      Money.AreSound engine.scale
        (office.accounts.accounts.map (·.remaining)) := by
    decide +kernel
  have posted :
      Money.AreSound engine.scale
        (office.ledger.entries.map (·.posting.amount)) := by
    decide +kernel
  have fresh : office.DrawsFresh (4 * call.accounts.length) := by
    decide +kernel
  obtain ⟨-, keeps⟩ :=
    preview_is_what_happens recorded owed (by decide +kernel) posted
      (by decide +kernel) call fresh
  have passes : ∃ preview, checked.1 = .ok preview := by
    cases ended : checked.1 with
    | ok preview =>
        exact ⟨preview, rfl⟩
    | error halt =>
        have ends : checked.1.isOk = true := by
          decide +kernel
        rw [ended] at ends
        cases ends
  obtain ⟨preview, passes⟩ := passes
  obtain ⟨receipt, ended, kept⟩ := keeps preview passes
  exact ⟨preview, receipt, passes, ended, kept⟩

end PatronFees
