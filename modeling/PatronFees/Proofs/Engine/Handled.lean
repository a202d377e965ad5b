import PatronFees.Proofs.Engine.Call

namespace PatronFees

/-!
# Calls that end with an answer

Whoever makes a call can be told of its result and of a failure, but not that
arithmetic left the range of decimals. On stores in range no call ends that way:
all amounts that a check adds up, and all that a plan divides, stay in range.
-/

namespace Outcome

/-- There is a result, or a failure that whoever asked can be told. -/
inductive IsHandled {Result : Type} : Outcome Result → Prop where
  | result (result : Result) : IsHandled (.ok result)
  | failure (failure : Failure) : IsHandled (.error (.failed failure))

variable {First Second : Type}

/-- What follows a result is handled if it is for every result there may be. -/
theorem IsHandled.bind
    {outcome : Outcome First}
    {next : First → Outcome Second}
    (handled : outcome.IsHandled)
    (nextHandled :
      ∀ result, outcome = .ok result → (next result).IsHandled) :
    (outcome >>= next).IsHandled := by
  cases handled with
  | result result =>
      exact nextHandled result rfl
  | failure failure =>
      exact .failure failure

/-- Steps for members are handled in sequence if each of them is. -/
theorem isHandled_mapM
    {step : First → Outcome Second}
    (handled : ∀ member, (step member).IsHandled)
    (members : List First) :
    (members.mapM step).IsHandled := by
  induction members with
  | nil =>
      exact .result []
  | cons member rest inductionHypothesis =>
      rw [List.mapM_cons]
      exact (handled member).bind fun result _ =>
        inductionHypothesis.bind fun results _ => .result (result :: results)

end Outcome

namespace Validation

open Outcome

theorem isHandled_findAll
    (ids : List AccountId)
    (accounts : AccountBook) :
    (findAll ids accounts).IsHandled := by
  apply isHandled_mapM
  intro id
  cases accounts.find? id with
  | none => exact .failure _
  | some account => exact .result account

theorem isHandled_readPositive
    (entered : Option String)
    (scale : Nat) :
    (readPositive entered scale).IsHandled := by
  have read :
      (ofChecked (Money.read (entered.getD "") scale)).IsHandled := by
    cases Money.read (entered.getD "") scale with
    | error failure => exact .failure failure
    | ok amount => exact .result amount
  refine read.bind fun amount _ => ?_
  split
  next => exact .result amount
  next => exact .failure _

theorem isHandled_refuseClosed
    (blocks : Account → Bool)
    (accounts : List Account) :
    (refuseClosed blocks accounts).IsHandled := by
  rw [refuseClosed]
  split
  next account _ => exact .failure (.alreadyClosed account.id)
  next => exact .result ()

/-- An amount is compared with what is available and never leaves the range. -/
theorem isHandled_within
    {requested available : Money}
    (same : requested.scale = available.scale)
    (nonneg : 0 ≤ requested.minorUnits)
    (inRange : available.minorUnits < twoTo 95) :
    (within requested available).IsHandled := by
  by_cases enough : requested.minorUnits ≤ available.minorUnits
  · obtain ⟨left, sufficed⟩ := within_of_le same nonneg inRange enough
    rw [sufficed]
    exact .result left
  · rw [within, if_pos ((Money.lt_iff same).mpr (by omega))]
    exact .failure _

/-- A check of accounts and a history in range ends with an answer. -/
theorem isHandled_check
    {scale : Nat}
    {ids : List AccountId}
    {accounts : AccountBook}
    {history : List Posting}
    (inRange : IsInRange scale (accounts.findEach ids) history)
    (rules : Validation)
    (entered : Option String) :
    (check rules ids accounts history entered scale).IsHandled := by
  have double : twoTo 96 = 2 * twoTo 95 := twoTo_succ 95
  have owedLt := inRange.owed_lt
  have receivedLt := inRange.received_lt
  have refundedLt := inRange.refunded_lt
  refine (isHandled_findAll ids accounts).bind fun targets all => ?_
  obtain ⟨rfl, -⟩ := findAll_eq_ok all
  obtain ⟨owed, summed, owedScale, owedUnits⟩ :=
    Money.sum_eq inRange.capped inRange.owed (by omega)
  rw [summed, ok_bind]
  cases rules with
  | cancellation =>
      exact (isHandled_refuseClosed _ _).bind fun _ _ => .result _
  | settlement =>
      refine (isHandled_readPositive entered scale).bind fun requested read => ?_
      obtain ⟨requestedScale, positive⟩ := readPositive_eq_ok inRange.capped read
      refine (isHandled_refuseClosed _ _).bind fun _ _ => ?_
      have compared :=
        isHandled_within (requestedScale.trans owedScale.symm) (by omega)
          (by omega : owed.minorUnits < twoTo 95)
      exact compared.bind fun left _ => .result _
  | refunding =>
      refine (isHandled_readPositive entered scale).bind fun requested read => ?_
      obtain ⟨requestedScale, positive⟩ := readPositive_eq_ok inRange.capped read
      obtain ⟨refundable, replayed, refundableScale, refundableUnits⟩ :=
        Refund.refundable_eq inRange.capped inRange.posted (by omega) (by omega)
      rw [replayed, ok_bind]
      have refundedNonneg := inRange.posted.unitsRefunded_nonneg
      have compared :=
        isHandled_within (requestedScale.trans refundableScale.symm) (by omega)
          (by omega : refundable.minorUnits < twoTo 95)
      exact compared.bind fun left _ => .result _

end Validation

namespace Engine

variable {engine : Engine} {office : Office} {entries : List LedgerEntry}

/-- The review of a request on stores in range ends with an answer. -/
theorem isHandled_reviewIn
    (recorded : office.ledger = Ledger.ofEntries entries)
    (owed : office.accounts.IsInRange engine.scale)
    (posted : ArePostedInRange engine.scale entries)
    (kind : ActionKind)
    (accounts : List AccountId)
    (amount : Option String) :
    (engine.reviewIn office kind accounts amount).IsHandled := by
  rw [reviewIn]
  split
  next =>
    have inRange :=
      isInRange_read recorded owed posted kind (nodup_eraseDups accounts)
    rw [← AccountBook.findEach_only] at inRange
    exact (Validation.isHandled_check inRange _ amount).bind
      fun preview _ => .result _
  next =>
    exact .failure _

/-- A planned call whose identifiers are in use is refused by the ledger. -/
theorem run_perform_repeated
    {call : Call}
    {reviewed : Reviewed}
    {plans : List AccountPlan}
    {repeated : LedgerEntry}
    (accepted :
      engine.reviewIn office call.kind call.accounts call.amount =
        .ok reviewed)
    (planned :
      AccountPlan.plans call.kind reviewed engine.scale call.options =
        .ok plans)
    (found :
      Ledger.firstRepeated? office.ledger.ids (entriesOf office plans) =
        some repeated) :
    ∃ failure after,
      office.run (engine.perform call) =
        (.error (.failed (.store failure)), after) := by
  cases call with
  | single kind account amount options =>
      obtain ⟨_, _, failure, after, -, ended, -, -⟩ :=
        run_single_repeated accepted planned found
      exact ⟨failure, after, Office.run_bind_error ended⟩
  | bulk kind accounts amount options =>
      exact ⟨_, _, Office.run_bind_error
        (run_bulkSaving_repeated .listed accepted planned found)⟩

/-- On stores in range every call ends with a receipt or with a failure. -/
theorem isHandled_perform
    (recorded : office.ledger = Ledger.ofEntries entries)
    (owed : office.accounts.IsInRange engine.scale)
    (posted : ArePostedInRange engine.scale entries)
    (call : Call) :
    (office.run (engine.perform call)).1.IsHandled := by
  have handled :=
    isHandled_reviewIn recorded owed posted call.kind call.accounts call.amount
  cases review :
      engine.reviewIn office call.kind call.accounts call.amount with
  | error halt =>
      rw [run_perform_refused review]
      rw [review] at handled
      cases handled with
      | failure failure => exact .failure failure
  | ok reviewed =>
      have isRead := isReadFrom_of_review review
      have accepted := isRead.isAccepted recorded owed posted
      obtain ⟨plans, plansEq, -⟩ := accepted.plans_carryOut call.options
      cases fresh :
          Ledger.firstRepeated? office.ledger.ids (entriesOf office plans) with
      | none =>
          obtain ⟨after, ended, -⟩ :=
            run_perform_fresh review plansEq (isRead.found accepted) fresh
          rw [ended]
          exact .result _
      | some repeated =>
          obtain ⟨failure, after, ended⟩ :=
            run_perform_repeated review plansEq fresh
          rw [ended]
          exact .failure _

end Engine

end PatronFees
