import PatronFees.Proofs.Engine.Session
import PatronFees.Proofs.Engine.SideBySide

namespace PatronFees

open Engine Exchange

/-!
# Notices follow the ledger

Notices come last and decide nothing. A call that fails asks for none; one that
succeeds asks once for each entry that it recorded, credits aside, if its caller
wants the patron told. And whatever notice services answer, calls come to the same.
-/

/--
The entries of a call that its patrons are told of: all but credits if the caller
wants it, and none otherwise.
-/
def Call.told
    (call : Call)
    (entries : List LedgerEntry) : List LedgerEntry :=
  if call.options.notifyPatron then
    entries.filter fun entry => !entry.posting.isCreditOf call.kind
  else
    []

/-- The entries that a call asks notices for in the end. -/
def Call.toldIn (call : Call) : Outcome Returned → List LedgerEntry
  | .ok returned => call.told returned.receipt.entries
  | .error _ => []

/--
What a call that returned exchanged with the services: first it wrote the entries
that it returned and all accounts that it planned, and then it only told patrons.
-/
def Engine.HasWrittenFirst
    (engine : Engine)
    (office : Office)
    (call : Call)
    (exchanges : List Exchange)
    (returned : Returned) : Prop :=
  ∃ reviewed plans, ∃ kept : List Account, ∃ writing telling,
    engine.IsPlanned office call reviewed plans ∧
      returned.receipt = receiptFor office reviewed plans ∧
      kept.Perm (plans.map (·.account)) ∧
      exchanges = writing ++ telling ∧
      noticesAsked writing = [] ∧
      writesOf writing =
        call.recording returned.receipt.entries ++ kept.map saved ∧
      writesOf telling = []

/-- What a call records asks for notices of what its patrons are told of. -/
theorem Engine.IsPlanned.filter_notify
    {engine : Engine}
    {office : Office}
    {call : Call}
    {reviewed : Reviewed}
    {plans : List AccountPlan}
    (isPlanned : engine.IsPlanned office call reviewed plans) :
    (entriesOf office plans).filter (·.posting.notify) =
      call.told (entriesOf office plans) := by
  have each :
      ∀ entry ∈ entriesOf office plans,
        entry.posting.notify =
          (call.options.notifyPatron &&
            !entry.posting.isCreditOf call.kind) := by
    intro entry member
    obtain ⟨plan, account, posted, isFor⟩ :=
      isPlanned.isFor_of_mem_entriesOf member
    exact isFor.told _ posted
  rw [List.filter_congr each, Call.told]
  cases call.options.notifyPatron with
  | true => rfl
  | false => exact List.filter_false _

/-- What a call may return, it may acknowledge with a receipt. -/
theorem Engine.mayEnd_performSaving
    {engine : Engine}
    {order : SaveOrder}
    {call : Call}
    {office after : Office}
    {exchanges : List Exchange}
    {outcome : Outcome Returned}
    (ended :
      office.MayEnd (engine.carryOut order call) exchanges outcome after) :
    office.MayEnd (engine.performSaving order call) exchanges
      (outcome.map Returned.receipt) after := by
  cases call with
  | single kind account amount options =>
      obtain ⟨earlier, acted, rfl⟩ := Office.mayEnd_map_inv ended
      have receipts := Office.mayEnd_map acted
        fun result => (⟨result.amount, result.remaining, result.entries⟩ : Receipt)
      cases earlier <;> exact receipts
  | bulk kind accounts amount options =>
      obtain ⟨earlier, acted, rfl⟩ := Office.mayEnd_map_inv ended
      have receipts := Office.mayEnd_map acted
        fun result => (⟨result.amount, result.remaining, result.entries⟩ : Receipt)
      cases earlier <;> exact receipts

/-- A call asks for notices of what its patrons are told of, and does so last. -/
theorem Engine.carryOut_telling
    {engine : Engine}
    {order : SaveOrder}
    {call : Call}
    {office after : Office}
    {exchanges : List Exchange}
    {outcome : Outcome Returned}
    (ended :
      office.MayEnd (engine.carryOut order call) exchanges outcome after) :
    noticesAsked exchanges = call.toldIn outcome ∧
      ∀ returned,
        outcome = .ok returned →
          engine.HasWrittenFirst office call exchanges returned := by
  obtain ⟨ending, tellsLast⟩ := perform_telling (mayEnd_performSaving ended)
  cases outcome with
  | error halt =>
      exact ⟨(tellsLast.failed rfl).noticesAsked_eq, fun _ never => by cases never⟩
  | ok returned =>
      obtain ⟨writing, telling, rfl, quiet, onlyTold, asked⟩ :=
        tellsLast.succeeded returned.receipt rfl
      obtain ⟨reviewed, plans, kept, isPlanned, isReceipt, all, writes⟩ :=
        ending.done_inv
      have entries : returned.receipt.entries = entriesOf office plans :=
        congrArg Receipt.entries isReceipt
      rw [writesOf_append, onlyTold, List.append_nil] at writes
      constructor
      · rw [noticesAsked_append, quiet.noticesAsked_eq, asked, Call.toldIn, entries]
        exact isPlanned.filter_notify
      · intro same isReturned
        obtain rfl := Except.ok.inj isReturned
        exact ⟨reviewed, plans, kept, writing, telling, isPlanned, isReceipt, all,
          rfl, quiet.noticesAsked_eq, writes, onlyTold⟩

/--
Notices follow the ledger and never influence it. However the services answer a
call and in whichever order its accounts are saved, notices are asked for none of
its entries if it fails. If it succeeds they are asked for all entries that it
recorded, credits aside, if its caller wants the patron told, and for none
otherwise: once for each, in the order of recording, after all entries and all
accounts are written. A notice service is asked for just these.

And if two sessions of the same calls start from the same books and outages, each
with fresh identifiers, then whatever their notice services answer, and whatever
their clocks and identifiers are, each call returns the same but for the stamps,
and the books and outages are the same in the end.
-/
theorem notices_follow_the_ledger (engine : Engine) :
    (∀ {office after : Office} {order : SaveOrder} {call : Call}
        {exchanges : List Exchange} {outcome : Outcome Returned},
        office.MayEnd (engine.carryOut order call) exchanges outcome after →
          noticesAsked exchanges = call.toldIn outcome ∧
            ∀ returned,
              outcome = .ok returned →
                engine.HasWrittenFirst office call exchanges returned) ∧
      (∀ (service : NoticeService) (order : SaveOrder) (call : Call)
          (attended : Office.Attended),
        let ended := attended.run service (engine.carryOut order call)
        ended.2.asked = attended.asked ++ call.toldIn ended.1) ∧
      ∀ {firstService secondService : NoticeService}
        {calls : List (SaveOrder × Call)} {first second : Office.Attended},
        first.StartAlike second (4 * Office.Attended.countNamed calls) →
          let firstEnd := first.session engine firstService calls
          let secondEnd := second.session engine secondService calls
          firstEnd.1.map (·.map Returned.unstamped) =
              secondEnd.1.map (·.map Returned.unstamped) ∧
            firstEnd.2.office.books = secondEnd.2.office.books ∧
            firstEnd.2.outages = secondEnd.2.outages := by
  refine ⟨carryOut_telling, fun service order call attended => ?_, ?_⟩
  · obtain ⟨exchanges, ended, asked⟩ :=
      Office.Attended.mayEnd_run (engine.carryOut order call) service attended
    rw [(carryOut_telling ended).1] at asked
    exact asked
  · intro firstService secondService calls first second start
    obtain ⟨same, alike⟩ := start.areAlike.session engine
    exact ⟨same, alike.books, alike.outages⟩

/-- A payment and its refund, beside a notice service that works and one that fails. -/
theorem notices_follow_the_ledger_lostItem :
    let engine := Engine.new 2
    let options := { ActionOptions.none with notifyPatron := true }
    let payment : Call := .single .pay "a" (some "5.00") options
    let refund : Call := .bulk .refund ["a"] (some "5.00") options
    let calls := [(SaveOrder.listed, payment), (SaveOrder.listed, refund)]
    let working : NoticeService := fun _ _ => .ok ()
    let failing : NoticeService :=
      fun _ entry => .error ⟨entry.posting.user, "mail server down"⟩
    let first : Office.Attended := ⟨⟨.withLostItem, .none⟩, []⟩
    let second : Office.Attended :=
      ⟨⟨{ Office.withLostItem with nextId := 100 }, .none⟩, []⟩
    let paid := (first.run failing (engine.carryOut .listed payment)).2
    (∃ exchanges outcome after,
        paid.office.MayEnd (engine.carryOut .listed refund) exchanges outcome
            after ∧
          noticesAsked exchanges = refund.toldIn outcome ∧
          (noticesAsked exchanges).map (·.posting.actionType) =
            ["Refunded fully"]) ∧
      first.StartAlike second (4 * Office.Attended.countNamed calls) ∧
      (first.session engine working calls).1.map (·.map Returned.unstamped) =
        (second.session engine failing calls).1.map (·.map Returned.unstamped) ∧
      (first.session engine working calls).2.office.sent = 2 ∧
      (second.session engine failing calls).2.office.sent = 0 := by
  intro engine options payment refund calls working failing first second paid
  have start : first.StartAlike second (4 * Office.Attended.countNamed calls) :=
    { books := by decide +kernel
      outages := rfl
      firstRecorded := Ledger.isRecorded_ofEntries []
      secondRecorded := Ledger.isRecorded_ofEntries []
      firstFresh := by decide +kernel
      secondFresh := by decide +kernel }
  obtain ⟨exchanges, ended, -⟩ :=
    Office.Attended.mayEnd_run (engine.carryOut .listed refund) failing paid
  obtain ⟨follow, -, beside⟩ := notices_follow_the_ledger engine
  have asked := (follow ended).1
  have same := (@beside working failing calls first second start).1
  have labels :
      (refund.toldIn (paid.run failing (engine.carryOut .listed refund)).1).map
          (·.posting.actionType) =
        ["Refunded fully"] := by
    decide +kernel
  refine ⟨⟨exchanges, _, _, ended, asked, ?_⟩, start, same, ?_, ?_⟩
  · rw [asked]
    exact labels
  · decide +kernel
  · decide +kernel

end PatronFees
