import PatronFees.Proofs.Batch.Answers
import PatronFees.Proofs.Batch.Telling
import PatronFees.Proofs.Engine.Trouble

namespace PatronFees

open Engine

/-!
# Notice services

A notice service answers each request for a notice as it likes, by what it was
asked for before. Beside it an office answers all other requests, save those that
an outage makes it refuse. What the parts of an action come to there depends on the
books, the outages and the identifiers, never on the notice service.
-/

/-- What a notice service answers for an entry, by the entries asked for before. -/
abbrev NoticeService :=
  List LedgerEntry → LedgerEntry → Except NoticeFailure Unit

/-- An office in trouble, with what its notice service was asked for so far. -/
structure Office.Attended where
  troubled : Office.Troubled
  asked : List LedgerEntry
  deriving Repr, DecidableEq

/-- What a call returns, the result for one account or for several. -/
inductive Returned where
  | single (result : ActionResult)
  | bulk (result : BulkResult)
  deriving Repr, DecidableEq

/-- What a call returns, the stamps of its entries aside. -/
structure Unstamped where
  amount : Money
  remaining : Money
  accounts : List Account
  postings : List Posting
  deriving Repr, DecidableEq

namespace Returned

def receipt : Returned → Receipt
  | .single result => ⟨result.amount, result.remaining, result.entries⟩
  | .bulk result => ⟨result.amount, result.remaining, result.entries⟩

def unstamped : Returned → Unstamped
  | .single result =>
      ⟨result.amount, result.remaining, [result.account],
        result.entries.map (·.posting)⟩
  | .bulk result =>
      ⟨result.amount, result.remaining, result.accounts,
        result.entries.map (·.posting)⟩

end Returned

/-- Carry out a call and return its result as it is. -/
def Engine.carryOut
    (engine : Engine)
    (order : SaveOrder) :
    Call → Attempt Returned
  | .single kind account amount options =>
      return .single (← engine.single kind account amount options)
  | .bulk kind accounts amount options =>
      return .bulk (← engine.bulkSaving order kind accounts amount options)

namespace Office.Attended

abbrev office (attended : Attended) : Office :=
  attended.troubled.office

abbrev outages (attended : Attended) : Outages :=
  attended.troubled.outages

/--
Answer a request: what the notice service refuses is not sent, and all other
requests are answered as the office in trouble does.
-/
def answer
    (service : NoticeService)
    (request : Request)
    (attended : Attended) :
    request.Reply × Attended :=
  match request with
  | .sendNotice entry =>
      let asked := attended.asked ++ [entry]
      match service attended.asked entry with
      | .ok () =>
          (.ok (), ⟨(Troubled.serve (.sendNotice entry) attended.troubled).2, asked⟩)
      | .error failure => (.error failure, ⟨attended.troubled, asked⟩)
  | other =>
      let (reply, troubled) := attended.troubled.answer other
      (reply, { attended with troubled := troubled })

/-- What an attempt ends with beside a notice service, and the office then. -/
def run
    {Result : Type}
    (attended : Attended)
    (service : NoticeService)
    (attempt : Attempt Result) :
    Outcome Result × Attended :=
  attempt.runWith (answer service) attended

/-- Carry out calls one after another, the accounts of each saved in an order. -/
def session
    (engine : Engine)
    (service : NoticeService) :
    List (SaveOrder × Call) → Attended → List (Outcome Returned) × Attended
  | [], attended => ([], attended)
  | (order, call) :: rest, attended =>
      let (outcome, between) :=
        attended.run service (engine.carryOut order call)
      let (others, after) := session engine service rest between
      (outcome :: others, after)

/-- However its notice service answers, an office answers as one may. -/
theorem mayAnswer
    (attended : Attended)
    (service : NoticeService)
    (request : Request) :
    attended.office.MayAnswer request (attended.answer service request).1
        (attended.answer service request).2.office ∧
      (attended.answer service request).2.asked =
        attended.asked ++
          Exchange.noticesAsked [⟨request, (attended.answer service request).1⟩] := by
  cases request with
  | sendNotice entry =>
      simp only [answer]
      cases service attended.asked entry with
      | ok _ => exact ⟨.served (.sendNotice entry), rfl⟩
      | error failure => exact ⟨.noticeRefused entry failure, rfl⟩
  | loadAccounts | readHistory | drawStamp | recordEntry | recordBatch
  | saveAccount | report =>
      exact ⟨attended.troubled.mayAnswer _, (List.append_nil _).symm⟩

/-- What a procedure comes to beside a notice service, it may come to. -/
theorem ends
    {Result : Type}
    (procedure : Procedure Result)
    (service : NoticeService)
    (attended : Attended) :
    ∃ exchanges,
      procedure.Ends attended.office exchanges
          (procedure.run (answer service) attended).1
          (procedure.run (answer service) attended).2.office ∧
        (procedure.run (answer service) attended).2.asked =
          attended.asked ++ Exchange.noticesAsked exchanges := by
  induction procedure generalizing attended with
  | done result =>
      exact ⟨[], .done result attended.office, (List.append_nil _).symm⟩
  | ask request next inductionHypothesis =>
      obtain ⟨answered, asked⟩ := attended.mayAnswer service request
      obtain ⟨exchanges, rest, later⟩ := inductionHypothesis _ _
      refine ⟨_, .ask answered rest, later.trans ?_⟩
      rw [asked, List.append_assoc, ← Exchange.noticesAsked_append]
      rfl

/-- What an attempt comes to beside a notice service, it may come to. -/
theorem mayEnd_run
    {Result : Type}
    (attempt : Attempt Result)
    (service : NoticeService)
    (attended : Attended) :
    ∃ exchanges,
      attended.office.MayEnd attempt exchanges (attended.run service attempt).1
          (attended.run service attempt).2.office ∧
        (attended.run service attempt).2.asked =
          attended.asked ++ Exchange.noticesAsked exchanges :=
  ends attempt.run service attended

/-- Two states have the same stores, outages and stamps to come. -/
structure HasStoresOf (after attended : Attended) : Prop where
  accounts : after.office.accounts = attended.office.accounts
  ledger : after.office.ledger = attended.office.ledger
  nextId : after.office.nextId = attended.office.nextId
  outages : after.outages = attended.outages

section Running

variable {First Second : Type} {service : NoticeService}
  {attended after : Attended}

theorem HasStoresOf.refl (attended : Attended) :
    attended.HasStoresOf attended :=
  ⟨rfl, rfl, rfl, rfl⟩

theorem HasStoresOf.trans
    {last : Attended}
    (onward : last.HasStoresOf after)
    (same : after.HasStoresOf attended) :
    last.HasStoresOf attended where
  accounts := onward.accounts.trans same.accounts
  ledger := onward.ledger.trans same.ledger
  nextId := onward.nextId.trans same.nextId
  outages := onward.outages.trans same.outages

/-- An attempt that has a result hands it and the office on. -/
theorem run_bind_ok
    {attempt : Attempt First}
    {next : First → Attempt Second}
    {result : First}
    (ended : attended.run service attempt = (.ok result, after)) :
    attended.run service (attempt >>= next) = after.run service (next result) :=
  Attempt.runWith_bind_ok ended

/-- An attempt that halts ends the whole. -/
theorem run_bind_error
    {attempt : Attempt First}
    {next : First → Attempt Second}
    {halt : Halt}
    (ended : attended.run service attempt = (.error halt, after)) :
    attended.run service (attempt >>= next) = (.error halt, after) :=
  Attempt.runWith_bind_error ended

/-- A request is answered, and the attempt goes on with the reply. -/
theorem run_ask_bind
    (attended : Attended)
    (service : NoticeService)
    (request : Request)
    (next : request.Reply → Attempt Second) :
    attended.run service (Attempt.ask request >>= next) =
      (attended.answer service request).2.run service
        (next (attended.answer service request).1) :=
  rfl

/-- What is made of the result of an outcome changes nothing. -/
theorem run_ofOutcome_map
    (attended : Attended)
    (service : NoticeService)
    (outcome : Outcome First)
    (next : First → Second) :
    attended.run service
        (Attempt.ofOutcome outcome >>= fun result => pure (next result)) =
      (outcome >>= fun result => pure (next result), attended) :=
  Attempt.runWith_ofOutcome_map (answer service) outcome next attended

/-- Accounts are loaded, unless that is out of order. -/
theorem answer_loadAccounts
    (attended : Attended)
    (service : NoticeService)
    (ids : List AccountId) :
    attended.answer service (.loadAccounts ids) =
      (if attended.outages.loading then
        .error (down "accounts")
      else
        .ok (attended.office.accounts.only ids), attended) := by
  by_cases loading : attended.outages.loading = true
  · simp only [answer, Troubled.answer, if_pos loading]
  · simp only [answer, Troubled.answer, if_neg loading]
    rfl

/-- A history is read, unless that is out of order. -/
theorem answer_readHistory
    (attended : Attended)
    (service : NoticeService)
    (ids : List AccountId)
    (kinds : List ActionKind) :
    attended.answer service (.readHistory ids kinds) =
      (if attended.outages.histories then
        .error (down "history")
      else
        .ok (attended.office.ledger.find ids kinds), attended) := by
  by_cases histories : attended.outages.histories = true
  · simp only [answer, Troubled.answer, if_pos histories]
  · simp only [answer, Troubled.answer, if_neg histories]
    rfl

/-- The review of a request, as the books and the outages of an office have it. -/
def reviewAt
    (engine : Engine)
    (outages : Outages)
    (books : Books)
    (kind : ActionKind)
    (accounts : List AccountId)
    (amount : Option String) :
    Outcome Reviewed :=
  if kind.isRequestable = true ∧ outages.loading = true then
    Outcome.fail (.store (down "accounts"))
  else if kind = .refund ∧ outages.histories = true then
    Outcome.fail (.store (down "history"))
  else
    engine.reviewOn books kind accounts amount

/-- A review comes to what the books and the outages say, and changes nothing. -/
theorem run_review
    (recorded : attended.office.ledger.IsRecorded)
    (service : NoticeService)
    (engine : Engine)
    (kind : ActionKind)
    (accounts : List AccountId)
    (amount : Option String) :
    attended.run service (engine.review kind accounts amount) =
      (reviewAt engine attended.outages attended.office.books kind accounts amount,
        attended) := by
  rw [review, reviewAt]
  by_cases requestable : kind.isRequestable = true
  · rw [if_pos requestable, run_ask_bind, answer_loadAccounts]
    by_cases loading : attended.outages.loading = true
    · rw [if_pos loading, if_pos ⟨requestable, loading⟩]
      rfl
    rw [if_neg loading, if_neg fun both => loading both.2, reviewOn,
      if_pos requestable]
    by_cases refunds : kind = .refund
    · subst refunds
      change attended.run service
        (Attempt.ask (.readHistory accounts.eraseDups refundHistory) >>= _) = _
      rw [run_ask_bind, answer_readHistory]
      by_cases histories : attended.outages.histories = true
      · rw [if_pos histories, if_pos ⟨rfl, histories⟩]
        rfl
      rw [if_neg histories, if_neg fun both => histories both.2]
      simp only [if_true, ← map_posting_find recorded]
      exact run_ofOutcome_map attended service _ _
    · rw [if_neg fun both => refunds both.1]
      simp only [refunds, if_false]
      exact run_ofOutcome_map attended service _ _
  · -- What nobody may request is refused before anything is asked.
    have notRefund : kind ≠ .refund := by
      rintro rfl
      exact requestable rfl
    rw [if_neg requestable, if_neg fun both => requestable both.1,
      if_neg fun both => notRefund both.1, reviewOn, if_neg requestable]
    rfl

/-- What a review accepts is for the accounts that the request names. -/
theorem ids_of_reviewAt
    {engine : Engine}
    {outages : Outages}
    {books : Books}
    {kind : ActionKind}
    {accounts : List AccountId}
    {amount : Option String}
    {reviewed : Reviewed}
    (accepted :
      reviewAt engine outages books kind accounts amount = .ok reviewed) :
    reviewed.ids = accounts.eraseDups := by
  rw [reviewAt] at accepted
  split at accepted
  next => cases accepted
  next =>
    split at accepted
    next => cases accepted
    next => exact (read_of_reviewOn accepted).1

/-- A report changes no store. -/
theorem hasStoresOf_report
    (attended : Attended)
    (service : NoticeService)
    (event : Event) :
    (attended.answer service (.report event)).2.HasStoresOf attended :=
  ⟨rfl, rfl, rfl, rfl⟩

/-- What can be planned is planned, whatever the stores hold, and changes none. -/
theorem run_plan
    (attended : Attended)
    (service : NoticeService)
    (engine : Engine)
    (kind : ActionKind)
    (reviewed : Reviewed)
    (options : ActionOptions) :
    ∃ after,
      attended.run service (engine.plan kind reviewed options) =
          (AccountPlan.plans kind reviewed engine.scale options, after) ∧
        after.HasStoresOf attended := by
  rw [plan]
  cases AccountPlan.plans kind reviewed engine.scale options with
  | ok plans =>
      exact ⟨attended, rfl, .refl attended⟩
  | error halt =>
      unfold reportUnbalanced
      dsimp only
      split
      · exact ⟨_, rfl, hasStoresOf_report attended service _⟩
      · exact ⟨attended, rfl, .refl attended⟩

/-- The office once stamps were drawn. -/
def drawing
    (attended : Attended)
    (count : Nat) : Attended :=
  { attended with
    troubled :=
      { attended.troubled with
        office := { attended.office with nextId := attended.office.nextId + count } } }

/-- Stamps are drawn one after another, whatever is out of order. -/
theorem run_stamp
    (attended : Attended)
    (service : NoticeService)
    (postings : List Posting) :
    attended.run service (stamp postings) =
      (.ok (stampedFrom attended.office.clock attended.office.nextId postings),
        attended.drawing postings.length) := by
  induction postings generalizing attended with
  | nil =>
      rfl
  | cons posting rest inductionHypothesis =>
      rw [stamp] at inductionHypothesis ⊢
      rw [List.mapM_cons]
      have first :
          attended.run service
              (do
                let stamp ← Attempt.ask .drawStamp
                return (⟨stamp, posting⟩ : LedgerEntry)) =
            (.ok
                ⟨⟨EntryId.ofNat attended.office.nextId, attended.office.clock⟩,
                  posting⟩,
              attended.drawing 1) :=
        rfl
      rw [run_bind_ok first, run_bind_ok (inductionHypothesis _)]
      have drawn :
          (attended.drawing 1).drawing rest.length =
            attended.drawing (posting :: rest).length := by
        simp only [drawing, List.length_cons, Nat.add_assoc, Nat.add_comm 1]
      rw [drawn]
      rfl

/-- Whatever a notice service answers, it is reported at most. -/
theorem run_notifyOne
    (attended : Attended)
    (service : NoticeService)
    (entry : LedgerEntry) :
    ∃ after,
      attended.run service (notifyOne entry) = (.ok (), after) ∧
        after.HasStoresOf attended := by
  rw [notifyOne, run_ask_bind]
  simp only [answer]
  cases service attended.asked entry with
  | ok _ =>
      exact ⟨_, rfl, rfl, rfl, rfl, rfl⟩
  | error failure =>
      exact ⟨_, rfl, rfl, rfl, rfl, rfl⟩

/-- Notices change nothing but what is reported and counted. -/
theorem run_notify
    (attended : Attended)
    (service : NoticeService)
    (entries : List LedgerEntry) :
    ∃ after,
      attended.run service (notify entries) = (.ok (), after) ∧
        after.HasStoresOf attended := by
  rw [notify]
  induction entries.filter (·.posting.notify) generalizing attended with
  | nil =>
      exact ⟨attended, rfl, .refl attended⟩
  | cons entry rest inductionHypothesis =>
      obtain ⟨between, notified, same⟩ := run_notifyOne attended service entry
      obtain ⟨after, others, sameAfter⟩ := inductionHypothesis between
      exact ⟨after, (run_bind_ok notified).trans others, sameAfter.trans same⟩

end Running

/-- The state once entries were recorded, with the outages from then on. -/
def recording
    (attended : Attended)
    (entries : List LedgerEntry)
    (outages : Outages) : Attended :=
  { attended with troubled := ⟨withEntries attended.office entries, outages⟩ }

/-- The state once an account was saved. -/
def saving
    (attended : Attended)
    (account : Account) : Attended :=
  { attended with
    troubled :=
      { attended.troubled with office := attended.office.saveAccount account } }

/-- The outages once another entry was recorded, unless it is refused. -/
def afterRecording? (outages : Outages) : Option Outages :=
  match outages.entriesLeft with
  | none => some outages
  | some 0 => none
  | some (left + 1) => some { outages with entriesLeft := some left }

section Writing

variable {attended : Attended}

/-- An entry with an identifier of its own is recorded, while entries can be. -/
theorem run_recordOne
    {entry : LedgerEntry}
    (unused : ¬ attended.office.ledger.ids.contains entry.id = true)
    (service : NoticeService) :
    attended.run service (recordOne entry) =
      ((afterRecording? attended.outages).elim
        (.error (.failed (.store (down "ledger"))), attended)
        fun outages => (.ok (), attended.recording [entry] outages)) := by
  have served :
      Troubled.serve (.recordEntry entry) attended.troubled =
        (.ok (), { attended.troubled with
          office := withEntries attended.office [entry] }) := by
    rw [Troubled.serve, answer_recordEntry unused]
  rw [recordOne, run_ask_bind, afterRecording?]
  cases left : attended.outages.entriesLeft with
  | none =>
      simp only [answer, Troubled.answer, left, served]
      rfl
  | some count =>
      cases count with
      | zero =>
          simp only [answer, Troubled.answer, left]
          rfl
      | succ fewer =>
          simp only [answer, Troubled.answer, left, served]
          rfl

/-- A batch with identifiers of its own is recorded, unless batches are refused. -/
theorem run_recordAll
    {entries : List LedgerEntry}
    (fresh : Ledger.firstRepeated? attended.office.ledger.ids entries = none)
    (service : NoticeService) :
    attended.run service (recordAll entries) =
      if attended.outages.batches then
        (.error (.failed (.store (.batchRejected entries.length "read-only"))),
          attended)
      else
        (.ok (), attended.recording entries attended.outages) := by
  have served :
      Troubled.serve (.recordBatch entries) attended.troubled =
        (.ok (), { attended.troubled with
          office := withEntries attended.office entries }) := by
    rw [Troubled.serve, answer_recordBatch fresh]
  rw [recordAll, run_ask_bind]
  by_cases batches : attended.outages.batches = true
  · simp only [answer, Troubled.answer, if_pos batches]
    rfl
  · simp only [answer, Troubled.answer, if_neg batches, served]
    rfl

/-- An account is saved, unless it is among those that cannot be. -/
theorem run_saveOne
    (attended : Attended)
    (service : NoticeService)
    (account : Account) :
    attended.run service
        (do Attempt.ofStore (← Attempt.ask (.saveAccount account))) =
      if attended.outages.unsavable.contains account.id then
        (.error (.failed (.store (down account.id))), attended)
      else
        (.ok (), attended.saving account) := by
  rw [run_ask_bind]
  by_cases unsavable : attended.outages.unsavable.contains account.id = true
  · simp only [answer, Troubled.answer, if_pos unsavable]
    rfl
  · simp only [answer, Troubled.answer, if_neg unsavable]
    rfl

end Writing

end Office.Attended

end PatronFees
