import PatronFees.Proofs.Engine.Steps

namespace PatronFees

/-!
# Services that may refuse

Any service may refuse any request that it is asked: it then leaves the office
as it was. What a procedure comes to is told by its exchanges, each request with
its reply, in the order in which they were made.
-/

/-- A request with its reply. -/
structure Exchange where
  request : Request
  reply : request.Reply

/-- The request is to change the stores. -/
def Request.isWrite : Request → Bool
  | .recordEntry _ | .recordBatch _ | .saveAccount _ => true
  | .loadAccounts _ | .readHistory _ _ | .drawStamp | .sendNotice _
  | .report _ => false

/-- The request is to send a notice. -/
def Request.isNotice : Request → Bool
  | .sendNotice _ => true
  | .loadAccounts _ | .readHistory _ _ | .drawStamp | .recordEntry _
  | .recordBatch _ | .saveAccount _ | .report _ => false

/-- The entry that the request is to send a notice of. -/
def Request.noticeOf? : Request → Option LedgerEntry
  | .sendNotice entry => some entry
  | .loadAccounts _ | .readHistory _ _ | .drawStamp | .recordEntry _
  | .recordBatch _ | .saveAccount _ | .report _ => none

namespace Exchange

/-- The exchanges that were to change the stores. -/
def writesOf (exchanges : List Exchange) : List Exchange :=
  exchanges.filter (·.request.isWrite)

/-- No exchange was to send a notice. -/
def SendNothing (exchanges : List Exchange) : Prop :=
  ∀ exchange ∈ exchanges, exchange.request.isNotice = false

/-- The entries that notices were asked for, delivered or not, in order. -/
def noticesAsked (exchanges : List Exchange) : List LedgerEntry :=
  exchanges.filterMap (·.request.noticeOf?)

/-- An entry that was recorded. -/
def recorded (entry : LedgerEntry) : Exchange :=
  ⟨.recordEntry entry, .ok ()⟩

/-- An account that was saved. -/
def saved (account : Account) : Exchange :=
  ⟨.saveAccount account, .ok ()⟩

theorem writesOf_append (early late : List Exchange) :
    writesOf (early ++ late) = writesOf early ++ writesOf late :=
  List.filter_append ..

theorem SendNothing.append
    {early late : List Exchange}
    (first : SendNothing early)
    (second : SendNothing late) :
    SendNothing (early ++ late) := by
  intro exchange member
  rcases List.mem_append.mp member with inEarly | inLate
  · exact first exchange inEarly
  · exact second exchange inLate

theorem noticesAsked_append (early late : List Exchange) :
    noticesAsked (early ++ late) = noticesAsked early ++ noticesAsked late :=
  List.filterMap_append

/-- Where nothing was to send a notice, none was asked for. -/
theorem SendNothing.noticesAsked_eq
    {exchanges : List Exchange}
    (nothing : SendNothing exchanges) :
    noticesAsked exchanges = [] := by
  apply List.filterMap_eq_nil_iff.mpr
  intro exchange member
  have isNone := nothing exchange member
  revert isNone
  cases exchange.request with
  | sendNotice =>
      exact fun isNone => by cases isNone
  | loadAccounts | readHistory | drawStamp | recordEntry | recordBatch
  | saveAccount | report =>
      exact fun _ => rfl

/-- Every exchange is to change the stores. -/
def OnlyWrite (exchanges : List Exchange) : Prop :=
  ∀ exchange ∈ exchanges, exchange.request.isWrite = true

theorem OnlyWrite.append
    {early late : List Exchange}
    (first : OnlyWrite early)
    (second : OnlyWrite late) :
    OnlyWrite (early ++ late) := by
  intro exchange member
  rcases List.mem_append.mp member with inEarly | inLate
  · exact first exchange inEarly
  · exact second exchange inLate

theorem OnlyWrite.singleton
    {exchange : Exchange}
    (isWrite : exchange.request.isWrite = true) :
    OnlyWrite [exchange] := by
  intro other member
  rw [List.mem_singleton.mp member]
  exact isWrite

theorem onlyWrite_recorded (entries : List LedgerEntry) :
    OnlyWrite (entries.map recorded) := by
  intro exchange member
  obtain ⟨entry, -, rfl⟩ := List.mem_map.mp member
  rfl

theorem onlyWrite_saved (accounts : List Account) :
    OnlyWrite (accounts.map saved) := by
  intro exchange member
  obtain ⟨account, -, rfl⟩ := List.mem_map.mp member
  rfl

theorem OnlyWrite.writesOf_eq
    {exchanges : List Exchange}
    (writes : OnlyWrite exchanges) :
    writesOf exchanges = exchanges :=
  List.filter_eq_self.mpr writes

/-- To change the stores is not to send a notice. -/
theorem OnlyWrite.sendNothing
    {exchanges : List Exchange}
    (writes : OnlyWrite exchanges) :
    SendNothing exchanges := by
  intro exchange member
  have isWrite := writes exchange member
  revert isWrite
  cases exchange.request with
  | recordEntry | recordBatch | saveAccount =>
      exact fun _ => rfl
  | loadAccounts | readHistory | drawStamp | sendNotice | report =>
      exact fun isWrite => by cases isWrite

end Exchange

/--
How an office may answer a request: as it does when every service works, or
with a refusal of the service, which leaves it as it was.
-/
inductive Office.MayAnswer
    (office : Office) :
    (request : Request) → request.Reply → Office → Prop where
  | served (request : Request) :
      MayAnswer office request
        (office.answer request).1 (office.answer request).2
  | loadingRefused (ids : List AccountId) (failure : StoreFailure) :
      MayAnswer office (.loadAccounts ids) (.error failure) office
  | historyRefused
      (ids : List AccountId)
      (kinds : List ActionKind)
      (failure : StoreFailure) :
      MayAnswer office (.readHistory ids kinds) (.error failure) office
  | entryRefused (entry : LedgerEntry) (failure : StoreFailure) :
      MayAnswer office (.recordEntry entry) (.error failure) office
  | batchRefused (entries : List LedgerEntry) (failure : StoreFailure) :
      MayAnswer office (.recordBatch entries) (.error failure) office
  | accountRefused (account : Account) (failure : StoreFailure) :
      MayAnswer office (.saveAccount account) (.error failure) office
  | noticeRefused (entry : LedgerEntry) (failure : NoticeFailure) :
      MayAnswer office (.sendNotice entry) (.error failure) office

/-- Only a request for a notice sends one. -/
theorem Office.MayAnswer.sent_eq
    {office after : Office}
    {request : Request}
    {reply : request.Reply}
    (answered : office.MayAnswer request reply after)
    (other : request.isNotice = false) :
    after.sent = office.sent := by
  cases answered with
  | served =>
      cases request with
      | sendNotice =>
          cases other
      | recordEntry entry =>
          simp only [Office.answer, Office.recordEntry]
          split <;> rfl
      | recordBatch entries =>
          simp only [Office.answer, Office.recordBatch]
          split <;> rfl
      | loadAccounts | readHistory | drawStamp | saveAccount | report =>
          rfl
  | loadingRefused | historyRefused | entryRefused | batchRefused
  | accountRefused | noticeRefused =>
      rfl

/--
What a procedure may come to when services may refuse: its exchanges, its result
and the office then.
-/
inductive Procedure.Ends
    {Result : Type} :
    Procedure Result → Office → List Exchange → Result → Office → Prop where
  | done (result : Result) (office : Office) :
      Ends (.done result) office [] result office
  | ask
      {request : Request}
      {next : request.Reply → Procedure Result}
      {office between after : Office}
      {reply : request.Reply}
      {exchanges : List Exchange}
      {result : Result}
      (answered : office.MayAnswer request reply between)
      (rest : Ends (next reply) between exchanges result after) :
      Ends (.ask request next) office (⟨request, reply⟩ :: exchanges) result after

/-- A procedure bound to another starts where the other ended. -/
theorem Procedure.Ends.bind_inv
    {First Second : Type}
    {procedure : Procedure First}
    {next : First → Procedure Second}
    {office after : Office}
    {exchanges : List Exchange}
    {result : Second}
    (ended : Ends (procedure.bind next) office exchanges result after) :
    ∃ early late first between,
      exchanges = early ++ late ∧
        Ends procedure office early first between ∧
        Ends (next first) between late result after := by
  induction procedure generalizing office exchanges with
  | done first =>
      exact ⟨[], exchanges, first, office, rfl, .done first office, ended⟩
  | ask request reply inductionHypothesis =>
      cases ended with
      | ask answered rest =>
          obtain ⟨early, late, first, between, rfl, here, onward⟩ :=
            inductionHypothesis _ rest
          exact ⟨_ :: early, late, first, between, rfl, .ask answered here, onward⟩

/-- What is made of a result in the end takes no exchange. -/
theorem Procedure.Ends.map
    {First Second : Type}
    {procedure : Procedure First}
    {office after : Office}
    {exchanges : List Exchange}
    {result : First}
    (ended : Ends procedure office exchanges result after)
    (make : First → Second) :
    Ends (procedure.bind fun result => .done (make result)) office exchanges
      (make result) after := by
  induction ended with
  | done result office => exact .done (make result) office
  | ask answered _ inductionHypothesis => exact .ask answered inductionHypothesis

/-- Without an exchange for it, no notice is sent. -/
theorem Procedure.Ends.sent_eq
    {Result : Type}
    {procedure : Procedure Result}
    {office after : Office}
    {exchanges : List Exchange}
    {result : Result}
    (ended : Ends procedure office exchanges result after)
    (nothing : Exchange.SendNothing exchanges) :
    after.sent = office.sent := by
  induction ended with
  | done =>
      rfl
  | ask answered rest inductionHypothesis =>
      have first := nothing _ List.mem_cons_self
      have others := inductionHypothesis
        fun exchange member => nothing exchange (List.mem_cons_of_mem _ member)
      exact others.trans (answered.sent_eq first)

/-- What an attempt may come to when services may refuse. -/
abbrev Office.MayEnd
    {Result : Type}
    (office : Office)
    (attempt : Attempt Result)
    (exchanges : List Exchange)
    (outcome : Outcome Result)
    (after : Office) : Prop :=
  Procedure.Ends attempt.run office exchanges outcome after

namespace Office

variable {First Second : Type} {office after : Office}
  {exchanges : List Exchange}

/-- An outcome is reached without an exchange. -/
theorem mayEnd_ofOutcome_inv
    {given outcome : Outcome First}
    (ended : office.MayEnd (Attempt.ofOutcome given) exchanges outcome after) :
    exchanges = [] ∧ outcome = given ∧ after = office := by
  cases ended
  exact ⟨rfl, rfl, rfl⟩

/-- A result is reached without an exchange. -/
theorem mayEnd_pure_inv
    {given : First}
    {outcome : Outcome First}
    (ended : office.MayEnd (pure given) exchanges outcome after) :
    exchanges = [] ∧ outcome = .ok given ∧ after = office :=
  mayEnd_ofOutcome_inv ended

/-- What is made of the result of an outcome is reached without an exchange. -/
theorem mayEnd_ofOutcome_map_inv
    {given : Outcome First}
    {make : First → Second}
    {outcome : Outcome Second}
    (ended :
      office.MayEnd
        (Attempt.ofOutcome given >>= fun result => pure (make result))
        exchanges outcome after) :
    exchanges = [] ∧
      outcome = (given >>= fun result => pure (make result)) ∧
      after = office := by
  cases given <;> exact mayEnd_ofOutcome_inv ended

/-- An attempt that halts ends those bound to it, and otherwise they go on. -/
theorem mayEnd_bind_inv
    {attempt : Attempt First}
    {next : First → Attempt Second}
    {outcome : Outcome Second}
    (ended : office.MayEnd (attempt >>= next) exchanges outcome after) :
    (∃ halt,
        office.MayEnd attempt exchanges (.error halt) after ∧
          outcome = .error halt) ∨
      ∃ early late first between,
        exchanges = early ++ late ∧
          office.MayEnd attempt early (.ok first) between ∧
          between.MayEnd (next first) late outcome after := by
  obtain ⟨early, late, first, between, rfl, here, onward⟩ :=
    Procedure.Ends.bind_inv ended
  cases first with
  | error halt =>
      cases onward
      rw [List.append_nil]
      exact .inl ⟨halt, here, rfl⟩
  | ok first =>
      exact .inr ⟨early, late, first, between, rfl, here, onward⟩

/-- What is made of the result of an attempt changes nothing else. -/
theorem mayEnd_map_inv
    {attempt : Attempt First}
    {make : First → Second}
    {outcome : Outcome Second}
    (ended :
      office.MayEnd (attempt >>= fun result => pure (make result))
        exchanges outcome after) :
    ∃ earlier,
      office.MayEnd attempt exchanges earlier after ∧
        outcome = earlier.map make := by
  rcases mayEnd_bind_inv ended with
    ⟨halt, halted, rfl⟩ | ⟨early, late, result, between, rfl, here, returned⟩
  · exact ⟨.error halt, halted, rfl⟩
  · obtain ⟨rfl, rfl, rfl⟩ := mayEnd_pure_inv returned
    rw [List.append_nil]
    exact ⟨.ok result, here, rfl⟩

/-- What an attempt may come to, it may come to whatever is made of its result. -/
theorem mayEnd_map
    {attempt : Attempt First}
    {outcome : Outcome First}
    (ended : office.MayEnd attempt exchanges outcome after)
    (make : First → Second) :
    office.MayEnd (attempt >>= fun result => pure (make result))
      exchanges (outcome.map make) after := by
  have returns :
      ExceptT.bindCont (fun result => pure (make result)) =
        fun outcome => (.done (outcome.map make) : Procedure (Outcome Second)) := by
    funext outcome
    cases outcome <;> rfl
  change Procedure.Ends (attempt.run.bind (ExceptT.bindCont _)) _ _ _ _
  rw [returns]
  exact Procedure.Ends.map ended (·.map make)

/-- An attempt goes on with what a store replied, or its refusal halts it. -/
theorem mayEnd_ofStore_inv
    {reply : Except StoreFailure First}
    {next : First → Attempt Second}
    {outcome : Outcome Second}
    (ended :
      office.MayEnd (Attempt.ofStore reply >>= next) exchanges outcome after) :
    (∃ failure,
        reply = .error failure ∧
          exchanges = [] ∧
          outcome = .error (.failed (.store failure)) ∧
          after = office) ∨
      ∃ result,
        reply = .ok result ∧ office.MayEnd (next result) exchanges outcome after := by
  cases reply with
  | error failure =>
      cases ended
      exact .inl ⟨failure, rfl, rfl, rfl, rfl⟩
  | ok result =>
      exact .inr ⟨result, rfl, ended⟩

/-- A request is answered, and the attempt goes on with the reply. -/
theorem mayEnd_ask_inv
    {request : Request}
    {next : request.Reply → Attempt Second}
    {outcome : Outcome Second}
    (ended :
      office.MayEnd (Attempt.ask request >>= next) exchanges outcome after) :
    ∃ reply between rest,
      exchanges = ⟨request, reply⟩ :: rest ∧
        office.MayAnswer request reply between ∧
        between.MayEnd (next reply) rest outcome after := by
  cases ended with
  | ask answered rest =>
      exact ⟨_, _, _, rfl, answered, rest⟩

namespace MayAnswer

/-- Accounts are loaded, or loading is refused. -/
theorem loadAccounts_inv
    {ids : List AccountId}
    {reply : Except StoreFailure AccountBook}
    (answered : office.MayAnswer (.loadAccounts ids) reply after) :
    after = office ∧
      (reply = .ok (office.accounts.only ids) ∨ ∃ failure, reply = .error failure) := by
  cases answered with
  | served => exact ⟨rfl, .inl rfl⟩
  | loadingRefused _ failure => exact ⟨rfl, .inr ⟨failure, rfl⟩⟩

/-- A history is read, or reading is refused. -/
theorem readHistory_inv
    {ids : List AccountId}
    {kinds : List ActionKind}
    {reply : Except StoreFailure (List LedgerEntry)}
    (answered : office.MayAnswer (.readHistory ids kinds) reply after) :
    after = office ∧
      (reply = .ok (office.ledger.find ids kinds) ∨
        ∃ failure, reply = .error failure) := by
  cases answered with
  | served => exact ⟨rfl, .inl rfl⟩
  | historyRefused _ _ failure => exact ⟨rfl, .inr ⟨failure, rfl⟩⟩

/-- An entry is recorded, or refused. -/
theorem recordEntry_inv
    {entry : LedgerEntry}
    {reply : Except StoreFailure Unit}
    (answered : office.MayAnswer (.recordEntry entry) reply after) :
    (reply = .ok () ∧ after = Engine.withEntries office [entry]) ∨
      ∃ failure, reply = .error failure ∧ after = office := by
  cases answered with
  | served =>
      simp only [Office.answer, Office.recordEntry, Ledger.record]
      by_cases used : office.ledger.ids.contains entry.id = true
      · rw [if_pos used]
        exact .inr ⟨_, rfl, rfl⟩
      · rw [if_neg used]
        exact .inl ⟨rfl, rfl⟩
  | entryRefused _ failure => exact .inr ⟨failure, rfl, rfl⟩

/-- A batch of entries is recorded, or refused as a whole. -/
theorem recordBatch_inv
    {entries : List LedgerEntry}
    {reply : Except StoreFailure Unit}
    (answered : office.MayAnswer (.recordBatch entries) reply after) :
    (reply = .ok () ∧ after = Engine.withEntries office entries) ∨
      ∃ failure, reply = .error failure ∧ after = office := by
  cases answered with
  | served =>
      simp only [Office.answer, Office.recordBatch, Ledger.recordBatch]
      cases Ledger.firstRepeated? office.ledger.ids entries with
      | some repeated => exact .inr ⟨_, rfl, rfl⟩
      | none => exact .inl ⟨rfl, rfl⟩
  | batchRefused _ failure => exact .inr ⟨failure, rfl, rfl⟩

/-- An account is saved, or refused. -/
theorem saveAccount_inv
    {account : Account}
    {reply : Except StoreFailure Unit}
    (answered : office.MayAnswer (.saveAccount account) reply after) :
    (reply = .ok () ∧ after = Engine.withAccounts office [account]) ∨
      ∃ failure, reply = .error failure ∧ after = office := by
  cases answered with
  | served => exact .inl ⟨rfl, rfl⟩
  | accountRefused _ failure => exact .inr ⟨failure, rfl, rfl⟩

/-- Stamps are always drawn. -/
theorem drawStamp_inv
    {stamp : Stamp}
    (answered : office.MayAnswer .drawStamp stamp after) :
    stamp = office.drawStamp.1 ∧ after = office.drawStamp.2 := by
  cases answered
  exact ⟨rfl, rfl⟩

/-- A notice, sent or not, leaves the stores as they are. -/
theorem sendNotice_inv
    {entry : LedgerEntry}
    {reply : Except NoticeFailure Unit}
    (answered : office.MayAnswer (.sendNotice entry) reply after) :
    Engine.HasStoresOf after office := by
  cases answered with
  | served => exact ⟨rfl, rfl⟩
  | noticeRefused => exact ⟨rfl, rfl⟩

/-- Events are always reported. -/
theorem report_inv
    {event : Event}
    {reply : Unit}
    (answered : office.MayAnswer (.report event) reply after) :
    after = office.report event := by
  cases answered
  rfl

end MayAnswer

/-- What a procedure comes to when every service works, it may come to. -/
theorem ends_run
    {Result : Type}
    (procedure : Procedure Result)
    (office : Office) :
    ∃ exchanges,
      procedure.Ends office exchanges
        (procedure.run Office.answer office).1
        (procedure.run Office.answer office).2 := by
  induction procedure generalizing office with
  | done result =>
      exact ⟨[], .done result office⟩
  | ask request next inductionHypothesis =>
      obtain ⟨exchanges, rest⟩ := inductionHypothesis _ _
      exact ⟨_, .ask (.served request) rest⟩

/-- Whatever is out of order, an office in trouble answers as one may. -/
theorem Troubled.mayAnswer
    (troubled : Troubled)
    (request : Request) :
    troubled.office.MayAnswer request (troubled.answer request).1
      (troubled.answer request).2.office := by
  have served :
      troubled.office.MayAnswer request
        (troubled.office.answer request).1 (troubled.office.answer request).2 :=
    .served request
  cases request with
  | loadAccounts ids =>
      simp only [Troubled.answer]
      split
      · exact .loadingRefused ids _
      · exact served
  | readHistory ids kinds =>
      simp only [Troubled.answer]
      split
      · exact .historyRefused ids kinds _
      · exact served
  | recordEntry entry =>
      simp only [Troubled.answer]
      split
      · exact served
      · exact .entryRefused entry _
      · exact served
  | recordBatch entries =>
      simp only [Troubled.answer]
      split
      · exact .batchRefused entries _
      · exact served
  | saveAccount account =>
      simp only [Troubled.answer]
      split
      · exact .accountRefused account _
      · exact served
  | sendNotice entry =>
      simp only [Troubled.answer]
      split
      · exact .noticeRefused entry _
      · exact served
  | drawStamp | report =>
      exact served

/-- What a procedure comes to in an office in trouble, it may come to. -/
theorem Troubled.ends
    {Result : Type}
    (procedure : Procedure Result)
    (troubled : Troubled) :
    ∃ exchanges,
      procedure.Ends troubled.office exchanges
        (procedure.run Troubled.answer troubled).1
        (procedure.run Troubled.answer troubled).2.office := by
  induction procedure generalizing troubled with
  | done result =>
      exact ⟨[], .done result troubled.office⟩
  | ask request next inductionHypothesis =>
      obtain ⟨exchanges, rest⟩ := inductionHypothesis _ _
      exact ⟨_, .ask (troubled.mayAnswer request) rest⟩

end Office

end PatronFees
