import PatronFees.Proofs.Engine.Shape
import PatronFees.Proofs.Engine.Trouble

namespace PatronFees.Engine

open Exchange

/-!
# Parts of an action when services may refuse

A review asks and changes nothing. Entries are recorded up to the first that is
refused, or as a batch all or none; accounts are saved up to the first that is
refused; and notices are sent or not, which halts nothing.
-/

variable {engine : Engine} {office after : Office} {exchanges : List Exchange}

/-- Exchanges that neither change the stores nor send a notice. -/
def AreQuiet (exchanges : List Exchange) : Prop :=
  ∀ exchange ∈ exchanges,
    exchange.request.isWrite = false ∧ exchange.request.isNotice = false

theorem AreQuiet.nil : AreQuiet [] :=
  fun _ member => (List.not_mem_nil member).elim

theorem AreQuiet.cons
    {exchange : Exchange}
    (first : exchange.request.isWrite = false ∧ exchange.request.isNotice = false)
    (rest : AreQuiet exchanges) :
    AreQuiet (exchange :: exchanges) := by
  intro other member
  rcases List.mem_cons.mp member with rfl | among
  · exact first
  · exact rest other among

theorem AreQuiet.append
    {early late : List Exchange}
    (first : AreQuiet early)
    (second : AreQuiet late) :
    AreQuiet (early ++ late) := by
  intro exchange member
  rcases List.mem_append.mp member with inEarly | inLate
  · exact first exchange inEarly
  · exact second exchange inLate

theorem AreQuiet.writesOf_eq
    (quiet : AreQuiet exchanges) :
    writesOf exchanges = [] := by
  rw [writesOf, List.filter_eq_nil_iff]
  intro exchange member isWrite
  rw [(quiet exchange member).1] at isWrite
  cases isWrite

theorem AreQuiet.sendNothing
    (quiet : AreQuiet exchanges) :
    SendNothing exchanges :=
  fun exchange member => (quiet exchange member).2

/-- A review changes nothing, and what it accepts it has read in the office. -/
theorem review_inv
    {kind : ActionKind}
    {accounts : List AccountId}
    {amount : Option String}
    {outcome : Outcome Reviewed}
    (ended :
      office.MayEnd (engine.review kind accounts amount) exchanges outcome after) :
    after = office ∧
      AreQuiet exchanges ∧
      ∀ reviewed,
        outcome = .ok reviewed →
          engine.reviewIn office kind accounts amount = .ok reviewed := by
  by_cases requestable : kind.isRequestable = true
  · rw [review, if_pos requestable] at ended
    rw [reviewIn, if_pos requestable]
    obtain ⟨reply, between, rest, rfl, answered, onward⟩ :=
      Office.mayEnd_ask_inv ended
    obtain ⟨rfl, loaded⟩ := answered.loadAccounts_inv
    rcases Office.mayEnd_ofStore_inv onward with
      ⟨failure, -, rfl, rfl, rfl⟩ | ⟨book, rfl, further⟩
    · exact ⟨rfl, .cons ⟨rfl, rfl⟩ .nil, fun _ same => by cases same⟩
    obtain rfl : book = between.accounts.only accounts.eraseDups := by
      rcases loaded with found | ⟨failure, refused⟩
      · exact Except.ok.inj found
      · cases refused
    by_cases refunds : kind = .refund
    · simp only [refunds, if_true] at further ⊢
      obtain ⟨reply, middle, later, rfl, answeredNext, reading⟩ :=
        Office.mayEnd_ask_inv further
      obtain ⟨rfl, read⟩ := answeredNext.readHistory_inv
      rcases Office.mayEnd_ofStore_inv reading with
        ⟨failure, -, rfl, rfl, rfl⟩ | ⟨entries, rfl, checking⟩
      · exact ⟨rfl, .cons ⟨rfl, rfl⟩ (.cons ⟨rfl, rfl⟩ .nil),
          fun _ same => by cases same⟩
      obtain rfl : entries = middle.ledger.find accounts.eraseDups refundHistory := by
        rcases read with found | ⟨failure, refused⟩
        · exact Except.ok.inj found
        · cases refused
      obtain ⟨rfl, passed, rfl⟩ := Office.mayEnd_ofOutcome_map_inv checking
      exact ⟨rfl, .cons ⟨rfl, rfl⟩ (.cons ⟨rfl, rfl⟩ .nil),
        fun reviewed same => passed.symm.trans same⟩
    · simp only [refunds, if_false] at further ⊢
      obtain ⟨rfl, passed, rfl⟩ := Office.mayEnd_ofOutcome_map_inv further
      exact ⟨rfl, .cons ⟨rfl, rfl⟩ .nil,
        fun reviewed same => passed.symm.trans same⟩
  · rw [review, if_neg requestable] at ended
    obtain ⟨rfl, rfl, rfl⟩ := Office.mayEnd_ofOutcome_inv ended
    exact ⟨rfl, .nil, fun _ same => by cases same⟩

/-- Planning asks nothing, but to report an allocation that does not add up. -/
theorem plan_inv
    {kind : ActionKind}
    {reviewed : Reviewed}
    {options : ActionOptions}
    {outcome : Outcome (List AccountPlan)}
    (ended :
      office.MayEnd (engine.plan kind reviewed options) exchanges outcome after) :
    AreQuiet exchanges ∧
      HasStoresOf after office ∧
      ∀ plans,
        outcome = .ok plans →
          AccountPlan.plans kind reviewed engine.scale options = .ok plans ∧
            exchanges = [] ∧
            after = office := by
  rw [plan] at ended
  split at ended
  next plans planned =>
    obtain ⟨rfl, rfl, rfl⟩ := Office.mayEnd_pure_inv ended
    refine ⟨.nil, ⟨rfl, rfl⟩, fun others same => ?_⟩
    obtain rfl := Except.ok.inj same
    exact ⟨planned, rfl, rfl⟩
  next halt failed =>
    unfold reportUnbalanced at ended
    split at ended
    next =>
      obtain ⟨reply, between, rest, rfl, answered, thrown⟩ :=
        Office.mayEnd_ask_inv ended
      obtain rfl := answered.report_inv
      cases thrown
      exact ⟨.cons ⟨rfl, rfl⟩ .nil, ⟨rfl, rfl⟩, fun _ same => by cases same⟩
    next =>
      cases ended
      exact ⟨.nil, ⟨rfl, rfl⟩, fun _ same => by cases same⟩

/-- Stamps are drawn one after another, whatever the services refuse. -/
theorem stamp_inv
    {postings : List Posting}
    {outcome : Outcome (List LedgerEntry)}
    (ended : office.MayEnd (stamp postings) exchanges outcome after) :
    AreQuiet exchanges ∧
      outcome = .ok (stampedFrom office.clock office.nextId postings) ∧
      after = { office with nextId := office.nextId + postings.length } := by
  induction postings generalizing office exchanges outcome after with
  | nil =>
      obtain ⟨rfl, rfl, rfl⟩ := Office.mayEnd_pure_inv ended
      exact ⟨.nil, rfl, rfl⟩
  | cons posting rest inductionHypothesis =>
      rw [stamp] at ended inductionHypothesis
      rw [List.mapM_cons] at ended
      obtain ⟨reply, between, later, rfl, answered, onward⟩ :=
        Office.mayEnd_ask_inv ended
      obtain ⟨rfl, rfl⟩ := answered.drawStamp_inv
      rcases Office.mayEnd_bind_inv onward with
        ⟨halt, halted, rfl⟩ | ⟨early, late, others, middle, rfl, drawn, returned⟩
      · obtain ⟨-, failed, -⟩ := inductionHypothesis halted
        cases failed
      · obtain ⟨quiet, same, rfl⟩ := inductionHypothesis drawn
        obtain rfl := Except.ok.inj same
        obtain ⟨rfl, rfl, rfl⟩ := Office.mayEnd_pure_inv returned
        rw [List.append_nil]
        refine ⟨.cons ⟨rfl, rfl⟩ quiet, rfl, ?_⟩
        rw [List.length_cons]
        congr 1
        change office.nextId + 1 + rest.length = _
        omega

/-- The first entry that is refused ends recording; those before it are kept. -/
theorem recordEach_inv
    {entries : List LedgerEntry}
    {outcome : Outcome Unit}
    (ended : office.MayEnd (recordEach entries) exchanges outcome after) :
    (outcome = .ok () ∧
        exchanges = entries.map recorded ∧
        after = withEntries office entries) ∨
      ∃ kept refused rest failure,
        entries = kept ++ refused :: rest ∧
          outcome = .error (.failed (.store failure)) ∧
          exchanges =
            kept.map recorded ++ [⟨.recordEntry refused, .error failure⟩] ∧
          after = withEntries office kept := by
  induction entries generalizing office exchanges with
  | nil =>
      obtain ⟨rfl, rfl, rfl⟩ := Office.mayEnd_pure_inv ended
      exact .inl ⟨rfl, rfl, rfl⟩
  | cons entry rest inductionHypothesis =>
      obtain ⟨reply, between, later, rfl, answered, onward⟩ :=
        Office.mayEnd_ask_inv ended
      rcases answered.recordEntry_inv with ⟨rfl, rfl⟩ | ⟨failure, rfl, rfl⟩
      · rcases inductionHypothesis onward with
          ⟨rfl, rfl, rfl⟩ | ⟨kept, refused, others, failure, rfl, rfl, rfl, rfl⟩
        · exact .inl ⟨rfl, rfl, rfl⟩
        · exact .inr
            ⟨entry :: kept, refused, others, failure, rfl, rfl, rfl, rfl⟩
      · cases onward
        exact .inr ⟨[], entry, rest, failure, rfl, rfl, rfl, rfl⟩

/-- A batch of entries is recorded, or refused as a whole. -/
theorem recordAll_inv
    {entries : List LedgerEntry}
    {outcome : Outcome Unit}
    (ended : office.MayEnd (recordAll entries) exchanges outcome after) :
    (outcome = .ok () ∧
        exchanges = [⟨.recordBatch entries, .ok ()⟩] ∧
        after = withEntries office entries) ∨
      ∃ failure,
        outcome = .error (.failed (.store failure)) ∧
          exchanges = [⟨.recordBatch entries, .error failure⟩] ∧
          after = office := by
  obtain ⟨reply, between, later, rfl, answered, onward⟩ :=
    Office.mayEnd_ask_inv ended
  rcases answered.recordBatch_inv with ⟨rfl, rfl⟩ | ⟨failure, rfl, rfl⟩
  · cases onward
    exact .inl ⟨rfl, rfl, rfl⟩
  · cases onward
    exact .inr ⟨failure, rfl, rfl, rfl⟩

/-- The first account that is refused ends saving; those before it are saved. -/
theorem saveAll_inv
    {accounts : List Account}
    {outcome : Outcome Unit}
    (ended : office.MayEnd (saveAll accounts) exchanges outcome after) :
    (outcome = .ok () ∧
        exchanges = accounts.map saved ∧
        after = withAccounts office accounts) ∨
      ∃ kept refused rest failure,
        accounts = kept ++ refused :: rest ∧
          outcome = .error (.failed (.store failure)) ∧
          exchanges =
            kept.map saved ++ [⟨.saveAccount refused, .error failure⟩] ∧
          after = withAccounts office kept := by
  induction accounts generalizing office exchanges with
  | nil =>
      obtain ⟨rfl, rfl, rfl⟩ := Office.mayEnd_pure_inv ended
      exact .inl ⟨rfl, rfl, rfl⟩
  | cons account rest inductionHypothesis =>
      obtain ⟨reply, between, later, rfl, answered, onward⟩ :=
        Office.mayEnd_ask_inv ended
      rcases answered.saveAccount_inv with ⟨rfl, rfl⟩ | ⟨failure, rfl, rfl⟩
      · rcases inductionHypothesis onward with
          ⟨rfl, rfl, rfl⟩ | ⟨kept, refused, others, failure, rfl, rfl, rfl, rfl⟩
        · exact .inl ⟨rfl, rfl, rfl⟩
        · exact .inr
            ⟨account :: kept, refused, others, failure, rfl, rfl, rfl, rfl⟩
      · cases onward
        exact .inr ⟨[], account, rest, failure, rfl, rfl, rfl, rfl⟩

/--
Notices are asked for in the order of the entries, once for each that wants one.
They are sent or not, and the stores stay as they are.
-/
theorem notify_inv
    {entries : List LedgerEntry}
    {outcome : Outcome Unit}
    (ended : office.MayEnd (notify entries) exchanges outcome after) :
    outcome = .ok () ∧
      writesOf exchanges = [] ∧
      noticesAsked exchanges = entries.filter (·.posting.notify) ∧
      HasStoresOf after office := by
  rw [notify] at ended
  generalize entries.filter (·.posting.notify) = wanted at ended ⊢
  induction wanted generalizing office exchanges outcome with
  | nil =>
      obtain ⟨rfl, rfl, rfl⟩ := Office.mayEnd_pure_inv ended
      exact ⟨rfl, rfl, rfl, rfl, rfl⟩
  | cons entry rest inductionHypothesis =>
      obtain ⟨reply, between, later, rfl, answered, onward⟩ :=
        Office.mayEnd_ask_inv ended
      have sent := answered.sendNotice_inv
      cases reply with
      | ok _ =>
          obtain ⟨rfl, writes, asked, same⟩ := inductionHypothesis onward
          exact ⟨rfl, writes, congrArg (entry :: ·) asked,
            same.accounts.trans sent.accounts, same.ledger.trans sent.ledger⟩
      | error failure =>
          obtain ⟨reply, middle, others, rfl, reported, further⟩ :=
            Office.mayEnd_ask_inv onward
          obtain rfl := reported.report_inv
          obtain ⟨rfl, writes, asked, same⟩ := inductionHypothesis further
          exact ⟨rfl, writes, congrArg (entry :: ·) asked,
            same.accounts.trans sent.accounts, same.ledger.trans sent.ledger⟩

end PatronFees.Engine
