import PatronFees.Proofs.Batch.Telling
import PatronFees.Proofs.Batch.Turns

namespace PatronFees

/-!
# Notices of requests

A request that is carried out sends a notice for each posting that asks for one,
and a request that is refused sends none. However it is answered, a procedure sends
what its result says; so lanes send together what their results say, in whatever
turns they are carried out.
-/

/-- How many notices a request sends. -/
def Request.notices : Request → Nat
  | .sendNotice _ => 1
  | .loadAccounts _ | .readHistory _ _ | .drawStamp | .recordEntry _ |
    .recordBatch _ | .saveAccount _ | .report _ => 0

/-- How many notices postings ask for. -/
def noticesOf (postings : List Posting) : Nat :=
  postings.countP (·.notify)

/-- How many notices a request has sent in the end. -/
def Told.notices (told : Told) : Nat :=
  match told.answer with
  | .ok postings => noticesOf postings
  | .error _ => 0

/-- How many notices an action has sent in the end. -/
def noticesIn : Outcome (List LedgerEntry) → Nat
  | .ok entries => noticesOf (entries.map (·.posting))
  | .error _ => 0

/--
However it is answered, the procedure ends with a result and a number of notices
sent that the goal holds of.
-/
def Procedure.Sends
    {Result : Type}
    (goal : Result → Nat → Prop) :
    Procedure Result → Nat → Prop
  | .done result, sent => goal result sent
  | .ask request next, sent =>
      ∀ reply, (next reply).Sends goal (sent + request.notices)

/-- A procedure bound to another sends what the other does from its end on. -/
theorem Procedure.sends_bind
    {First Second : Type}
    {between : First → Nat → Prop}
    {goal : Second → Nat → Prop}
    {procedure : Procedure First}
    {next : First → Procedure Second}
    {sent : Nat}
    (first : procedure.Sends between sent)
    (onward :
      ∀ result after, between result after → (next result).Sends goal after) :
    (procedure.bind next).Sends goal sent := by
  induction procedure generalizing sent with
  | done result =>
      exact onward result sent first
  | ask request reply inductionHypothesis =>
      exact fun answer => inductionHypothesis answer (first answer)

namespace Attempt

variable {First Second : Type} {attempt : Attempt First}
  {next : First → Attempt Second} {fact : First → Prop} {after : Second → Prop}
  {goal : Outcome Second → Nat → Prop} {sent : Nat}

/-- What an attempt sends is what its procedure does. -/
def Sends
    {Result : Type}
    (goal : Outcome Result → Nat → Prop)
    (attempt : Attempt Result)
    (sent : Nat) : Prop :=
  Procedure.Sends goal (ExceptT.run attempt) sent

/-- The attempt sends no notice, and a fact holds of its result if it has one. -/
def IsQuiet
    {Result : Type}
    (fact : Result → Prop)
    (attempt : Attempt Result) : Prop :=
  ∀ sent,
    attempt.Sends
      (fun outcome later =>
        later = sent ∧ ∀ result, outcome = .ok result → fact result)
      sent

/-- After a quiet attempt another one sends what is sent at all. -/
theorem IsQuiet.sends_bind
    (quiet : attempt.IsQuiet fact)
    (onward : ∀ result, fact result → (next result).Sends goal sent)
    (halted : ∀ halt, goal (.error halt) sent) :
    (attempt >>= next).Sends goal sent := by
  refine Procedure.sends_bind (quiet sent) ?_
  rintro outcome _ ⟨rfl, holds⟩
  cases outcome with
  | ok result => exact onward result (holds result rfl)
  | error halt => exact halted halt

theorem IsQuiet.bind
    (quiet : attempt.IsQuiet fact)
    (onward : ∀ result, fact result → (next result).IsQuiet after) :
    (attempt >>= next).IsQuiet after :=
  fun sent => quiet.sends_bind
    (fun result holds => onward result holds sent)
    (fun _ => ⟨rfl, nofun⟩)

theorem isQuiet_ask
    {request : Request}
    (none : request.notices = 0) :
    (Attempt.ask request).IsQuiet fun _ => True :=
  fun sent _ => ⟨congrArg (sent + ·) none, fun _ _ => trivial⟩

theorem isQuiet_ofOutcome
    {outcome : Outcome First}
    (holds : ∀ result, outcome = .ok result → fact result) :
    (ofOutcome outcome).IsQuiet fact :=
  fun _ => ⟨rfl, holds⟩

theorem isQuiet_pure
    {result : First}
    (holds : fact result) :
    (pure result : Attempt First).IsQuiet fact :=
  fun _ => ⟨rfl, fun _ same => Except.ok.inj same ▸ holds⟩

theorem isQuiet_throw
    (halt : Halt) :
    (throw halt : Attempt First).IsQuiet fact :=
  fun _ => ⟨rfl, nofun⟩

theorem isQuiet_ofStore
    (reply : Except StoreFailure First) :
    (ofStore reply).IsQuiet fun _ => True := by
  cases reply with
  | ok result => exact isQuiet_ofOutcome fun _ _ => trivial
  | error failure => exact isQuiet_ofOutcome fun _ _ => trivial

/-- Steps that are quiet are so one after another. -/
theorem isQuiet_forM
    {Member : Type}
    {step : Member → Attempt Unit}
    (quiet : ∀ member, (step member).IsQuiet fun _ => True)
    (members : List Member) :
    (members.forM step).IsQuiet fun _ => True := by
  induction members with
  | nil =>
      exact isQuiet_pure trivial
  | cons member rest inductionHypothesis =>
      exact (quiet member).bind fun _ _ => inductionHypothesis

end Attempt

namespace Office

variable {Result : Type} {goal : Result → Nat → Prop} {office : Office}

/-- An answer counts the notices that its request sends. -/
theorem sent_answer
    (request : Request)
    (office : Office) :
    (office.answer request).2.sent = office.sent + request.notices := by
  cases request with
  | recordEntry entry =>
      rw [answer, recordEntry]
      split <;> rfl
  | recordBatch entries =>
      rw [answer, recordBatch]
      split <;> rfl
  | loadAccounts | readHistory | drawStamp | saveAccount | sendNotice | report =>
      rfl

/-- A run counts the notices that its procedure sends. -/
theorem sent_run
    {procedure : Procedure Result}
    {before : Nat}
    (sends : procedure.Sends goal before)
    (office : Office) :
    ∃ later,
      goal (procedure.run answer office).1 later ∧
        (procedure.run answer office).2.sent + before = office.sent + later := by
  induction procedure generalizing before office with
  | done result =>
      exact ⟨before, sends, rfl⟩
  | ask request next inductionHypothesis =>
      obtain ⟨later, reached, counted⟩ :=
        inductionHypothesis _ (sends (office.answer request).1)
          (office.answer request).2
      have asked :
          (Procedure.ask request next).run answer office =
            (next (office.answer request).1).run answer
              (office.answer request).2 :=
        rfl
      rw [sent_answer] at counted
      rw [asked]
      exact ⟨later, reached, by omega⟩

/-- A procedure with the number of notices that it has sent. -/
abbrev Sender (Result : Type) := Procedure Result × Nat

/-- A turn counts the notice that it sends. -/
theorem sent_takeTurn
    {senders : List (Sender Result)}
    (sends : ∀ one ∈ senders, one.1.Sends goal one.2)
    (office : Office)
    (index : Nat) :
    ∃ later : List (Sender Result),
      (Procedure.takeTurn answer (senders.map Prod.fst, office) index).1 =
          later.map Prod.fst ∧
        (∀ one ∈ later, one.1.Sends goal one.2) ∧
        (Procedure.takeTurn answer (senders.map Prod.fst, office) index).2.sent +
            (senders.map Prod.snd).sum =
          office.sent + (later.map Prod.snd).sum := by
  rw [Procedure.takeTurn]
  split
  next request next found =>
    obtain ⟨⟨procedure, before⟩, isSender, asks⟩ :
        ∃ one, senders[index]? = some one ∧ one.1 = .ask request next := by
      simpa using found
    obtain ⟨inside, here⟩ := List.getElem?_eq_some_iff.mp isSender
    obtain rfl : procedure = .ask request next := asks
    have onward :=
      sends _ (List.mem_of_getElem? isSender) (office.answer request).1
    refine ⟨senders.set index
        (next (office.answer request).1, before + request.notices), ?_, ?_, ?_⟩
    · rw [List.map_set]
    · intro one member
      rcases List.mem_or_eq_of_mem_set member with among | rfl
      · exact sends one among
      · exact onward
    · have now :=
        ((List.set_perm_cons_eraseIdx inside
          (next (office.answer request).1, before + request.notices)).map
            Prod.snd).sum_eq
      have was :=
        ((List.getElem_cons_eraseIdx_perm inside).map Prod.snd).sum_eq
      rw [here] at was
      have counted := sent_answer request office
      simp only [List.map_cons, List.sum_cons] at now was
      dsimp only
      omega
  next =>
    exact ⟨senders, rfl, sends, rfl⟩
  next =>
    exact ⟨senders, rfl, sends, rfl⟩

/-- Turns in any order count the notices that are sent. -/
theorem sent_takeTurns
    {senders : List (Sender Result)}
    (sends : ∀ one ∈ senders, one.1.Sends goal one.2)
    (office : Office)
    (schedule : List Nat) :
    ∃ later : List (Sender Result),
      (Procedure.takeTurns answer schedule (senders.map Prod.fst, office)).1 =
          later.map Prod.fst ∧
        (∀ one ∈ later, one.1.Sends goal one.2) ∧
        (Procedure.takeTurns answer schedule
              (senders.map Prod.fst, office)).2.sent +
            (senders.map Prod.snd).sum =
          office.sent + (later.map Prod.snd).sum := by
  induction schedule generalizing senders office with
  | nil =>
      exact ⟨senders, rfl, sends, rfl⟩
  | cons index rest inductionHypothesis =>
      obtain ⟨between, procedures, onward, first⟩ := sent_takeTurn sends office index
      rcases turn : Procedure.takeTurn answer (senders.map Prod.fst, office) index
        with ⟨asked, after⟩
      rw [turn] at procedures first
      dsimp only at first
      obtain rfl : asked = between.map Prod.fst := procedures
      obtain ⟨later, ended, last, others⟩ := inductionHypothesis onward after
      rw [Procedure.takeTurns] at ended others
      rw [Procedure.takeTurns, List.foldl_cons, turn]
      exact ⟨later, ended, last, by omega⟩

end Office

namespace Engine

open Attempt

variable {engine : Engine}

/-- A review sends nothing, and one that accepts has found the accounts. -/
theorem isQuiet_review
    (kind : ActionKind)
    (accounts : List AccountId)
    (amount : Option String) :
    (engine.review kind accounts amount).IsQuiet fun reviewed =>
      ∀ id ∈ accounts, (reviewed.accounts.find? id).isSome := by
  have checked (book : AccountBook) (history : List Posting) :
      (do
        let preview ← ofOutcome
          (kind.validation.check accounts.eraseDups book history amount
            engine.scale)
        return ⟨accounts.eraseDups, book, history, preview⟩ :
          Attempt Reviewed).IsQuiet fun reviewed =>
        ∀ id ∈ accounts, (reviewed.accounts.find? id).isSome := by
    have found :
        ∀ preview,
          kind.validation.check accounts.eraseDups book history amount
              engine.scale = .ok preview →
            ∀ id ∈ accounts, (book.find? id).isSome := by
      intro preview accepted id member
      obtain ⟨targets, all, -⟩ := Outcome.bind_eq_ok_iff.mp accepted
      exact (Validation.findAll_eq_ok all).2 id (List.mem_eraseDups.mpr member)
    exact (isQuiet_ofOutcome found).bind fun preview each => isQuiet_pure each
  rw [review]
  split
  next =>
    refine (isQuiet_ask rfl).bind fun reply _ => ?_
    refine (isQuiet_ofStore reply).bind fun book _ => ?_
    by_cases refunds : kind = .refund
    · rw [if_pos refunds]
      refine (isQuiet_ask rfl).bind fun reply _ => ?_
      exact (isQuiet_ofStore reply).bind fun _ _ => checked book _
    · rw [if_neg refunds]
      exact checked book []
  next =>
    refine isQuiet_ofOutcome fun reviewed failed => ?_
    cases failed

theorem isQuiet_plan
    (kind : ActionKind)
    (reviewed : Reviewed)
    (options : ActionOptions) :
    (engine.plan kind reviewed options).IsQuiet fun _ => True := by
  rw [plan]
  split
  next =>
    exact isQuiet_pure trivial
  next halt _ =>
    have reported :
        (reportUnbalanced reviewed.targets.length halt).IsQuiet fun _ => True := by
      rw [reportUnbalanced.eq_def]
      split
      next => exact isQuiet_ask rfl
      next => exact isQuiet_pure trivial
    exact reported.bind fun _ _ => isQuiet_throw halt

/-- Stamping sends nothing and leaves the postings as they are. -/
theorem isQuiet_stamp
    (postings : List Posting) :
    (stamp postings).IsQuiet fun entries => entries.map (·.posting) = postings := by
  induction postings with
  | nil =>
      exact isQuiet_pure rfl
  | cons posting rest inductionHypothesis =>
      rw [stamp] at inductionHypothesis ⊢
      rw [List.mapM_cons]
      have first :
          (do
            let stamp ← Attempt.ask .drawStamp
            return ⟨stamp, posting⟩ : Attempt LedgerEntry).IsQuiet
              fun entry => entry.posting = posting :=
        (isQuiet_ask rfl).bind fun _ _ => isQuiet_pure rfl
      refine first.bind fun entry isPosting => ?_
      refine inductionHypothesis.bind fun entries arePostings => isQuiet_pure ?_
      rw [List.map_cons, isPosting, arePostings]

theorem isQuiet_recordEach
    (entries : List LedgerEntry) :
    (recordEach entries).IsQuiet fun _ => True :=
  isQuiet_forM
    (fun _ => (isQuiet_ask rfl).bind fun reply _ => isQuiet_ofStore reply) entries

theorem isQuiet_recordAll
    (entries : List LedgerEntry) :
    (recordAll entries).IsQuiet fun _ => True :=
  (isQuiet_ask rfl).bind fun reply _ => isQuiet_ofStore reply

theorem isQuiet_saveAll
    (accounts : List Account) :
    (saveAll accounts).IsQuiet fun _ => True :=
  isQuiet_forM
    (fun _ => (isQuiet_ask rfl).bind fun reply _ => isQuiet_ofStore reply) accounts

/-- A notice is sent for each posting that asks for one. -/
theorem sends_notify
    (entries : List LedgerEntry)
    (sent : Nat) :
    (notify entries).Sends
      (fun outcome later =>
        outcome = .ok () ∧ later = sent + noticesOf (entries.map (·.posting)))
      sent := by
  have count :
      noticesOf (entries.map (·.posting)) =
        (entries.filter (·.posting.notify)).length := by
    rw [noticesOf, List.countP_map, List.countP_eq_length_filter]
    rfl
  rw [count, notify]
  induction entries.filter (·.posting.notify) generalizing sent with
  | nil =>
      exact ⟨rfl, rfl⟩
  | cons entry rest inductionHypothesis =>
      rw [List.length_cons, Nat.add_comm rest.length, ← Nat.add_assoc]
      intro reply
      cases reply with
      | ok => exact inductionHypothesis (sent + 1)
      | error => exact fun _ => inductionHypothesis (sent + 1)

/-- What was planned is written quietly, and then its notices are sent. -/
theorem sends_writing
    {Result : Type}
    {goal : Outcome Result → Nat → Prop}
    {record : List LedgerEntry → Attempt Unit}
    {finish : List LedgerEntry → Attempt Result}
    {plans : List AccountPlan}
    {sent : Nat}
    (quiet : ∀ entries, (record entries).IsQuiet fun _ => True)
    (halted : ∀ halt, goal (.error halt) sent)
    (reached :
      ∀ entries,
        (finish entries).Sends goal
          (sent + noticesOf (entries.map (·.posting)))) :
    (do
      let entries ← stamp (plans.flatMap (·.postings))
      record entries
      saveAll (plans.map (·.account))
      notify entries
      finish entries : Attempt Result).Sends goal sent := by
  refine (isQuiet_stamp _).sends_bind (fun entries _ => ?_) halted
  refine (quiet entries).sends_bind (fun _ _ => ?_) halted
  refine (isQuiet_saveAll _).sends_bind (fun _ _ => ?_) halted
  refine Procedure.sends_bind (sends_notify entries sent) ?_
  rintro _ _ ⟨rfl, rfl⟩
  exact reached entries

/-- An action over accounts sends the notices that its entries ask for. -/
theorem sends_bulk
    (kind : ActionKind)
    (accounts : List AccountId)
    (amount : Option String)
    (options : ActionOptions)
    (sent : Nat) :
    (engine.bulk kind accounts amount options).Sends
      (fun outcome later => later = sent + noticesIn (outcome.map (·.entries)))
      sent := by
  rw [bulk, bulkSaving_eq]
  refine (isQuiet_review kind accounts amount).sends_bind
    (fun reviewed _ => ?_) fun _ => rfl
  refine (isQuiet_plan kind reviewed options).sends_bind
    (fun plans _ => ?_) fun _ => rfl
  exact sends_writing isQuiet_recordAll (fun _ => rfl) fun _ => rfl

/-- An action on one account sends the notices that its entries ask for. -/
theorem sends_single
    (kind : ActionKind)
    (account : AccountId)
    (amount : Option String)
    (options : ActionOptions)
    (sent : Nat) :
    (engine.single kind account amount options).Sends
      (fun outcome later => later = sent + noticesIn (outcome.map (·.entries)))
      sent := by
  rw [single]
  refine (isQuiet_review kind [account] amount).sends_bind
    (fun reviewed found => ?_) fun _ => rfl
  refine (isQuiet_plan kind reviewed options).sends_bind
    (fun plans _ => ?_) fun _ => rfl
  refine sends_writing isQuiet_recordEach (fun _ => rfl) fun entries => ?_
  obtain ⟨saved, isSaved⟩ :=
    exists_saved (found account (List.mem_singleton_self account)) plans
  rw [isSaved]
  exact rfl

end Engine

namespace Batch

open Engine

variable {engine : Engine}

/-- How a request is carried out decides nothing about its notices. -/
theorem sends_processOne
    (request : ActionRequest)
    (sent : Nat) :
    (processOne engine request).Sends
      (fun outcome later => later = sent + noticesIn outcome) sent := by
  rw [processOne.eq_def]
  split
  next account =>
    refine Procedure.sends_bind (sends_single _ _ _ _ sent) ?_
    rintro (halt | result) _ rfl <;> exact rfl
  next =>
    refine Procedure.sends_bind (sends_bulk _ _ _ _ sent) ?_
    rintro (halt | result) _ rfl <;> exact rfl

/-- A request sends the notices that its verdict tells of. -/
theorem sends_processKept
    (request : ActionRequest)
    (sent : Nat) :
    (processKept engine request).Sends
      (fun outcome later =>
        ∀ processed,
          outcome = .ok processed → later = sent + processed.told.notices)
      sent := by
  refine Procedure.sends_bind (sends_processOne request sent) ?_
  rintro (halt | entries) _ rfl processed ended
  · cases halt with
    | failed failure =>
        obtain rfl := Except.ok.inj ended
        rfl
    | overflow operation => cases ended
    | endless => cases ended
  · obtain rfl := Except.ok.inj ended
    rfl

/-- How many notices requests have sent in the end. -/
def noticesAll (tolds : List Told) : Nat :=
  (tolds.map (·.notices)).sum

theorem noticesAll_perm
    {tolds others : List Told}
    (same : tolds.Perm others) :
    noticesAll tolds = noticesAll others :=
  (same.map _).sum_eq

theorem noticesAll_append (earlier later : List Told) :
    noticesAll (earlier ++ later) = noticesAll earlier + noticesAll later := by
  rw [noticesAll, List.map_append, List.sum_append]
  rfl

/-- The notices of a lane that ended with results. -/
def HasSent
    (sent : Nat)
    (outcome : Outcome (List Processed))
    (later : Nat) : Prop :=
  ∀ results,
    outcome = .ok results →
      later = sent + noticesAll (results.map Processed.told)

/-- A lane sends the notices that its results tell of. -/
theorem sends_processLane
    (lane : List ActionRequest)
    (sent : Nat) :
    (processLane engine lane).Sends (HasSent sent) sent := by
  induction lane generalizing sent with
  | nil =>
      intro results ended
      obtain rfl := Except.ok.inj ended
      rfl
  | cons request rest inductionHypothesis =>
      rw [processLane] at inductionHypothesis ⊢
      rw [List.mapM_cons]
      refine Procedure.sends_bind (sends_processKept request sent) ?_
      rintro (halt | processed) between first
      · exact nofun
      · obtain rfl := first processed rfl
        refine Procedure.sends_bind (inductionHypothesis _) ?_
        rintro (halt | results) after others
        · exact nofun
        · intro all ended
          obtain rfl := Except.ok.inj ended
          rw [others results rfl, noticesAll, noticesAll, List.map_cons,
            List.map_cons, List.sum_cons, Nat.add_assoc]

/-- Lanes that have ended have sent together what their results tell of. -/
theorem sum_counted
    {senders : List (Office.Sender (Outcome (List Processed)))}
    {laneResults : List (List Processed)}
    (counted : ∀ one ∈ senders, one.1.Sends (HasSent 0) one.2)
    (ended :
      senders.map Prod.fst = (laneResults.map Except.ok).map .done) :
    (senders.map Prod.snd).sum =
      noticesAll (laneResults.flatten.map Processed.told) := by
  induction laneResults generalizing senders with
  | nil =>
      obtain rfl := List.map_eq_nil_iff.mp ended
      rfl
  | cons results others inductionHypothesis =>
      obtain ⟨⟨procedure, count⟩, rest, rfl, isDone, restEnded⟩ :=
        List.map_eq_cons_iff.mp ended
      obtain rfl : procedure = .done (.ok results) := isDone
      have first : count = 0 + noticesAll (results.map Processed.told) :=
        counted _ List.mem_cons_self results rfl
      have later := inductionHypothesis
        (fun one member => counted one (List.mem_cons_of_mem _ member)) restEnded
      rw [List.map_cons, List.sum_cons, later, List.flatten_cons, List.map_append,
        noticesAll_append, first, Nat.zero_add]

end Batch

end PatronFees
