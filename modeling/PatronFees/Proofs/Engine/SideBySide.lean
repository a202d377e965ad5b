import PatronFees.Proofs.Engine.NoticeServices

namespace PatronFees

open Engine

/-!
# Sessions beside each other

Two sessions of the same calls are followed side by side, each with a notice
service, a clock and identifiers of its own. Their offices have the same books and
the same outages all along. So each call comes to the same in both: what a notice
service answers is read by nothing but a report.
-/

namespace Office.Attended

/-- The ledger lists its entries, and identifiers are kept apart. -/
structure IsReady
    (drawn : List EntryId)
    (budget : Nat)
    (attended : Attended) : Prop where
  recorded : attended.office.ledger.IsRecorded
  apart : attended.office.KeepsApart drawn budget

namespace IsReady

variable {attended after : Attended} {drawn : List EntryId} {budget rest : Nat}

/-- What was drawn need not be used, nor all be drawn that may be. -/
theorem fewer
    (ready : attended.IsReady drawn budget)
    (enough : rest ≤ budget) :
    attended.IsReady [] rest := by
  have among :
      (attended.office.upcoming rest).Sublist
        (drawn ++ attended.office.upcoming budget) :=
    ((List.range'_sublist_right.mpr enough).map _).trans
      (List.sublist_append_right _ _)
  exact
    { recorded := ready.recorded
      apart :=
        { distinct := among.nodup ready.apart.distinct
          unused := fun _ member => ready.apart.unused (among.subset member) } }

theorem of_hasStoresOf
    (ready : attended.IsReady drawn budget)
    (same : after.HasStoresOf attended) :
    after.IsReady drawn budget := by
  have upcoming :
      after.office.upcoming budget = attended.office.upcoming budget := by
    rw [Office.upcoming, Office.upcoming, same.nextId]
  refine ⟨?_, ?_, ?_⟩
  · rw [same.ledger]
    exact ready.recorded
  · rw [upcoming]
    exact ready.apart.distinct
  · rw [upcoming, same.ledger]
    exact ready.apart.unused

/-- Identifiers are drawn from those next in line. -/
theorem drawing
    {postings : List Posting}
    (ready : attended.IsReady [] (postings.length + rest)) :
    (attended.drawing postings.length).IsReady
      ((stampedFrom attended.office.clock attended.office.nextId postings).map
        (·.id)) rest := by
  have line :
      attended.office.upcoming (postings.length + rest) =
        (stampedFrom attended.office.clock attended.office.nextId postings).map
            (·.id) ++
          (attended.drawing postings.length).office.upcoming rest := by
    rw [map_id_stampedFrom, Office.upcoming, ← List.range'_append_1, List.map_append]
    rfl
  exact ⟨ready.recorded, line ▸ ready.apart.distinct, line ▸ ready.apart.unused⟩

/-- What is drawn first is not in use. -/
theorem unused
    {entry : LedgerEntry}
    (ready : attended.IsReady ([entry].map (·.id) ++ drawn) budget) :
    ¬ attended.office.ledger.ids.contains entry.id = true := by
  rw [List.contains_iff_mem]
  exact ready.apart.unused List.mem_cons_self

theorem recording
    {entries : List LedgerEntry}
    (ready : attended.IsReady (entries.map (·.id) ++ drawn) budget)
    (outages : Outages) :
    (attended.recording entries outages).IsReady drawn budget where
  recorded := Office.isRecorded_withEntries ready.recorded entries
  apart := ready.apart.recording

theorem saving
    (ready : attended.IsReady drawn budget)
    (account : Account) :
    (attended.saving account).IsReady drawn budget :=
  ⟨ready.recorded, ready.apart.distinct, ready.apart.unused⟩

end IsReady

/--
Two states have the same books and outages. Of the identifiers, each has its own:
those drawn and not yet used, and as many to be drawn.
-/
structure AreAlike
    (firstDrawn secondDrawn : List EntryId)
    (budget : Nat)
    (first second : Attended) : Prop where
  books : first.office.books = second.office.books
  outages : first.outages = second.outages
  firstReady : first.IsReady firstDrawn budget
  secondReady : second.IsReady secondDrawn budget

namespace AreAlike

variable {first second firstAfter secondAfter : Attended}
  {firstDrawn secondDrawn : List EntryId} {budget rest : Nat}

theorem fewer
    (alike : AreAlike firstDrawn secondDrawn budget first second)
    (enough : rest ≤ budget) :
    AreAlike [] [] rest first second :=
  ⟨alike.books, alike.outages, alike.firstReady.fewer enough,
    alike.secondReady.fewer enough⟩

/-- What changes no store keeps states alike. -/
theorem of_hasStoresOf
    (alike : AreAlike firstDrawn secondDrawn budget first second)
    (firstSame : firstAfter.HasStoresOf first)
    (secondSame : secondAfter.HasStoresOf second) :
    AreAlike firstDrawn secondDrawn budget firstAfter secondAfter where
  books := by
    have books := alike.books
    simp only [Office.books] at books ⊢
    rwa [firstSame.accounts, firstSame.ledger, secondSame.accounts,
      secondSame.ledger]
  outages := by
    rw [firstSame.outages, alike.outages, secondSame.outages]
  firstReady := alike.firstReady.of_hasStoresOf firstSame
  secondReady := alike.secondReady.of_hasStoresOf secondSame

/-- The same postings, recorded under stamps of their own, keep states alike. -/
theorem recording
    {firstEntries secondEntries : List LedgerEntry}
    (alike :
      AreAlike (firstEntries.map (·.id) ++ firstDrawn)
        (secondEntries.map (·.id) ++ secondDrawn) budget first second)
    (posted : firstEntries.map (·.posting) = secondEntries.map (·.posting))
    (outages : Outages) :
    AreAlike firstDrawn secondDrawn budget (first.recording firstEntries outages)
      (second.recording secondEntries outages) where
  books := by
    change (withEntries first.office firstEntries).books =
      (withEntries second.office secondEntries).books
    rw [Office.books_withEntries alike.firstReady.recorded,
      Office.books_withEntries alike.secondReady.recorded, alike.books, posted]
  outages := rfl
  firstReady := alike.firstReady.recording outages
  secondReady := alike.secondReady.recording outages

theorem saving
    (alike : AreAlike firstDrawn secondDrawn budget first second)
    (account : Account) :
    AreAlike firstDrawn secondDrawn budget (first.saving account)
      (second.saving account) where
  books := congrArg (·.save account) alike.books
  outages := alike.outages
  firstReady := alike.firstReady.saving account
  secondReady := alike.secondReady.saving account

end AreAlike

/--
Two attempts end alike: both with results, which are related as the states are,
or both for the same reason, and then the states are alike.
-/
inductive EndAlike
    {First Second : Type}
    (rest : Nat)
    (related : First → Second → Attended → Attended → Prop) :
    Outcome First × Attended → Outcome Second × Attended → Prop where
  | ok
      {firstResult : First}
      {secondResult : Second}
      {first second : Attended}
      (same : related firstResult secondResult first second) :
      EndAlike rest related (.ok firstResult, first) (.ok secondResult, second)
  | halted
      {halt : Halt}
      {first second : Attended}
      (alike : AreAlike [] [] rest first second) :
      EndAlike rest related (.error halt, first) (.error halt, second)

section SideBySide

variable {First Second Third Fourth : Type}
  {related : First → Second → Attended → Attended → Prop}
  {further : Third → Fourth → Attended → Attended → Prop}
  {firstService secondService : NoticeService} {first second : Attended}
  {firstDrawn secondDrawn : List EntryId} {budget rest : Nat}

/-- Attempts that end alike go on to end alike. -/
theorem EndAlike.bind
    {firstAttempt : Attempt First}
    {secondAttempt : Attempt Second}
    {firstNext : First → Attempt Third}
    {secondNext : Second → Attempt Fourth}
    (alike :
      EndAlike rest related (first.run firstService firstAttempt)
        (second.run secondService secondAttempt))
    (onward :
      ∀ firstResult secondResult firstBetween secondBetween,
        related firstResult secondResult firstBetween secondBetween →
          EndAlike rest further
            (firstBetween.run firstService (firstNext firstResult))
            (secondBetween.run secondService (secondNext secondResult))) :
    EndAlike rest further (first.run firstService (firstAttempt >>= firstNext))
      (second.run secondService (secondAttempt >>= secondNext)) := by
  cases firstRun : first.run firstService firstAttempt with
  | mk firstOutcome firstBetween =>
  cases secondRun : second.run secondService secondAttempt with
  | mk secondOutcome secondBetween =>
  rw [firstRun, secondRun] at alike
  cases alike with
  | ok same =>
      rw [run_bind_ok firstRun, run_bind_ok secondRun]
      exact onward _ _ _ _ same
  | halted alike =>
      rw [run_bind_error firstRun, run_bind_error secondRun]
      exact .halted alike

/-- What comes to the same outcome and leaves states alike ends alike. -/
theorem EndAlike.of_outcome
    {outcome : Outcome First}
    {fact : First → Prop}
    {firstAfter secondAfter : Attended}
    (holds : ∀ result, outcome = .ok result → fact result)
    (alike : AreAlike [] [] budget firstAfter secondAfter)
    (enough : rest ≤ budget) :
    EndAlike rest
      (fun firstResult secondResult firstLeft secondLeft =>
        fact firstResult ∧
          secondResult = firstResult ∧
          AreAlike [] [] budget firstLeft secondLeft)
      (outcome, firstAfter) (outcome, secondAfter) := by
  cases outcome with
  | ok result => exact .ok ⟨holds result rfl, rfl, alike⟩
  | error halt => exact .halted (alike.fewer enough)

/-- A review comes to the same and leaves states alike. -/
theorem AreAlike.review
    (alike : AreAlike [] [] budget first second)
    (enough : rest ≤ budget)
    (engine : Engine)
    (kind : ActionKind)
    (accounts : List AccountId)
    (amount : Option String) :
    EndAlike rest
      (fun firstReviewed secondReviewed firstAfter secondAfter =>
        firstReviewed.ids = accounts.eraseDups ∧
          secondReviewed = firstReviewed ∧
          AreAlike [] [] budget firstAfter secondAfter)
      (first.run firstService (engine.review kind accounts amount))
      (second.run secondService (engine.review kind accounts amount)) := by
  rw [run_review alike.firstReady.recorded, run_review alike.secondReady.recorded,
    ← alike.books, ← alike.outages]
  exact .of_outcome (fun _ => ids_of_reviewAt) alike enough

/-- A plan comes to the same and leaves states alike. -/
theorem AreAlike.plan
    (alike : AreAlike [] [] budget first second)
    (enough : rest ≤ budget)
    (engine : Engine)
    (kind : ActionKind)
    (reviewed : Reviewed)
    (options : ActionOptions) :
    EndAlike rest
      (fun firstPlans secondPlans firstAfter secondAfter =>
        AccountPlan.plans kind reviewed engine.scale options = .ok firstPlans ∧
          secondPlans = firstPlans ∧
          AreAlike [] [] budget firstAfter secondAfter)
      (first.run firstService (engine.plan kind reviewed options))
      (second.run secondService (engine.plan kind reviewed options)) := by
  obtain ⟨firstAfter, firstEnded, firstSame⟩ :=
    run_plan first firstService engine kind reviewed options
  obtain ⟨secondAfter, secondEnded, secondSame⟩ :=
    run_plan second secondService engine kind reviewed options
  rw [firstEnded, secondEnded]
  exact .of_outcome (fun _ planned => planned)
    (alike.of_hasStoresOf firstSame secondSame) enough

/-- Entries are the same postings, whose identifiers are those just drawn. -/
structure AreStamped
    (postings : List Posting)
    (budget : Nat)
    (firstEntries secondEntries : List LedgerEntry)
    (first second : Attended) : Prop where
  firstPosted : firstEntries.map (·.posting) = postings
  secondPosted : secondEntries.map (·.posting) = postings
  alike :
    AreAlike (firstEntries.map (·.id)) (secondEntries.map (·.id)) budget
      first second

/-- Stamps are drawn for the same postings. -/
theorem AreAlike.stamp
    {postings : List Posting}
    (alike : AreAlike [] [] (postings.length + rest) first second) :
    EndAlike rest (AreStamped postings rest)
      (first.run firstService (stamp postings))
      (second.run secondService (stamp postings)) := by
  rw [run_stamp, run_stamp]
  exact .ok
    { firstPosted := map_posting_stampedFrom _ _ _
      secondPosted := map_posting_stampedFrom _ _ _
      alike :=
        { books := alike.books
          outages := alike.outages
          firstReady := alike.firstReady.drawing
          secondReady := alike.secondReady.drawing } }

/-- Recording one posting comes to the same, whatever its stamps. -/
theorem AreAlike.recordOne
    {firstEntry secondEntry : LedgerEntry}
    (alike :
      AreAlike ([firstEntry].map (·.id) ++ firstDrawn)
        ([secondEntry].map (·.id) ++ secondDrawn) rest first second)
    (posted : firstEntry.posting = secondEntry.posting) :
    EndAlike rest (fun _ _ => AreAlike firstDrawn secondDrawn rest)
      (first.run firstService (recordOne firstEntry))
      (second.run secondService (recordOne secondEntry)) := by
  rw [run_recordOne alike.firstReady.unused, run_recordOne alike.secondReady.unused,
    ← alike.outages]
  cases afterRecording? first.outages with
  | none => exact .halted (alike.fewer (Nat.le_refl rest))
  | some outages =>
      exact .ok (alike.recording (congrArg ([·]) posted) outages)

/-- Recording the same postings one by one comes to the same. -/
theorem AreAlike.recordEach
    {firstEntries secondEntries : List LedgerEntry}
    (alike :
      AreAlike (firstEntries.map (·.id)) (secondEntries.map (·.id)) rest
        first second)
    (posted : firstEntries.map (·.posting) = secondEntries.map (·.posting)) :
    EndAlike rest (fun _ _ => AreAlike [] [] rest)
      (first.run firstService (recordEach firstEntries))
      (second.run secondService (recordEach secondEntries)) := by
  -- Both lists are followed at once: what heads one was drawn before its rest.
  induction firstEntries generalizing secondEntries first second with
  | nil =>
      obtain rfl := List.map_eq_nil_iff.mp posted.symm
      exact .ok alike
  | cons firstEntry firstRest inductionHypothesis =>
      cases secondEntries with
      | nil =>
          cases posted
      | cons secondEntry secondRest =>
          obtain ⟨samePosting, others⟩ := List.cons.inj posted
          exact (AreAlike.recordOne alike samePosting).bind
            fun _ _ _ _ same => inductionHypothesis same others

/-- Recording the same postings as a batch comes to the same. -/
theorem AreAlike.recordAll
    {firstEntries secondEntries : List LedgerEntry}
    (alike :
      AreAlike (firstEntries.map (·.id)) (secondEntries.map (·.id)) rest
        first second)
    (posted : firstEntries.map (·.posting) = secondEntries.map (·.posting)) :
    EndAlike rest (fun _ _ => AreAlike [] [] rest)
      (first.run firstService (recordAll firstEntries))
      (second.run secondService (recordAll secondEntries)) := by
  have sameLength : firstEntries.length = secondEntries.length := by
    rw [← firstEntries.length_map (·.posting), posted, List.length_map]
  rw [← List.append_nil (firstEntries.map _),
    ← List.append_nil (secondEntries.map _)] at alike
  rw [run_recordAll alike.firstReady.apart.firstRepeated?_eq_none,
    run_recordAll alike.secondReady.apart.firstRepeated?_eq_none,
    ← alike.outages, sameLength]
  split
  · exact .halted (alike.fewer (Nat.le_refl rest))
  · exact .ok (alike.recording posted first.outages)

/-- Saving the same accounts comes to the same and leaves states alike. -/
theorem AreAlike.saveAll
    (alike : AreAlike [] [] rest first second)
    (accounts : List Account) :
    EndAlike rest (fun _ _ => AreAlike [] [] rest)
      (first.run firstService (saveAll accounts))
      (second.run secondService (saveAll accounts)) := by
  induction accounts generalizing first second with
  | nil =>
      exact .ok alike
  | cons account others inductionHypothesis =>
      have saved :
          EndAlike rest (fun _ _ => AreAlike [] [] rest)
            (first.run firstService
              (do Attempt.ofStore (← Attempt.ask (.saveAccount account))))
            (second.run secondService
              (do Attempt.ofStore (← Attempt.ask (.saveAccount account)))) := by
        rw [run_saveOne, run_saveOne, ← alike.outages]
        split
        · exact .halted alike
        · exact .ok (alike.saving account)
      exact saved.bind fun _ _ _ _ same => inductionHypothesis same

/-- Asking for notices comes to the same and leaves states alike. -/
theorem AreAlike.notify
    (alike : AreAlike [] [] rest first second)
    (firstEntries secondEntries : List LedgerEntry) :
    EndAlike rest (fun _ _ => AreAlike [] [] rest)
      (first.run firstService (notify firstEntries))
      (second.run secondService (notify secondEntries)) := by
  obtain ⟨firstAfter, firstEnded, firstSame⟩ :=
    run_notify first firstService firstEntries
  obtain ⟨secondAfter, secondEnded, secondSame⟩ :=
    run_notify second secondService secondEntries
  rw [firstEnded, secondEnded]
  exact .ok (alike.of_hasStoresOf firstSame secondSame)

/-- What an action does up to its stamps, it does alike. -/
theorem AreAlike.planning
    {kind : ActionKind}
    {accounts : List AccountId}
    {firstNext secondNext :
      Reviewed → List AccountPlan → List LedgerEntry → Attempt First}
    {related : First → First → Attended → Attended → Prop}
    (alike : AreAlike [] [] (4 * accounts.length + rest) first second)
    (engine : Engine)
    (amount : Option String)
    (options : ActionOptions)
    (onward :
      ∀ reviewed plans firstEntries secondEntries firstBetween secondBetween,
        AreStamped (plans.flatMap (·.postings)) rest firstEntries secondEntries
            firstBetween secondBetween →
          EndAlike rest related
            (firstBetween.run firstService
              (firstNext reviewed plans firstEntries))
            (secondBetween.run secondService
              (secondNext reviewed plans secondEntries))) :
    EndAlike rest related
      (first.run firstService
        (do
          let reviewed ← engine.review kind accounts amount
          let plans ← engine.plan kind reviewed options
          let entries ← Engine.stamp (plans.flatMap (·.postings))
          firstNext reviewed plans entries))
      (second.run secondService
        (do
          let reviewed ← engine.review kind accounts amount
          let plans ← engine.plan kind reviewed options
          let entries ← Engine.stamp (plans.flatMap (·.postings))
          secondNext reviewed plans entries)) := by
  refine (alike.review (Nat.le_add_left _ _) engine kind accounts amount).bind ?_
  rintro _ reviewed firstRead secondRead ⟨ids, rfl, alikeRead⟩
  refine
    (alikeRead.plan (Nat.le_add_left _ _) engine kind reviewed options).bind ?_
  rintro _ plans firstPlanned secondPlanned ⟨planned, rfl, alikePlanned⟩
  -- Each account that a call names takes four entries at most.
  have few := (arePlansFor_of_plans ids planned).few
  have drawing := alikePlanned.fewer (Nat.add_le_add_right few rest)
  exact drawing.stamp.bind fun _ _ _ _ stamped =>
    onward reviewed plans _ _ _ _ stamped

/-- Once entries are recorded, accounts are saved and notices asked for alike. -/
theorem AreAlike.finish
    {related : First → First → Attended → Attended → Prop}
    (alike : AreAlike [] [] rest first second)
    (accounts : List Account)
    (firstEntries secondEntries : List LedgerEntry)
    {firstLast secondLast : Attempt First}
    (last :
      ∀ firstBetween secondBetween,
        AreAlike [] [] rest firstBetween secondBetween →
          EndAlike rest related (firstBetween.run firstService firstLast)
            (secondBetween.run secondService secondLast)) :
    EndAlike rest related
      (first.run firstService
        (do
          Engine.saveAll accounts
          Engine.notify firstEntries
          firstLast))
      (second.run secondService
        (do
          Engine.saveAll accounts
          Engine.notify secondEntries
          secondLast)) :=
  (alike.saveAll accounts).bind fun _ _ _ _ saved =>
    (saved.notify firstEntries secondEntries).bind fun _ _ _ _ told =>
      last _ _ told

/-- Results are the same but for stamps, and the states are alike. -/
def ReturnAlike
    (rest : Nat)
    (firstReturned secondReturned : Returned)
    (first second : Attended) : Prop :=
  firstReturned.unstamped = secondReturned.unstamped ∧
    AreAlike [] [] rest first second

/-- An action on one account comes to the same beside any two notice services. -/
theorem AreAlike.single
    {account : AccountId}
    (alike : AreAlike [] [] (4 * [account].length + rest) first second)
    (engine : Engine)
    (kind : ActionKind)
    (amount : Option String)
    (options : ActionOptions) :
    EndAlike rest
      (fun firstResult secondResult =>
        ReturnAlike rest (.single firstResult) (.single secondResult))
      (first.run firstService (engine.single kind account amount options))
      (second.run secondService (engine.single kind account amount options)) := by
  rw [Engine.single]
  refine alike.planning engine amount options ?_
  intro reviewed plans firstEntries secondEntries _ _ stamped
  have posted := stamped.firstPosted.trans stamped.secondPosted.symm
  refine (stamped.alike.recordEach posted).bind fun _ _ _ _ recorded => ?_
  refine recorded.finish _ firstEntries secondEntries fun _ _ told => ?_
  cases (plans.map (·.account)).getLast? <|> reviewed.accounts.find? account with
  | none => exact .halted told
  | some saved =>
      refine .ok ⟨?_, told⟩
      simp only [Returned.unstamped, posted]

/-- An action over accounts comes to the same beside any two notice services. -/
theorem AreAlike.bulkSaving
    {accounts : List AccountId}
    (alike : AreAlike [] [] (4 * accounts.length + rest) first second)
    (engine : Engine)
    (order : SaveOrder)
    (kind : ActionKind)
    (amount : Option String)
    (options : ActionOptions) :
    EndAlike rest
      (fun firstResult secondResult =>
        ReturnAlike rest (.bulk firstResult) (.bulk secondResult))
      (first.run firstService
        (engine.bulkSaving order kind accounts amount options))
      (second.run secondService
        (engine.bulkSaving order kind accounts amount options)) := by
  rw [bulkSaving_eq]
  refine alike.planning engine amount options ?_
  intro reviewed plans firstEntries secondEntries _ _ stamped
  have posted := stamped.firstPosted.trans stamped.secondPosted.symm
  refine (stamped.alike.recordAll posted).bind fun _ _ _ _ recorded => ?_
  refine recorded.finish _ firstEntries secondEntries fun _ _ told => ?_
  refine .ok ⟨?_, told⟩
  simp only [Returned.unstamped, posted]

/-- A call comes to the same beside any two notice services. -/
theorem AreAlike.carryOut
    {call : Call}
    (alike :
      AreAlike [] [] (4 * call.accounts.length + rest) first second)
    (engine : Engine)
    (order : SaveOrder) :
    EndAlike rest (ReturnAlike rest)
      (first.run firstService (engine.carryOut order call))
      (second.run secondService (engine.carryOut order call)) := by
  cases call with
  | single kind account amount options =>
      exact (alike.single engine kind amount options).bind
        fun _ _ _ _ same => .ok same
  | bulk kind accounts amount options =>
      exact (alike.bulkSaving engine order kind amount options).bind
        fun _ _ _ _ same => .ok same

/-- Calls that end alike have the same outcome, and the states are alike. -/
theorem EndAlike.outcome_eq
    {firstEnd secondEnd : Outcome Returned × Attended}
    (alike : EndAlike rest (ReturnAlike rest) firstEnd secondEnd) :
    firstEnd.1.map Returned.unstamped = secondEnd.1.map Returned.unstamped ∧
      AreAlike [] [] rest firstEnd.2 secondEnd.2 := by
  cases alike with
  | ok same => exact ⟨congrArg Except.ok same.1, same.2⟩
  | halted alike => exact ⟨rfl, alike⟩

/--
Two states have the same books and outages, and each has fresh identifiers for a
number of entries. Their clocks and identifiers, what was reported and what their
notice services were asked for may differ.
-/
structure StartAlike
    (first second : Attended)
    (count : Nat) : Prop where
  books : first.office.books = second.office.books
  outages : first.outages = second.outages
  firstRecorded : first.office.ledger.IsRecorded
  secondRecorded : second.office.ledger.IsRecorded
  firstFresh : first.office.DrawsFresh count
  secondFresh : second.office.DrawsFresh count

theorem StartAlike.areAlike
    {count : Nat}
    (start : first.StartAlike second count) :
    AreAlike [] [] count first second where
  books := start.books
  outages := start.outages
  firstReady := ⟨start.firstRecorded, start.firstFresh.keepsApart⟩
  secondReady := ⟨start.secondRecorded, start.secondFresh.keepsApart⟩

/-- How many accounts calls name, each call for itself. -/
def countNamed (calls : List (SaveOrder × Call)) : Nat :=
  (calls.map (·.2.accounts.length)).sum

/-- A session comes to the same beside any two notice services. -/
theorem AreAlike.session
    {calls : List (SaveOrder × Call)}
    (alike : AreAlike [] [] (4 * countNamed calls) first second)
    (engine : Engine) :
    (session engine firstService calls first).1.map (·.map Returned.unstamped) =
        (session engine secondService calls second).1.map
          (·.map Returned.unstamped) ∧
      AreAlike [] [] 0 (session engine firstService calls first).2
        (session engine secondService calls second).2 := by
  induction calls generalizing first second with
  | nil =>
      exact ⟨rfl, alike⟩
  | cons one others inductionHypothesis =>
      rcases one with ⟨order, call⟩
      -- The first call leaves the identifiers that the others may draw.
      have budget :
          4 * countNamed ((order, call) :: others) =
            4 * call.accounts.length + 4 * countNamed others := by
        rw [countNamed, List.map_cons, List.sum_cons, Nat.mul_add]
        rfl
      rw [budget] at alike
      have ended :
          EndAlike (4 * countNamed others) (ReturnAlike (4 * countNamed others))
            (first.run firstService (engine.carryOut order call))
            (second.run secondService (engine.carryOut order call)) :=
        alike.carryOut engine order
      obtain ⟨same, alikeBetween⟩ := ended.outcome_eq
      obtain ⟨sameOthers, alikeAfter⟩ := inductionHypothesis alikeBetween
      exact ⟨congrArg₂ List.cons same sameOthers, alikeAfter⟩

end SideBySide

end Office.Attended

end PatronFees
