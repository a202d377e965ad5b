import PatronFees.Proofs.Batch.Desk
import PatronFees.Proofs.Batch.Telling
import PatronFees.Proofs.Engine.Effect

namespace PatronFees

/-!
# Requests at a desk

A request that is carried out at a desk comes to what is told by the books of the
desk: its plans are recorded and saved, or it is refused and nothing changes. It
draws four identifiers at most for each account that it names and uses all that
it draws. A lane of requests comes to what is told of them one after another.
-/

namespace Engine

open Attempt

variable {engine : Engine} {ids : List AccountId} {desk : Desk}
  {kind : ActionKind} {accounts : List AccountId} {amount : Option String}
  {options : ActionOptions} {entries : List LedgerEntry}

/-- A review ends as the books of the desk answer it. -/
theorem ensures_review
    (named : accounts ⊆ ids)
    (kind : ActionKind)
    (amount : Option String) :
    (engine.review kind accounts amount).Ensures ids
      (fun outcome after =>
        outcome = engine.reviewOn desk.books kind accounts amount ∧ after = desk)
      desk := by
  have part : accounts.eraseDups ⊆ ids :=
    fun id member => named (List.mem_eraseDups.mp member)
  rw [review, reviewOn]
  split
  next =>
    refine ensures_ask_bind ⟨part, List.nil_prefix, Nat.zero_le _⟩ ?_
    rintro reply rfl
    by_cases refunds : kind = .refund
    · simp only [refunds, if_true]
      refine ensures_ask_bind ⟨part, List.nil_prefix, Nat.zero_le _⟩ ?_
      rintro reply ⟨entries, rfl, read⟩
      have history :
          entries.map (·.posting) =
            desk.books.find accounts.eraseDups refundHistory := read
      rw [← history]
      exact ensures_ofOutcome_map ⟨rfl, rfl⟩
    · simp only [refunds, if_false]
      exact ensures_ofOutcome_map ⟨rfl, rfl⟩
  next =>
    exact ⟨rfl, rfl⟩

/-- Planning changes nothing, even where it reports that it fails. -/
theorem ensures_plan
    (reviewed : Reviewed) :
    (engine.plan kind reviewed options).Ensures ids
      (fun outcome after =>
        outcome = AccountPlan.plans kind reviewed engine.scale options ∧
          after = desk)
      desk := by
  rw [plan]
  split
  next plans planned =>
    exact ⟨planned.symm, rfl⟩
  next halt unplanned =>
    rw [reportUnbalanced.eq_def]
    split
    next =>
      refine ensures_ask_bind
        ⟨List.nil_subset _, List.nil_prefix, Nat.zero_le _⟩ ?_
      exact fun reply _ => ⟨unplanned.symm, rfl⟩
    next =>
      exact ⟨unplanned.symm, rfl⟩

/-- The desk once entries were stamped. -/
def stamped
    (desk : Desk)
    (entries : List LedgerEntry) : Desk :=
  { desk with
    drawn := desk.drawn ++ entries.map (·.id)
    budget := desk.budget - entries.length }

/-- Postings are stamped one after another with what the desk may draw. -/
theorem yields_stamp
    {postings : List Posting}
    (allowed : postings.length ≤ desk.budget) :
    (stamp postings).Yields ids
      (fun entries after =>
        entries.map (·.posting) = postings ∧ after = stamped desk entries)
      desk := by
  induction postings generalizing desk with
  | nil =>
      refine ⟨[], rfl, rfl, ?_⟩
      rw [stamped, List.map_nil, List.append_nil]
      rfl
  | cons posting rest inductionHypothesis =>
      rw [stamp] at inductionHypothesis ⊢
      rw [List.length_cons] at allowed
      rw [List.mapM_cons, bind_assoc]
      refine ensures_ask_bind
        ⟨List.nil_subset _, List.nil_prefix, by exact Nat.one_le_of_lt allowed⟩ ?_
      intro drawn _
      have left : rest.length ≤ (desk.answered .drawStamp drawn).budget := by
        change rest.length ≤ desk.budget - 1
        omega
      rw [pure_bind]
      refine ensures_bind_of_yields (inductionHypothesis left) ?_
      rintro entries after ⟨posted, rfl⟩
      refine ⟨⟨drawn, posting⟩ :: entries, rfl, ?_, ?_⟩
      · rw [List.map_cons, posted]
      · simp only [stamped, Desk.answered, List.map_cons, List.append_assoc,
          List.length_cons, Nat.sub_sub, Nat.add_comm 1]
        rfl

/-- The desk once its entries were recorded, which were drawn first. -/
def recordedAt
    (desk : Desk)
    (entries : List LedgerEntry) : Desk :=
  { desk with
    books := desk.books.post (entries.map (·.posting))
    drawn := desk.drawn.drop entries.length }

/-- Entries may be recorded that are on the given accounts and drawn first. -/
structure MayRecord
    (ids : List AccountId)
    (desk : Desk)
    (entries : List LedgerEntry) : Prop where
  named : ∀ entry ∈ entries, entry.account ∈ ids
  used : entries.map (·.id) <+: desk.drawn

/-- A way to record entries works at desks where they may be recorded. -/
def Records
    (ids : List AccountId)
    (record : List LedgerEntry → Attempt Unit) : Prop :=
  ∀ {desk entries},
    MayRecord ids desk entries →
      (record entries).Yields ids (fun _ after => after = recordedAt desk entries)
        desk

theorem records_recordEach : Records ids recordEach := by
  intro desk entries may
  induction entries generalizing desk with
  | nil =>
      exact ⟨(), rfl, by simp [recordedAt, Books.post]⟩
  | cons entry rest inductionHypothesis =>
      obtain ⟨others, drawn⟩ := may.used
      have permitted : desk.Permits ids (.recordEntry entry) :=
        { named := by
            intro id member
            rw [List.mem_singleton.mp member]
            exact may.named entry List.mem_cons_self
          used := ⟨rest.map (·.id) ++ others, drawn⟩
          allowed := Nat.zero_le _ }
      change (recordOne entry >>= fun _ => recordEach rest).Yields ids _ _
      rw [recordOne, bind_assoc]
      refine ensures_ask_bind permitted ?_
      rintro reply rfl
      have onward :
          MayRecord ids (desk.answered (.recordEntry entry) (.ok ())) rest :=
        { named := fun other member =>
            may.named other (List.mem_cons_of_mem _ member)
          used := ⟨others, by
            change _ = desk.drawn.drop 1
            rw [← drawn]
            rfl⟩ }
      have same :
          recordedAt (desk.answered (.recordEntry entry) (.ok ())) rest =
            recordedAt desk (entry :: rest) := by
        simp [recordedAt, Desk.answered, Books.post]
      rw [← same]
      exact inductionHypothesis onward

theorem records_recordAll : Records ids recordAll := by
  intro desk entries may
  have permitted : desk.Permits ids (.recordBatch entries) :=
    { named := by
        intro id member
        obtain ⟨entry, among, rfl⟩ := List.mem_map.mp member
        exact may.named entry among
      used := may.used
      allowed := Nat.zero_le _ }
  refine ensures_ask_bind permitted ?_
  rintro reply rfl
  exact ⟨(), rfl, rfl⟩

/-- The desk once accounts were saved. -/
def savedAt
    (desk : Desk)
    (accounts : List Account) : Desk :=
  { desk with books := accounts.foldl Books.save desk.books }

/-- Accounts of the given identifiers are saved in order. -/
theorem yields_saveAll
    {accounts : List Account}
    (named : ∀ account ∈ accounts, account.id ∈ ids) :
    (saveAll accounts).Yields ids (fun _ after => after = savedAt desk accounts)
      desk := by
  induction accounts generalizing desk with
  | nil =>
      exact ⟨(), rfl, rfl⟩
  | cons account rest inductionHypothesis =>
      have permitted : desk.Permits ids (.saveAccount account) :=
        { named := by
            intro id member
            rw [List.mem_singleton.mp member]
            exact named account List.mem_cons_self
          used := List.nil_prefix
          allowed := Nat.zero_le _ }
      have same :
          savedAt (savedAt desk [account]) rest =
            savedAt desk (account :: rest) :=
        rfl
      rw [← same]
      refine ensures_ask_bind permitted ?_
      rintro reply rfl
      exact inductionHypothesis
        fun other member => named other (List.mem_cons_of_mem _ member)

/-- Notices leave the desk as it is. -/
theorem yields_notify
    (entries : List LedgerEntry) :
    (notify entries).Yields ids (fun _ after => after = desk) desk := by
  rw [notify]
  induction entries.filter (·.posting.notify) with
  | nil =>
      exact ⟨(), rfl, rfl⟩
  | cons entry rest inductionHypothesis =>
      refine ensures_ask_bind
        ⟨List.nil_subset _, List.nil_prefix, Nat.zero_le _⟩ ?_
      rintro reply rfl
      exact inductionHypothesis

/-- What plans for accounts may post is at hand. -/
structure IsReadyFor
    (desk : Desk)
    (accounts : List AccountId) : Prop where
  nothing : desk.drawn = []
  allowed : 4 * accounts.length ≤ desk.budget

/-- What carrying out plans at a desk leaves there. -/
structure IsLeftBy
    (desk : Desk)
    (plans : List AccountPlan)
    (after : Desk) : Prop where
  books : after.books = desk.books.carryingOut plans
  drawn : after.drawn = desk.drawn
  budget : desk.budget = after.budget + (plans.flatMap (·.postings)).length

/-- Plans for the given accounts are carried out, however entries are recorded. -/
theorem ensures_writing
    {Result : Type}
    {goal : Outcome Result → Desk → Prop}
    {record : List LedgerEntry → Attempt Unit}
    {plans : List AccountPlan}
    {finish : List LedgerEntry → Result}
    (records : Records ids record)
    (plansFor : ArePlansFor accounts plans)
    (named : accounts ⊆ ids)
    (ready : IsReadyFor desk accounts)
    (reached :
      ∀ entries after,
        entries.map (·.posting) = plans.flatMap (·.postings) →
          IsLeftBy desk plans after → goal (.ok (finish entries)) after) :
    (do
      let entries ← stamp (plans.flatMap (·.postings))
      record entries
      saveAll (plans.map (·.account))
      notify entries
      return finish entries : Attempt Result).Ensures ids goal desk := by
  have allowed := plansFor.few.trans ready.allowed
  refine ensures_bind_of_yields (yields_stamp allowed) ?_
  rintro entries after ⟨posted, rfl⟩
  have onAccounts : ∀ entry ∈ entries, entry.account ∈ ids := by
    intro entry member
    apply named
    apply plansFor.posted
    rw [← posted]
    exact List.mem_map_of_mem member
  have may : MayRecord ids (stamped desk entries) entries :=
    ⟨onAccounts, by rw [stamped, ready.nothing]; exact List.prefix_rfl⟩
  refine ensures_bind_of_yields (records may) ?_
  rintro - after rfl
  have saved : ∀ account ∈ plans.map (·.account), account.id ∈ ids := by
    intro account member
    obtain ⟨plan, among, rfl⟩ := List.mem_map.mp member
    exact named (plansFor.saved plan among)
  refine ensures_bind_of_yields (yields_saveAll saved) ?_
  rintro - after rfl
  refine ensures_bind_of_yields (yields_notify entries) ?_
  rintro - after rfl
  refine reached entries _ posted ⟨?_, ?_, ?_⟩
  · rw [Books.carryingOut, ← posted]
    rfl
  · simp [savedAt, recordedAt, stamped, ready.nothing]
  · have sameLength := congrArg List.length posted
    rw [List.length_map] at sameLength
    change desk.budget = desk.budget - entries.length + _
    omega

/-- A request that is reviewed and planned goes on from the same desk. -/
theorem ensures_planning
    {Result : Type}
    {goal : Outcome Result → Desk → Prop}
    {rest : Reviewed → List AccountPlan → Attempt Result}
    (named : accounts ⊆ ids)
    (onward :
      ∀ reviewed plans,
        engine.reviewOn desk.books kind accounts amount = .ok reviewed →
          AccountPlan.plans kind reviewed engine.scale options = .ok plans →
            (rest reviewed plans).Ensures ids goal desk)
    (refused :
      ∀ halt,
        engine.planOn desk.books ⟨kind, accounts, amount, options⟩ =
          .error halt →
            goal (.error halt) desk) :
    (do
      let reviewed ← engine.review kind accounts amount
      let plans ← engine.plan kind reviewed options
      rest reviewed plans : Attempt Result).Ensures ids goal desk := by
  refine ensures_bind (ensures_review named kind amount) ?_ ?_
  · rintro reviewed after ⟨accepted, rfl⟩
    refine ensures_bind (ensures_plan reviewed) ?_ ?_
    · rintro plans after ⟨planned, rfl⟩
      exact onward reviewed plans accepted.symm planned.symm
    · rintro halt after ⟨unplanned, rfl⟩
      apply refused
      rw [planOn]
      dsimp only
      rw [← accepted, Outcome.ok_bind, ← unplanned]
  · rintro halt after ⟨rejected, rfl⟩
    apply refused
    rw [planOn]
    dsimp only
    rw [← rejected, Outcome.error_bind]

/-- What a request with the given plans comes to at a desk. -/
inductive ComesTo (desk : Desk) :
    Outcome (List AccountPlan) → Outcome (List LedgerEntry) → Desk → Prop where
  | carriedOut
      {plans : List AccountPlan}
      {entries : List LedgerEntry}
      {after : Desk}
      (left : IsLeftBy desk plans after)
      (posted : entries.map (·.posting) = plans.flatMap (·.postings)) :
      ComesTo desk (.ok plans) (.ok entries) after
  | refused {halt : Halt} : ComesTo desk (.error halt) (.error halt) desk

/-- What was reviewed and planned is carried out, however entries are recorded. -/
theorem ensures_carryingOut
    {Result : Type}
    {entriesOf : Result → List LedgerEntry}
    {record : List LedgerEntry → Attempt Unit}
    {finish : List LedgerEntry → Result}
    {reviewed : Reviewed}
    {plans : List AccountPlan}
    (records : Records ids record)
    (named : accounts ⊆ ids)
    (ready : IsReadyFor desk accounts)
    (accepted : engine.reviewOn desk.books kind accounts amount = .ok reviewed)
    (planned :
      AccountPlan.plans kind reviewed engine.scale options = .ok plans)
    (kept : ∀ entries, entriesOf (finish entries) = entries) :
    (do
      let entries ← stamp (plans.flatMap (·.postings))
      record entries
      saveAll (plans.map (·.account))
      notify entries
      return finish entries : Attempt Result).Ensures ids
      (fun outcome after =>
        ComesTo desk
          (engine.planOn desk.books ⟨kind, accounts, amount, options⟩)
          (outcome.map entriesOf) after)
      desk := by
  have plansFor : ArePlansFor accounts plans :=
    arePlansFor_of_plans (read_of_reviewOn accepted).1 planned
  have isPlanned :
      engine.planOn desk.books ⟨kind, accounts, amount, options⟩ = .ok plans :=
    Outcome.bind_eq_ok_iff.mpr ⟨reviewed, accepted, planned⟩
  apply ensures_writing records plansFor named ready
  intro entries after posted left
  rw [isPlanned, Except.map, kept]
  exact .carriedOut left posted

/-- An action over accounts comes to what the books of its desk make of it. -/
theorem ensures_bulk
    (named : accounts ⊆ ids)
    (ready : IsReadyFor desk accounts) :
    (engine.bulk kind accounts amount options).Ensures ids
      (fun outcome after =>
        ComesTo desk
          (engine.planOn desk.books ⟨kind, accounts, amount, options⟩)
          (outcome.map (·.entries)) after)
      desk := by
  rw [bulk, bulkSaving_eq]
  refine ensures_planning named ?_ ?_
  · intro reviewed plans accepted planned
    exact ensures_carryingOut records_recordAll named ready accepted planned
      fun _ => rfl
  · rintro halt refused
    rw [refused]
    exact .refused

/-- An action on one account comes to what the books of its desk make of it. -/
theorem ensures_single
    {account : AccountId}
    (named : [account] ⊆ ids)
    (ready : IsReadyFor desk [account]) :
    (engine.single kind account amount options).Ensures ids
      (fun outcome after =>
        ComesTo desk
          (engine.planOn desk.books ⟨kind, [account], amount, options⟩)
          (outcome.map (·.entries)) after)
      desk := by
  rw [single]
  refine ensures_planning named ?_ ?_
  · intro reviewed plans accepted planned
    have found := (read_of_reviewOn accepted).2 account
      (List.mem_singleton_self account)
    obtain ⟨saved, isSaved⟩ := exists_saved found plans
    simp only [isSaved]
    exact ensures_carryingOut records_recordEach named ready accepted planned
      fun _ => rfl
  · rintro halt refused
    rw [refused]
    exact .refused

end Engine

namespace Batch

open Engine

variable {engine : Engine} {ids : List AccountId} {desk : Desk}

/-- A request at a desk comes to what the books of the desk make of it. -/
theorem ensures_processOne
    {request : ActionRequest}
    (named : request.accounts ⊆ ids)
    (ready : IsReadyFor desk request.accounts) :
    (processOne engine request).Ensures ids
      (ComesTo desk (engine.planOn desk.books request)) desk := by
  rcases request with ⟨kind, accounts, amount, options⟩
  rw [processOne.eq_def]
  dsimp only
  split
  next account =>
    exact Attempt.ensures_map (ensures_single named ready)
  next =>
    exact Attempt.ensures_map (ensures_bulk named ready)

/-- What was told of a desk's books came out, for a number of identifiers. -/
inductive IsSettled
    {Result Story : Type}
    (story : Result → Story)
    (desk : Desk)
    (count : Nat) :
    Outcome (Story × Books) → Outcome Result → Desk → Prop where
  | settled
      {result : Result}
      {after : Desk}
      (nothing : after.drawn = [])
      (spent : desk.budget ≤ after.budget + count) :
      IsSettled story desk count (.ok (story result, after.books)) (.ok result)
        after
  | halted
      {halt : Halt}
      {after : Desk} :
      IsSettled story desk count (.error halt) (.error halt) after

namespace IsSettled

variable {Result Story : Type} {story : Result → Story} {count : Nat}
  {after : Desk}

/-- What came out was told. -/
theorem told_eq
    {told : Outcome (Story × Books)}
    {result : Result}
    (settled : IsSettled story desk count told (.ok result) after) :
    told = .ok (story result, after.books) := by
  cases settled with
  | settled => rfl

/-- What was told came out. -/
theorem exists_result
    {told : Story}
    {last : Books}
    {outcome : Outcome Result}
    (settled : IsSettled story desk count (.ok (told, last)) outcome after) :
    ∃ result, outcome = .ok result ∧ story result = told ∧ after.books = last := by
  cases settled with
  | settled => exact ⟨_, rfl, rfl, rfl⟩

end IsSettled

/-- A request whose refusal is kept comes to what is told of it. -/
theorem ensures_processKept
    {request : ActionRequest}
    (named : request.accounts ⊆ ids)
    (ready : IsReadyFor desk request.accounts) :
    (processKept engine request).Ensures ids
      (IsSettled Processed.told desk (4 * request.accounts.length)
        (engine.tell desk.books request))
      desk := by
  refine Procedure.ensures_bind (ensures_processOne named ready) ?_
  intro outcome after comes
  rw [Engine.tell]
  cases planned : engine.planOn desk.books request with
  | ok plans =>
      rw [planned] at comes
      cases comes with
      | @carriedOut _ entries _ left posted =>
          have few := (arePlansFor_of_planOn planned).few
          have spent := left.budget
          have kept :
              IsSettled Processed.told desk (4 * request.accounts.length)
                (.ok (Processed.told ⟨request, .applied entries⟩, after.books))
                (.ok ⟨request, .applied entries⟩) after :=
            .settled (left.drawn.trans ready.nothing) (by omega)
          rw [Processed.told, Verdict.answer, posted, left.books] at kept
          exact kept
  | error halt =>
      rw [planned] at comes
      cases comes with
      | refused =>
          cases halt with
          | failed failure =>
              have kept :
                  IsSettled Processed.told desk (4 * request.accounts.length)
                    (.ok (Processed.told ⟨request, .refused failure⟩, desk.books))
                    (.ok ⟨request, .refused failure⟩) desk :=
                .settled ready.nothing (Nat.le_add_right _ _)
              exact kept
          | overflow operation => exact .halted
          | endless => exact .halted

/-- A lane of requests comes to what is told of them one after another. -/
theorem ensures_processLane
    {lane : List ActionRequest}
    (named : ∀ request ∈ lane, request.accounts ⊆ ids)
    (ready : IsReadyFor desk (lane.flatMap (·.accounts))) :
    (processLane engine lane).Ensures ids
      (IsSettled (List.map Processed.told) desk
        (4 * (lane.flatMap (·.accounts)).length)
        (engine.tellAll desk.books lane))
      desk := by
  induction lane generalizing desk with
  | nil =>
      have settled :
          IsSettled (List.map Processed.told) desk 0
            (.ok (List.map Processed.told [], desk.books)) (.ok []) desk :=
        .settled ready.nothing (Nat.le_refl _)
      exact settled
  | cons request rest inductionHypothesis =>
      have allowed := ready.allowed
      rw [List.flatMap_cons, List.length_append] at allowed ⊢
      have first : IsReadyFor desk request.accounts :=
        ⟨ready.nothing, by omega⟩
      rw [processLane, List.mapM_cons, tellAll]
      refine Attempt.ensures_bind
        (ensures_processKept (named request List.mem_cons_self) first) ?_ ?_
      · intro processed between reached
        generalize engine.tell desk.books request = told at reached
        cases reached with
        | settled nothing spent =>
            have others : IsReadyFor between (rest.flatMap (·.accounts)) :=
              ⟨nothing, by omega⟩
            refine Attempt.ensures_bind
              (inductionHypothesis
                (fun other member => named other (List.mem_cons_of_mem _ member))
                others) ?_ ?_
            · intro results after later
              rw [Outcome.ok_bind]
              dsimp only
              generalize engine.tellAll between.books rest = tolds at later
              cases later with
              | settled nothingLeft spentLater =>
                  have settled :
                      IsSettled (List.map Processed.told) desk
                        (4 * (request.accounts.length +
                          (rest.flatMap (·.accounts)).length))
                        (.ok ((processed :: results).map Processed.told,
                          after.books))
                        (.ok (processed :: results)) after :=
                    .settled nothingLeft (by omega)
                  exact settled
            · intro halt after later
              rw [Outcome.ok_bind]
              dsimp only
              generalize engine.tellAll between.books rest = tolds at later
              cases later with
              | halted => exact .halted
      · intro halt after reached
        generalize engine.tell desk.books request = told at reached
        cases reached with
        | halted => exact .halted

end Batch

end PatronFees
