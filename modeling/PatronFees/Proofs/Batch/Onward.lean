import PatronFees.Proofs.Batch.EachAccount
import PatronFees.Proofs.Batch.Notices
import PatronFees.Proofs.Batch.SideBySide
import PatronFees.Proofs.Ledger.AppendOnly
import Mathlib.Algebra.Order.Ring.Nat

namespace PatronFees

/-!
# From one batch to the next

What is told of the requests of a batch tells all that later batches go by. In
whatever turns its lanes were carried out, the office then has the books that are
told, account by account; it has sent the notices that the results tell of; and
the identifiers that are left are as fresh as they were.
-/

namespace Procedure

variable {State Result : Type}
  {answer : (request : Request) → State → request.Reply × State}

/-- What every answer keeps is kept by turns. -/
theorem takeTurns_keeps
    {kept : State → Prop}
    (keeps : ∀ request state, kept state → kept (answer request state).2)
    {procedures : List (Procedure Result)}
    {state : State}
    (holds : kept state)
    (schedule : List Nat) :
    kept (takeTurns answer schedule (procedures, state)).2 := by
  induction schedule generalizing procedures state with
  | nil =>
      exact holds
  | cons index rest inductionHypothesis =>
      rw [takeTurns, List.foldl_cons, takeTurn]
      split
      next request next _ =>
        exact inductionHypothesis (keeps request state holds)
      next => exact inductionHypothesis holds
      next => exact inductionHypothesis holds

/-- What every answer keeps is kept by a run. -/
theorem run_keeps
    {kept : State → Prop}
    (keeps : ∀ request state, kept state → kept (answer request state).2)
    (procedure : Procedure Result)
    {state : State}
    (holds : kept state) :
    kept (procedure.run answer state).2 := by
  induction procedure generalizing state with
  | done result =>
      exact holds
  | ask request next inductionHypothesis =>
      exact inductionHypothesis _ (keeps request state holds)

/-- One that is done takes no turn. -/
theorem takeTurns_concat_done
    (result : Result)
    (schedule : List Nat)
    (procedures : List (Procedure Result))
    (state : State) :
    takeTurns answer schedule (procedures ++ [.done result], state) =
      ((takeTurns answer schedule (procedures, state)).1 ++ [.done result],
        (takeTurns answer schedule (procedures, state)).2) := by
  induction schedule generalizing procedures state with
  | nil =>
      rfl
  | cons index rest inductionHypothesis =>
      have first :
          takeTurn answer (procedures ++ [.done result], state) index =
            ((takeTurn answer (procedures, state) index).1 ++ [.done result],
              (takeTurn answer (procedures, state) index).2) := by
        rcases Nat.lt_or_ge index procedures.length with inside | outside
        · simp only [takeTurn, List.getElem?_append_left inside]
          split <;> simp_all
        · have none : procedures[index]? = none :=
            List.getElem?_eq_none outside
          simp only [takeTurn, none, List.getElem?_append_right outside]
          cases index - procedures.length <;> rfl
      simp only [takeTurns, List.foldl_cons] at inductionHypothesis ⊢
      rw [first, inductionHypothesis]

end Procedure

namespace Office

variable {office : Office}

/-- Answers keep the accounts in order. -/
theorem isOrdered_answer
    (request : Request)
    (office : Office)
    (ordered : office.accounts.IsOrdered) :
    (office.answer request).2.accounts.IsOrdered := by
  cases request with
  | recordEntry entry =>
      rw [answer, recordEntry]
      split <;> exact ordered
  | recordBatch entries =>
      rw [answer, recordBatch]
      split <;> exact ordered
  | saveAccount account =>
      exact ordered.save account
  | loadAccounts | readHistory | drawStamp | sendNotice | report =>
      exact ordered

/-- Where more identifiers are kept apart, fewer are fresh. -/
theorem KeepsApart.drawsFresh
    {drawn : List EntryId}
    {budget rest : Nat}
    (apart : office.KeepsApart drawn budget)
    (left : rest ≤ budget) :
    office.DrawsFresh rest where
  distinct := by
    have among : (office.upcoming rest).Sublist (office.upcoming budget) :=
      (List.range'_sublist_right.mpr left).map _
    exact among.nodup (List.Nodup.of_append_right apart.distinct)
  unused := by
    intro number inRange inUse
    have upcoming : EntryId.ofNat number ∈ office.upcoming budget :=
      List.mem_map_of_mem ((List.range'_sublist_right.mpr left).subset inRange)
    exact apart.unused (List.mem_append_right _ upcoming) inUse

/-- Where many identifiers are fresh, fewer are. -/
theorem DrawsFresh.of_le
    {count rest : Nat}
    (fresh : office.DrawsFresh count)
    (left : rest ≤ count) :
    office.DrawsFresh rest :=
  fresh.keepsApart.drawsFresh left

/-- The office has the books of an account that it had before. -/
theorem SameAt.sameOn
    {id : AccountId}
    {after : Office}
    (same : office.SameAt id after)
    (recorded : office.ledger.IsRecorded)
    (recordedAfter : after.ledger.IsRecorded) :
    Books.SameOn [id] after.books office.books where
  account_eq := by
    intro other member
    rw [List.mem_singleton.mp member]
    exact same.account_eq
  postings_eq := by
    have one (books : Books) :
        books.postings.filter ([id].contains ·.account) = books.historyOf id := by
      rw [Books.historyOf]
      apply List.filter_congr
      intro posting _
      rw [Bool.eq_iff_iff, beq_iff_eq, List.contains_iff_mem, List.mem_singleton]
    rw [one, one, ← map_posting_historyOf recordedAfter,
      ← map_posting_historyOf recorded, same.history_eq]

end Office

namespace Engine

/-- Requests change nothing on accounts that none of them names. -/
theorem sameOn_of_tellAll
    {engine : Engine}
    {ids : List AccountId}
    {books after : Books}
    {requests : List ActionRequest}
    {tolds : List Told}
    (apart : ids.Disjoint (requests.flatMap (·.accounts)))
    (tells : engine.tellAll books requests = .ok (tolds, after)) :
    Books.SameOn ids books after := by
  induction requests generalizing books tolds with
  | nil =>
      obtain ⟨-, rfl⟩ := Prod.mk.inj (Except.ok.inj tells)
      exact .refl ids books
  | cons request rest inductionHypothesis =>
      obtain ⟨told, between, others, first, later, -⟩ := tellAll_cons_eq_ok.mp tells
      rw [List.flatMap_cons, List.disjoint_append_right] at apart
      exact (sameOn_of_tell apart.1 first).trans
        (inductionHypothesis apart.2 later)

end Engine

namespace Batch

open Engine

variable {engine : Engine} {office after : Office} {batch : List ActionRequest}
  {results : List Processed} {tolds : List Told} {last : Books} {rest : Nat}

/-- Accounts that are named are as told, and all others stay as they are. -/
theorem sameEach_of_named
    (recorded : office.ledger.IsRecorded)
    (recordedAfter : after.ledger.IsRecorded)
    (tells : engine.tellAll office.books batch = .ok (tolds, last))
    (named :
      ∀ id ∈ batch.flatMap (·.accounts), Books.SameOn [id] after.books last)
    (untouched : ∀ id ∉ batch.flatMap (·.accounts), office.SameAt id after) :
    after.books.SameEach last := by
  intro id
  by_cases member : id ∈ batch.flatMap (·.accounts)
  · exact named id member
  · exact ((untouched id member).sameOn recorded recordedAfter).trans
      (sameOn_of_tellAll (List.singleton_disjoint.mpr member) tells)

/-- What a batch leads on to where lanes took turns, told without the stamps. -/
structure LeadsOn
    (office : Office)
    (tolds : List Told)
    (last : Books)
    (rest : Nat)
    (laneResults : List (List Processed))
    (after : Office) : Prop where
  /-- Every request has its result, in some order. -/
  results : (laneResults.flatten.map Processed.told).Perm tolds
  books : after.books.SameEach last
  recorded : after.ledger.IsRecorded
  fresh : after.DrawsFresh rest
  sent : after.sent = office.sent + noticesAll tolds

/-- One who has nothing to do and keeps identifiers for later. -/
def idler (rest : Nat) : Worker (Outcome (List Processed)) where
  duty :=
    { accounts := []
      goal := fun _ desk => desk.budget = rest }
  desk := ⟨⟨.empty, []⟩, [], rest⟩
  procedure := .done (.ok [])

/-- The workers on parts of a batch, and one who keeps the identifiers left. -/
def crew
    (engine : Engine)
    (office : Office)
    (parts : List (List ActionRequest))
    (rest : Nat) :
    List (Worker (Outcome (List Processed))) :=
  parts.map (worker engine office) ++ [idler rest]

section Crew

variable {parts : List (List ActionRequest)}

theorem hosts_crew
    (recorded : office.ledger.IsRecorded)
    (fresh :
      office.DrawsFresh (4 * (parts.flatten.flatMap (·.accounts)).length + rest))
    (elsewhere :
      parts.Pairwise fun first second =>
        (first.flatMap (·.accounts)).Disjoint (second.flatMap (·.accounts))) :
    office.Hosts (crew engine office parts rest) := by
  have hosts : office.Hosts (parts.map (worker engine office)) :=
    hosts_workers recorded (fresh.of_le (Nat.le_add_right _ _)) elsewhere
  refine
    { recorded := recorded
      onCourse := ?_
      elsewhere := ?_
      apart := ?_ }
  · intro one member
    rcases List.mem_append.mp member with among | isIdler
    · exact hosts.onCourse one among
    · rw [List.mem_singleton.mp isIdler]
      exact ⟨⟨nofun, by simp [idler]⟩, rfl⟩
  · refine List.pairwise_append.mpr
      ⟨hosts.elsewhere, List.pairwise_singleton _ _, ?_⟩
    intro one _ other isIdler
    rw [List.mem_singleton.mp isIdler]
    exact List.disjoint_nil_right _
  · have nothing : (crew engine office parts rest).flatMap (·.desk.drawn) = [] := by
      apply List.flatMap_eq_nil_iff.mpr
      intro one member
      rcases List.mem_append.mp member with among | isIdler
      · obtain ⟨requests, -, rfl⟩ := List.mem_map.mp among
        rfl
      · rw [List.mem_singleton.mp isIdler]
        rfl
    have budgets :
        ((crew engine office parts rest).map (·.desk.budget)).sum =
          4 * (parts.flatten.flatMap (·.accounts)).length + rest := by
      rw [crew, List.map_append, List.sum_append, sum_budgets]
      rfl
    rw [nothing, budgets]
    exact fresh.keepsApart

/-- The crew makes turns with the procedures of its workers alone. -/
theorem takeTurns_crew
    (hosts : office.Hosts (crew engine office parts rest))
    (schedule : List Nat) :
    let turns :=
      Procedure.takeTurns Office.answer schedule
        ((parts.map (worker engine office)).map (·.procedure), office)
    ∃ later,
      Worker.AreFurtherOn office (crew engine office parts rest)
        (turns.1 ++ [.done (.ok [])], turns.2) later := by
  intro turns
  obtain ⟨later, furtherOn⟩ := hosts.takeTurns schedule
  have together :
      (crew engine office parts rest).map (·.procedure) =
        (parts.map (worker engine office)).map (·.procedure) ++
          [.done (.ok [])] := by
    rw [crew, List.map_append]
    rfl
  rw [together, Procedure.takeTurns_concat_done] at furtherOn
  exact ⟨later, furtherOn⟩

/-- Where all have ended, what the idler kept is still fresh. -/
theorem drawsFresh_of_ended
    {turns : List (Procedure (Outcome (List Processed))) × Office}
    {later : List (Worker (Outcome (List Processed)))}
    {outcomes : List (Outcome (List Processed))}
    (furtherOn :
      Worker.AreFurtherOn office (crew engine office parts rest)
        (turns.1 ++ [.done (.ok [])], turns.2) later)
    (ended : turns.1 = outcomes.map .done) :
    turns.2.DrawsFresh rest := by
  have isDuty : (idler rest).duty ∈ later.map (·.duty) := by
    rw [furtherOn.duties]
    exact List.mem_map_of_mem (List.mem_append_right _ (List.mem_singleton_self _))
  obtain ⟨one, among, same⟩ := List.mem_map.mp isDuty
  have isEnd : ∃ outcome, one.procedure = .done outcome := by
    have procedures :
        turns.1 ++ [.done (.ok [])] = later.map (·.procedure) :=
      furtherOn.procedures
    have inTurns : one.procedure ∈ turns.1 ++ [.done (.ok [])] := by
      rw [procedures]
      exact List.mem_map_of_mem among
    rcases List.mem_append.mp inTurns with isLane | isIdler
    · rw [ended] at isLane
      obtain ⟨outcome, -, isDone⟩ := List.mem_map.mp isLane
      exact ⟨outcome, isDone.symm⟩
    · exact ⟨_, List.mem_singleton.mp isIdler⟩
  obtain ⟨outcome, isDone⟩ := isEnd
  have ensures := (furtherOn.hosts.onCourse one among).ensures
  rw [same, isDone] at ensures
  have kept : one.desk.budget = rest := ensures
  apply furtherOn.hosts.apart.drawsFresh
  rw [← kept]
  exact List.le_sum_of_mem (List.mem_map_of_mem among)

end Crew

/-- A batch that is carried out in order takes turns alone. -/
theorem exists_turns_alone
    (engine : Engine)
    (office : Office)
    (batch : List ActionRequest) :
    ∃ schedule,
      Procedure.takeTurns Office.answer schedule
          (([batch].map (worker engine office)).map (·.procedure), office) =
        ([.done (office.run (processLane engine batch)).1],
          (office.run (processLane engine batch)).2) :=
  Procedure.exists_takeTurns_run Office.answer [] [] _ office

/-- One after another, the requests of a batch lead on to what is told of them. -/
theorem leadsOn_run
    (recorded : office.ledger.IsRecorded)
    (fresh :
      office.DrawsFresh (4 * (batch.flatMap (·.accounts)).length + rest))
    (inOrder : (office.run (processLane engine batch)).1 = .ok results) :
    ∃ last,
      engine.tellAll office.books batch = .ok (results.map Processed.told, last) ∧
        LeadsOn office (results.map Processed.told) last rest [results]
          (office.run (processLane engine batch)).2 := by
  obtain ⟨last, tells, same, recordedAfter, untouched⟩ :=
    told_of_run recorded (fresh.of_le (Nat.le_add_right _ _)) inOrder
  obtain ⟨schedule, ran⟩ := exists_turns_alone engine office batch
  have oneLane : [batch].flatten = batch := List.flatten_singleton
  obtain ⟨later, furtherOn⟩ :=
    takeTurns_crew
      (hosts_crew recorded (by rwa [oneLane]) (List.pairwise_singleton _ _))
      schedule
  rw [ran] at furtherOn
  obtain ⟨count, sends, counted⟩ :=
    Office.sent_run (sends_processLane batch 0) office
  rw [sends results inOrder] at counted
  refine ⟨last, tells, ?_, ?_, recordedAfter, ?_, ?_⟩
  · rw [List.flatten_singleton]
  · exact sameEach_of_named recorded recordedAfter tells
      (fun id member => same.of_mem member) untouched
  · exact drawsFresh_of_ended furtherOn List.map_singleton.symm
  · change Office.sent (office.run (processLane engine batch)).2 + 0 = _ at counted
    omega

/-- What is told of the requests of a batch is what they come to. -/
theorem exists_results_of_told
    (recorded : office.ledger.IsRecorded)
    (fresh : office.DrawsFresh (4 * (batch.flatMap (·.accounts)).length))
    (tells : engine.tellAll office.books batch = .ok (tolds, last)) :
    ∃ results,
      (office.run (processLane engine batch)).1 = .ok results ∧
        results.map Processed.told = tolds := by
  have oneLane : [batch].flatten = batch := List.flatten_singleton
  have hosts : office.Hosts ([batch].map (worker engine office)) :=
    hosts_workers recorded (by rwa [oneLane]) (List.pairwise_singleton _ _)
  obtain ⟨schedule, ran⟩ := exists_turns_alone engine office batch
  obtain ⟨later, furtherOn⟩ := hosts.takeTurns schedule
  rw [ran] at furtherOn
  obtain ⟨desk, reached, -⟩ :=
    (List.forall₂_cons.mp (furtherOn.isDone List.map_singleton.symm)).1
  change IsSettled _ _ _ (engine.tellAll office.books batch) _ _ at reached
  rw [tells] at reached
  obtain ⟨results, ended, told, -⟩ := reached.exists_result
  exact ⟨results, ended, told⟩

/-- A lane ended with results for what is told at the positions of its requests. -/
def IsToldAs
    (tolds : List Told)
    (lane : Lane)
    (outcome : Outcome (List Processed)) : Prop :=
  ∃ results : List Processed,
    outcome = .ok results ∧
      results.map (fun processed => some processed.told) =
        lane.map fun one => tolds[one.position]?

/-- A lane that is done ended as told, and its accounts have the books told. -/
theorem isToldAs_of_isDone
    {lane : Lane}
    {outcome : Outcome (List Processed)}
    (isLane : lane ∈ Lane.ofBatch batch)
    (tells : engine.tellAll office.books batch = .ok (tolds, last))
    (done :
      (worker engine office (lane.map (·.request))).duty.IsDone after outcome) :
    IsToldAs tolds lane outcome ∧
      Books.SameOn (lane.flatMap (·.request.accounts)) after.books last := by
  obtain ⟨laneTolds, laneLast, laneTells, listed, sameLast⟩ :=
    tellAll_lane isLane tells
  obtain ⟨desk, reached, same⟩ := done
  change IsSettled _ _ _ (engine.tellAll office.books _) _ _ at reached
  rw [laneTells] at reached
  obtain ⟨laneResults, rfl, rfl, rfl⟩ := reached.exists_result
  change Books.SameOn ((lane.map (·.request)).flatMap (·.accounts)) _ _ at same
  rw [List.flatMap_map] at same
  refine ⟨⟨laneResults, rfl, ?_⟩, same.trans sameLast.symm⟩
  rw [listed, List.map_map]
  rfl

/-- Lanes that all ended as told have their results together. -/
theorem exists_results
    {lanes : List Lane}
    {outcomes : List (Outcome (List Processed))}
    (told : List.Forall₂ (IsToldAs tolds) lanes outcomes) :
    ∃ results : List (List Processed),
      outcomes = results.map .ok ∧
        results.flatten.map (fun processed => some processed.told) =
          lanes.flatten.map fun one => tolds[one.position]? := by
  induction told with
  | nil =>
      exact ⟨[], rfl, rfl⟩
  | cons first rest inductionHypothesis =>
      obtain ⟨laneResults, rfl, here⟩ := first
      obtain ⟨results, rfl, there⟩ := inductionHypothesis
      refine ⟨laneResults :: results, rfl, ?_⟩
      rw [List.flatten_cons, List.flatten_cons, List.map_append, List.map_append,
        here, there]

/-- What is told at the positions of all lanes is what is told of the batch. -/
theorem tolds_perm
    (each : tolds.length = batch.length)
    {told : List Told}
    (listed :
      told.map some =
        (Lane.ofBatch batch).flatten.map fun one => tolds[one.position]?) :
    told.Perm tolds := by
  have all :=
    (Lane.divide_ofBatch batch).all.map
      fun one : PlacedRequest => tolds[one.position]?
  rw [← listed, map_lookUp_placedBatch each] at all
  have unpacked (some : List Told) :
      (some.map Option.some).filterMap id = some := by
    rw [List.filterMap_map]
    exact List.filterMap_some
  have same := all.filterMap id
  rwa [unpacked, unpacked] at same

/-- The lanes that took turns have sent what their results tell of. -/
theorem sent_inTurns
    {schedule : List Nat}
    {laneResults : List (List Processed)}
    (ended :
      (inTurns engine batch office schedule).1 =
        (laneResults.map Except.ok).map .done) :
    (inTurns engine batch office schedule).2.sent =
      office.sent + noticesAll (laneResults.flatten.map Processed.told) := by
  let senders : List (Office.Sender (Outcome (List Processed))) :=
    (lanesOf engine batch).map fun procedure => (procedure, 0)
  have sends : ∀ one ∈ senders, one.1.Sends (HasSent 0) one.2 := by
    intro one member
    obtain ⟨procedure, isLane, rfl⟩ := List.mem_map.mp member
    obtain ⟨lane, -, rfl⟩ := List.mem_map.mp isLane
    exact sends_processLane _ 0
  have procedures : senders.map Prod.fst = lanesOf engine batch := by
    rw [List.map_map]
    exact List.map_id _
  have nothing : (senders.map Prod.snd).sum = 0 := by
    rw [List.map_map]
    apply List.sum_eq_zero
    intro count member
    obtain ⟨_, -, rfl⟩ := List.mem_map.mp member
    rfl
  obtain ⟨later, last, counted, sum⟩ := Office.sent_takeTurns sends office schedule
  rw [procedures] at last sum
  rw [nothing, Nat.add_zero, sum_counted counted (last.symm.trans ended)] at sum
  exact sum

/-- The crew of a batch further on, and all lanes at their ends. -/
theorem isDone_lanes
    {turns : List (Procedure (Outcome (List Processed))) × Office}
    {later : List (Worker (Outcome (List Processed)))}
    {outcomes : List (Outcome (List Processed))}
    (furtherOn :
      Worker.AreFurtherOn office (crew engine office (partsOf batch) rest)
        (turns.1 ++ [.done (.ok [])], turns.2) later)
    (ended : turns.1 = outcomes.map .done) :
    List.Forall₂
      (fun lane outcome =>
        lane ∈ Lane.ofBatch batch ∧
          (worker engine office (lane.map (·.request))).duty.IsDone turns.2
            outcome)
      (Lane.ofBatch batch) outcomes := by
  have allEnded :
      turns.1 ++ [.done (.ok [])] = (outcomes ++ [Except.ok []]).map .done := by
    rw [ended, List.map_append]
    rfl
  have done := furtherOn.isDone allEnded
  have sameLength := done.length_eq
  rw [crew, List.map_append] at done
  have ofLanes := List.forall₂_take_append _ _ _ done
  have count :
      outcomes.length = (((partsOf batch).map (worker engine office)).map
        (·.duty)).length := by
    simpa [crew] using sameLength.symm
  rw [count, List.take_left, partsOf, List.map_map, List.map_map,
    List.forall₂_map_left_iff] at ofLanes
  exact (List.forall₂_and_left _ _).mpr ⟨fun _ isLane => isLane, ofLanes⟩

/-- In whatever turns the lanes of a batch are carried out, they lead on. -/
theorem leadsOn_inTurns
    (recorded : office.ledger.IsRecorded)
    (fresh :
      office.DrawsFresh (4 * (batch.flatMap (·.accounts)).length + rest))
    (tells : engine.tellAll office.books batch = .ok (tolds, last))
    {schedule : List Nat}
    {outcomes : List (Outcome (List Processed))}
    (ended : (inTurns engine batch office schedule).1 = outcomes.map .done) :
    ∃ laneResults : List (List Processed),
      outcomes = laneResults.map Except.ok ∧
        LeadsOn office tolds last rest laneResults
          (inTurns engine batch office schedule).2 := by
  have all := (flatten_partsOf_perm batch).flatMap_right (·.accounts)
  have hosts : office.Hosts (crew engine office (partsOf batch) rest) :=
    hosts_crew recorded (by rwa [all.length_eq]) (pairwise_disjoint_partsOf batch)
  obtain ⟨later, furtherOn⟩ := takeTurns_crew hosts schedule
  rw [← lanesOf_eq] at furtherOn
  have recordedAfter := furtherOn.hosts.recorded
  have freshAfter := drawsFresh_of_ended furtherOn ended
  have each :=
    (isDone_lanes furtherOn ended).imp fun lane outcome ⟨isLane, isDone⟩ =>
      isToldAs_of_isDone isLane tells isDone
  obtain ⟨laneResults, rfl, listed⟩ := exists_results (each.imp fun _ _ both => both.1)
  have count := congrArg List.length (map_request_of_tellAll tells)
  rw [List.length_map] at count
  have permuted :
      (laneResults.flatten.map Processed.told).Perm tolds := by
    apply tolds_perm count
    rw [List.map_map]
    exact listed
  refine ⟨laneResults, rfl, permuted, ?_, recordedAfter, freshAfter, ?_⟩
  · apply sameEach_of_named recorded recordedAfter tells
    · intro id member
      obtain ⟨lane, isLane, here⟩ := exists_lane_of_mem member
      obtain ⟨outcome, -, -, same⟩ := exists_of_forall₂ (.flip each) isLane
      exact same.of_mem here
    · intro id outside
      apply furtherOn.unchanged id
      intro one member here
      rcases List.mem_append.mp member with among | isIdler
      · obtain ⟨requests, isPart, rfl⟩ := List.mem_map.mp among
        obtain ⟨request, inside, isNamed⟩ := List.mem_flatMap.mp here
        rw [← all.mem_iff] at outside
        exact outside (List.mem_flatMap.mpr
          ⟨request, List.mem_flatten.mpr ⟨requests, isPart, inside⟩, isNamed⟩)
      · rw [List.mem_singleton.mp isIdler] at here
        cases here
  · rw [sent_inTurns ended, noticesAll_perm permuted]

end Batch

end PatronFees
