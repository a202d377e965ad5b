import PatronFees.Proofs.Batch.SideBySide
import PatronFees.Proofs.Engine.Handled
import PatronFees.Proofs.Engine.Journal

namespace PatronFees

/-!
# Batches that answer every request

A request is carried out as a call. While stores are in range every call ends
with an answer, so no lane ends before its last request, whether lanes are
carried out one after another or take turns, and no result of a lane is dropped.
-/

open Engine

/-- The call that carries out a request. -/
def ActionRequest.call (request : ActionRequest) : Call :=
  match request.accounts with
  | [account] => .single request.kind account request.amount request.options
  | accounts => .bulk request.kind accounts request.amount request.options

/-- Calls can lead to the office, from an office that has what was loaded. -/
def Office.IsReachable
    (scale : Nat)
    (loaded : AccountBook)
    (office : Office) : Prop :=
  ∃ entries, office.IsReachedFrom scale loaded entries

section Calls

variable {engine : Engine} {loaded : AccountBook} {office : Office}

/-- An office in which nothing was recorded is reachable from its accounts. -/
theorem Office.IsReachable.start
    {scale : Nat}
    (inRange : office.accounts.IsInRange scale)
    (recorded : office.ledger = Ledger.empty) :
    office.IsReachable scale office.accounts :=
  ⟨[], .start inRange recorded⟩

/-- A call from a reachable office ends with an answer and leads on. -/
theorem Office.IsReachable.perform
    (reachable : office.IsReachable engine.scale loaded)
    (inRange : loaded.IsInRange engine.scale)
    (call : Call) :
    (office.run (engine.perform call)).1.IsHandled ∧
      (office.run (engine.perform call)).2.IsReachable engine.scale loaded := by
  obtain ⟨entries, reached⟩ := reachable
  obtain ⟨owed, posted⟩ := reached.inRange inRange
  obtain ⟨added, onward, -⟩ := reached.perform inRange call
  exact ⟨isHandled_perform reached.recorded owed posted call, _, onward⟩

/-- Calls one after another lead on. -/
theorem Office.IsReachable.performAll
    (reachable : office.IsReachable engine.scale loaded)
    (inRange : loaded.IsInRange engine.scale)
    (calls : List Call) :
    (engine.performAll office calls).IsReachable engine.scale loaded := by
  induction calls generalizing office with
  | nil =>
      exact reachable
  | cons call rest inductionHypothesis =>
      exact inductionHypothesis (reachable.perform inRange call).2

/-- What is made of the result of an attempt changes nothing else. -/
theorem Office.run_map
    {First Second : Type}
    (office : Office)
    (attempt : Attempt First)
    (next : First → Second) :
    office.run (attempt >>= fun result => pure (next result)) =
      ((office.run attempt).1.map next, (office.run attempt).2) := by
  rcases ended : office.run attempt with ⟨halt | result, after⟩
  · exact Office.run_bind_error ended
  · exact Office.run_bind_ok ended

end Calls

namespace Batch

variable {engine : Engine} {loaded : AccountBook} {office : Office}

/-- Of what a call returns, a batch keeps the entries. -/
theorem run_keeping_entries
    {Result : Type}
    (office : Office)
    (action : Attempt Result)
    (receiptOf : Result → Receipt) :
    office.run (do return (receiptOf (← action)).entries) =
      ((office.run (do return receiptOf (← action))).1.map (·.entries),
        (office.run (do return receiptOf (← action))).2) := by
  rw [Office.run_map, Office.run_map]
  cases (office.run action).1 <;> rfl

/-- A request is carried out as its call. -/
theorem run_processOne
    (engine : Engine)
    (office : Office)
    (request : ActionRequest) :
    office.run (processOne engine request) =
      ((office.run (engine.perform request.call)).1.map (·.entries),
        (office.run (engine.perform request.call)).2) := by
  have several (accounts : List AccountId) :=
    run_keeping_entries office
      (engine.bulk request.kind accounts request.amount request.options)
      fun result => ⟨result.amount, result.remaining, result.entries⟩
  rcases request with ⟨kind, accounts, amount, options⟩
  match accounts with
  | [] =>
      exact several []
  | [account] =>
      exact run_keeping_entries office (engine.single kind account amount options)
        fun result => ⟨result.amount, result.remaining, result.entries⟩
  | first :: second :: rest =>
      exact several (first :: second :: rest)

/-- Keeping the refusal of a request changes nothing else. -/
theorem run_processKept
    (engine : Engine)
    (office : Office)
    (request : ActionRequest) :
    office.run (processKept engine request) =
      ((verdictOf (office.run (processOne engine request)).1).map
          fun verdict => ⟨request, verdict⟩,
        (office.run (processOne engine request)).2) :=
  Procedure.run_bind Office.answer _ _ office

/-- A request on reachable stores gets a verdict. -/
theorem exists_processKept
    (reachable : office.IsReachable engine.scale loaded)
    (inRange : loaded.IsInRange engine.scale)
    (request : ActionRequest) :
    ∃ verdict after,
      office.run (processKept engine request) = (.ok ⟨request, verdict⟩, after) ∧
        after.IsReachable engine.scale loaded := by
  obtain ⟨handled, onward⟩ := reachable.perform inRange request.call
  rw [run_processKept, run_processOne]
  generalize (office.run (engine.perform request.call)).1 = outcome at handled
  cases handled with
  | result receipt =>
      exact ⟨.applied receipt.entries, _, rfl, onward⟩
  | failure failure =>
      exact ⟨.refused failure, _, rfl, onward⟩

/-- A lane on reachable stores has a result for each of its requests. -/
theorem exists_processLane
    (reachable : office.IsReachable engine.scale loaded)
    (inRange : loaded.IsInRange engine.scale)
    (lane : List ActionRequest) :
    ∃ results after,
      office.run (processLane engine lane) = (.ok results, after) ∧
        results.map (·.request) = lane ∧
        after.IsReachable engine.scale loaded := by
  induction lane generalizing office with
  | nil =>
      exact ⟨[], office, rfl, rfl, reachable⟩
  | cons request rest inductionHypothesis =>
      obtain ⟨verdict, between, first, onward⟩ :=
        exists_processKept reachable inRange request
      obtain ⟨results, after, others, each, last⟩ := inductionHypothesis onward
      refine ⟨⟨request, verdict⟩ :: results, after, ?_, ?_, last⟩
      · rw [processLane] at others ⊢
        rw [List.mapM_cons, Office.run_bind_ok first, Office.run_bind_ok others]
        rfl
      · rw [List.map_cons, each]

/-- The requests of results, lane by lane. -/
def requestsOf (results : List (List Processed)) : List (List ActionRequest) :=
  results.map fun laneResults => laneResults.map (·.request)

/-- Lanes on reachable stores have results for all their requests. -/
theorem exists_processLanes
    (reachable : office.IsReachable engine.scale loaded)
    (inRange : loaded.IsInRange engine.scale)
    (lanes : List Lane) :
    ∃ results after,
      (processLanes engine lanes).run Office.answer office =
          (results.map Except.ok, after) ∧
        requestsOf results = (lanes.map fun lane => lane.map (·.request)) ∧
        after.IsReachable engine.scale loaded := by
  induction lanes generalizing office with
  | nil =>
      exact ⟨[], office, rfl, rfl, reachable⟩
  | cons lane rest inductionHypothesis =>
      obtain ⟨laneResults, between, first, each, onward⟩ :=
        exists_processLane reachable inRange (lane.map (·.request))
      obtain ⟨results, after, others, eachOther, last⟩ :=
        inductionHypothesis onward
      refine ⟨laneResults :: results, after, ?_, ?_, last⟩
      · have ran :
            (ExceptT.run (processLane engine (lane.map (·.request)))).run
                Office.answer office =
              (.ok laneResults, between) :=
          first
        rw [processLanes]
        change Procedure.run _ (Procedure.bind _ _) _ = _
        rw [Procedure.run_bind, ran]
        change Procedure.run _ (Procedure.bind _ _) _ = _
        rw [Procedure.run_bind, others]
        rfl
      · rw [requestsOf, List.map_cons, List.map_cons, each, ← eachOther]
        rfl

/-- Results of lanes that all ended with some are gathered without a report. -/
theorem run_gather
    (office : Office)
    (results : List (List Processed)) :
    office.run (gather (results.map Except.ok)) =
      (.ok results.flatten, office) := by
  induction results with
  | nil =>
      rfl
  | cons laneResults rest inductionHypothesis =>
      rw [List.map_cons, gather, Office.run_bind_ok inductionHypothesis]
      rfl

/-- A batch on reachable stores has one result for each of its requests. -/
theorem exists_process
    (reachable : office.IsReachable engine.scale loaded)
    (inRange : loaded.IsInRange engine.scale)
    (batch : List ActionRequest) :
    ∃ results after,
      office.run (process engine batch) = (.ok results, after) ∧
        results.map (·.request) = (partsOf batch).flatten ∧
        after.IsReachable engine.scale loaded := by
  obtain ⟨results, after, ran, each, onward⟩ :=
    exists_processLanes reachable inRange (Lane.ofBatch batch)
  refine ⟨results.flatten, after, ?_, ?_, onward⟩
  · calc
      office.run (process engine batch)
        = Office.run ((processLanes engine (Lane.ofBatch batch)).run
              Office.answer office).2
            (gather ((processLanes engine (Lane.ofBatch batch)).run
              Office.answer office).1) :=
          Procedure.run_bind Office.answer _ _ office
      _ = (.ok results.flatten, after) := by
          rw [ran, run_gather]
  · rw [List.map_flatten]
    exact congrArg List.flatten each

/-- The lane ended with a result for each of its requests, in their order. -/
def IsAnswered
    (lane : Lane)
    (outcome : Outcome (List Processed)) : Prop :=
  ∃ results : List Processed,
    outcome = .ok results ∧
      results.map (·.request) = lane.map (·.request)

/--
However the lanes of a batch take turns on reachable stores, those that all come
to their ends have results for all their requests.
-/
theorem isAnswered_inTurns
    (reachable : office.IsReachable engine.scale loaded)
    (inRange : loaded.IsInRange engine.scale)
    {batch : List ActionRequest}
    (fresh : office.DrawsFresh (4 * (batch.flatMap (·.accounts)).length))
    {schedule : List Nat}
    {outcomes : List (Outcome (List Processed))}
    (ended : (inTurns engine batch office schedule).1 = outcomes.map .done) :
    List.Forall₂ IsAnswered (Lane.ofBatch batch) outcomes := by
  obtain ⟨results, after, ran, -, -⟩ :=
    exists_processLane reachable inRange batch
  obtain ⟨entries, reached⟩ := reachable
  have recorded : office.ledger.IsRecorded := by
    rw [reached.recorded]
    exact Ledger.isRecorded_ofEntries entries
  have inOrder : (office.run (processLane engine batch)).1 = .ok results :=
    congrArg Prod.fst ran
  obtain ⟨last, tells, -⟩ := told_of_run recorded fresh inOrder
  obtain ⟨later, furtherOn⟩ :=
    (hosts_lanes engine recorded fresh).takeTurns schedule
  rw [← lanesOf_eq] at furtherOn
  have done := furtherOn.isDone ended
  rw [partsOf, List.map_map, List.map_map, List.forall₂_map_left_iff] at done
  have each := (List.forall₂_and_left _ _).mpr ⟨fun _ isLane => isLane, done⟩
  refine each.imp ?_
  rintro lane outcome ⟨isLane, desk, settled, -⟩
  obtain ⟨laneTolds, laneLast, laneTells, -, -⟩ := tellAll_lane isLane tells
  change IsSettled _ _ _ (engine.tellAll office.books _) _ _ at settled
  rw [laneTells] at settled
  obtain ⟨laneResults, rfl, rfl, -⟩ := settled.exists_result
  refine ⟨laneResults, rfl, ?_⟩
  rw [← map_request_of_tellAll laneTells, List.map_map]
  rfl

end Batch

end PatronFees
