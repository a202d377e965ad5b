import PatronFees.Proofs.Run.AnyTurns
import PatronFees.Proofs.Table.Accounts

namespace PatronFees

/-!
# Lanes in a row

Carried out one lane after another, a batch comes to what its requests come to in
a row, those of the first lane first. So does a run while all its rows become
requests and all its requests are applied.
-/

namespace TableReader

/-- The header is text, and each row that is left becomes one of the values. -/
structure IsClean
    {Value : Type}
    (format : TableFormat Value)
    (values : List Value)
    (reader : TableReader) : Prop where
  named : reader.header ≠ .unreadable
  outcomes : reader.outcomes format = values.map .ok

namespace IsClean

variable {Value : Type} {format : TableFormat Value} {reader : TableReader}
  {values : List Value}

theorem values_eq
    (clean : reader.IsClean format values) :
    reader.values format = values := by
  rw [TableReader.values, clean.outcomes, gather_ok]

theorem length_rows
    (clean : reader.IsClean format values) :
    reader.rows.length = values.length := by
  rw [← length_outcomes format, clean.outcomes, List.length_map]

theorem skip
    (clean : reader.IsClean format values)
    (size : Nat) :
    (reader.skip size).IsClean format (values.drop size) where
  named := clean.named
  outcomes := by
    rw [outcomes_skip, clean.outcomes, List.map_drop]

theorem readBatch_eq
    (clean : reader.IsClean format values)
    (size : Nat) :
    reader.readBatch format size = ⟨values.take size, [], reader.skip size⟩ := by
  rw [TableReader.readBatch_eq _ clean.named, clean.outcomes, ← List.map_take,
    gather_ok]

theorem readAll_eq
    {size : Nat}
    (clean : reader.IsClean format values)
    (positive : 0 < size) :
    reader.readAll format size =
      .ok ⟨values, [], reader.skip reader.rows.length⟩ := by
  rw [TableReader.readAll_eq _ clean.named positive, clean.outcomes, gather_ok]

end IsClean

end TableReader

namespace Batch

open Engine

variable {engine : Engine} {office after : Office} {results : List Processed}

/-- Requests in a row that have results have those of the first and of the others. -/
theorem run_processLane_append
    {earlier later : List ActionRequest}
    (ran :
      office.run (processLane engine (earlier ++ later)) = (.ok results, after)) :
    ∃ first others between,
      office.run (processLane engine earlier) = (.ok first, between) ∧
        between.run (processLane engine later) = (.ok others, after) ∧
        results = first ++ others := by
  rw [processLane, List.mapM_append] at ran
  rcases here : office.run (processLane engine earlier) with
    ⟨halt | first, between⟩
  · rw [processLane] at here
    rw [Office.run_bind_error here] at ran
    cases ran
  · rw [processLane] at here
    rw [Office.run_bind_ok here] at ran
    rcases there : between.run (processLane engine later) with
      ⟨halt | others, last⟩
    · rw [processLane] at there
      rw [Office.run_bind_error there] at ran
      cases ran
    · rw [processLane] at there
      rw [Office.run_bind_ok there] at ran
      obtain ⟨same, rfl⟩ := Prod.mk.inj ran
      exact ⟨first, others, between, rfl, there, (Except.ok.inj same).symm⟩

/-- Lanes whose requests in a row have results have these results. -/
theorem run_processLanes_of_flatten
    {lanes : List Lane}
    (ran :
      office.run
          (processLane engine (lanes.map fun lane => lane.map (·.request)).flatten) =
        (.ok results, after)) :
    ∃ laneResults : List (List Processed),
      (processLanes engine lanes).run Office.answer office =
          (laneResults.map Except.ok, after) ∧
        laneResults.flatten = results := by
  induction lanes generalizing office results with
  | nil =>
      obtain ⟨same, rfl⟩ := Prod.mk.inj ran
      exact ⟨[], rfl, Except.ok.inj same⟩
  | cons lane rest inductionHypothesis =>
      rw [List.map_cons, List.flatten_cons] at ran
      obtain ⟨first, others, between, here, there, rfl⟩ := run_processLane_append ran
      obtain ⟨laneResults, onward, rfl⟩ := inductionHypothesis there
      have alone :
          (ExceptT.run (processLane engine (lane.map (·.request)))).run
              Office.answer office =
            (.ok first, between) :=
        here
      refine ⟨first :: laneResults, ?_, rfl⟩
      rw [processLanes]
      change Procedure.run _ (Procedure.bind _ _) _ = _
      rw [Procedure.run_bind, alone]
      change Procedure.run _ (Procedure.bind _ _) _ = _
      rw [Procedure.run_bind, onward]
      rfl

/-- A batch whose requests have results lane by lane in a row has these results. -/
theorem run_process_of_flatten
    {batch : List ActionRequest}
    (ran :
      office.run (processLane engine (partsOf batch).flatten) =
        (.ok results, after)) :
    office.run (process engine batch) = (.ok results, after) := by
  obtain ⟨laneResults, processed, rfl⟩ := run_processLanes_of_flatten ran
  calc
    office.run (process engine batch)
      = Office.run ((processLanes engine (Lane.ofBatch batch)).run
            Office.answer office).2
          (gather ((processLanes engine (Lane.ofBatch batch)).run
            Office.answer office).1) :=
        Procedure.run_bind Office.answer _ _ office
    _ = (.ok laneResults.flatten, after) := by
        rw [processed, run_gather]

/-- Requests in a row come to results that tell which of them are applied. -/
theorem exists_results_applied
    {engine : Engine}
    {office : Office}
    {requests : List ActionRequest}
    {applied : List Bool}
    (recorded : office.ledger.IsRecorded)
    (fresh : office.DrawsFresh (4 * (requests.flatMap (·.accounts)).length))
    (told :
      (engine.tellAll office.books requests).map
          (fun all => all.1.map (·.answer.isOk)) =
        .ok applied) :
    ∃ results after,
      office.run (processLane engine requests) = (.ok results, after) ∧
        results.map (·.told.answer.isOk) = applied := by
  cases tells : engine.tellAll office.books requests with
  | error halt =>
      rw [tells] at told
      cases told
  | ok all =>
      obtain ⟨tolds, last⟩ := all
      rw [tells] at told
      obtain ⟨results, ran, rfl⟩ := exists_results_of_told recorded fresh tells
      refine ⟨results, _, Prod.ext ran rfl, ?_⟩
      have same : (results.map Processed.told).map (·.answer.isOk) = applied :=
        Except.ok.inj told
      rwa [List.map_map] at same

end Batch

namespace Run

open Batch

/-- Results that were all applied report no refusal. -/
theorem filterMap_refusal_eq_nil
    {results : List Processed}
    (applied : ∀ processed ∈ results, processed.told.answer.isOk = true) :
    results.filterMap Processed.refusal? = [] := by
  rw [List.filterMap_eq_nil_iff]
  intro processed member
  have isApplied := applied processed member
  rcases processed with ⟨request, entries | failure⟩
  · rfl
  · cases isApplied

/-- The requests as batches of a size carry them out, lane by lane. -/
def inLanes
    (size : Nat)
    (requests : List ActionRequest) : List ActionRequest :=
  if size = 0 ∨ requests = [] then
    []
  else
    (partsOf (requests.take size)).flatten ++ inLanes size (requests.drop size)
termination_by requests.length
decreasing_by
  rename_i some
  have any := List.length_pos_of_ne_nil fun none => some (.inr none)
  have positive : size ≠ 0 := fun none => some (.inl none)
  rw [List.length_drop]
  omega

section Clean

variable {engine : Engine} {office between after : Office} {size : Nat}
  {reader : TableReader} {requests : List ActionRequest}
  {results others : List Processed}

/-- Where no request is left there is no result. -/
theorem run_carryOut_nil
    (clean : reader.IsClean TableFormat.actions [])
    (office : Office) :
    office.run (carryOut engine size reader) = (.ok [], office) := by
  have none : (reader.skip size).rowsRead = reader.rowsRead := by
    simp [TableReader.skip, clean.length_rows]
  rw [carryOut, clean.readBatch_eq]
  dsimp only
  rw [Office.run_bind_ok (Office.run_reportAll_eq office []), if_pos none]
  rfl

/-- Where a batch is applied the next one follows on it. -/
theorem run_carryOut_applied
    (clean : reader.IsClean TableFormat.actions requests)
    (some : requests ≠ [])
    (positive : 0 < size)
    (processed :
      office.run (processLane engine (partsOf (requests.take size)).flatten) =
        (.ok results, between))
    (applied : ∀ processed ∈ results, processed.told.answer.isOk = true)
    (onward :
      between.run (carryOut engine size (reader.skip size)) =
        (.ok others, after)) :
    office.run (carryOut engine size reader) = (.ok (results ++ others), after) := by
  have rows := clean.length_rows
  have any := List.length_pos_of_ne_nil some
  have counted : (reader.skip size).rowsRead ≠ reader.rowsRead := by
    simp only [TableReader.skip]
    omega
  have fewer : (reader.skip size).rows.length < reader.rows.length := by
    simp only [TableReader.skip, List.length_drop]
    omega
  have quiet (some : Office) : some.noting [] = some := rfl
  rw [carryOut, clean.readBatch_eq]
  dsimp only
  rw [Office.run_bind_ok (Office.run_reportAll_eq office []),
    quiet, if_neg counted, if_pos fewer,
    Office.run_bind_ok (run_process_of_flatten processed),
    filterMap_refusal_eq_nil applied,
    Office.run_bind_ok (Office.run_reportAll_eq between []), quiet,
    Office.run_map, onward]
  rfl

/--
A run of which all requests are applied comes to what they come to in a row, as its
batches carry them out.
-/
theorem run_carryOut_inLanes
    (clean : reader.IsClean TableFormat.actions requests)
    (positive : 0 < size)
    (ran :
      office.run (processLane engine (inLanes size requests)) = (.ok results, after))
    (applied : ∀ processed ∈ results, processed.told.answer.isOk = true) :
    office.run (carryOut engine size reader) = (.ok results, after) := by
  induction count : requests.length using Nat.strongRecOn
    generalizing reader requests office results with
  | ind count inductionHypothesis =>
      subst count
      rw [inLanes] at ran
      split at ran
      next empty =>
        obtain rfl := empty.resolve_left positive.ne'
        obtain ⟨same, rfl⟩ := Prod.mk.inj ran
        obtain rfl := Except.ok.inj same
        exact run_carryOut_nil clean office
      next some =>
        have any := List.length_pos_of_ne_nil fun none => some (.inr none)
        obtain ⟨first, others, between, here, there, rfl⟩ :=
          run_processLane_append ran
        have onward := inductionHypothesis (requests.drop size).length
          (by rw [List.length_drop]; omega) (clean.skip size) there
          (fun processed member =>
            applied processed (List.mem_append_right first member)) rfl
        exact run_carryOut_applied clean (fun none => some (.inr none)) positive here
          (fun processed member =>
            applied processed (List.mem_append_left others member)) onward

end Clean

end Run

end PatronFees
