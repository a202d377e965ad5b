import PatronFees.Proofs.Batch.Measured
import PatronFees.Proofs.Run
import PatronFees.Proofs.Table.Reading

namespace PatronFees

/-!
# Runs in any turns

The lanes of a batch may be carried out side by side, and where they are, a run
may come to several reports. In each of them the requests come to what is told of
them in the order of the table, whatever the size of a batch and whatever turns the
lanes took.
-/

namespace TableReader

/-- What the rows of a table become, without those that are skipped. -/
def values
    {Value : Type}
    (format : TableFormat Value)
    (reader : TableReader) : List Value :=
  (gather (reader.outcomes format)).1

/-- The values of a table are those of a batch and those behind it. -/
theorem values_eq_append
    {Value : Type}
    {format : TableFormat Value}
    {reader : TableReader}
    (named : reader.header ≠ .unreadable)
    (size : Nat) :
    reader.values format =
      (readBatch format size reader).values ++
        (readBatch format size reader).reader.values format := by
  rw [readBatch_eq format named, values, values, outcomes_skip,
    ← List.take_append_drop size (reader.outcomes format), gather_append]
  simp

end TableReader

namespace Office

/-- The office once events were reported. -/
def noting
    (office : Office)
    (events : List Event) : Office :=
  { office with reported := events.reverse ++ office.reported }

theorem run_reportAll_eq
    (office : Office)
    (events : List Event) :
    office.run (Run.reportAll events) = (.ok (), office.noting events) := by
  rw [Run.reportAll]
  induction events generalizing office with
  | nil =>
      rfl
  | cons event rest inductionHypothesis =>
      have first :
          (office.report event).noting rest = office.noting (event :: rest) := by
        simp [noting, report]
      rw [← first]
      exact inductionHypothesis (office.report event)

theorem DrawsFresh.noting
    {office : Office}
    {count : Nat}
    (fresh : office.DrawsFresh count)
    (events : List Event) :
    (office.noting events).DrawsFresh count :=
  ⟨fresh.distinct, fresh.unused⟩

end Office

namespace Batch

open Engine

/-- Lanes carried out one after another take turns of a kind. -/
theorem exists_takeTurns_processLanes
    (engine : Engine)
    (finished : List (Outcome (List Processed)))
    (lanes : List Lane)
    (office : Office) :
    ∃ schedule,
      Procedure.takeTurns Office.answer schedule
          (finished.map .done ++
            lanes.map fun lane =>
              ExceptT.run (processLane engine (lane.map (·.request))),
            office) =
        ((finished ++ ((processLanes engine lanes).run Office.answer office).1).map
            .done,
          ((processLanes engine lanes).run Office.answer office).2) := by
  induction lanes generalizing finished office with
  | nil =>
      refine ⟨[], ?_⟩
      rw [List.map_append]
      rfl
  | cons lane rest inductionHypothesis =>
      let procedure := ExceptT.run (processLane engine (lane.map (·.request)))
      obtain ⟨first, ran⟩ :=
        Procedure.exists_takeTurns_run Office.answer (finished.map .done)
          (rest.map fun lane =>
            ExceptT.run (processLane engine (lane.map (·.request))))
          procedure office
      obtain ⟨later, ended⟩ :=
        inductionHypothesis (finished ++ [(procedure.run Office.answer office).1])
          (procedure.run Office.answer office).2
      have both :
          (processLanes engine (lane :: rest)).run Office.answer office =
            ((procedure.run Office.answer office).1 ::
                ((processLanes engine rest).run Office.answer
                  (procedure.run Office.answer office).2).1,
              ((processLanes engine rest).run Office.answer
                (procedure.run Office.answer office).2).2) := by
        rw [processLanes]
        change Procedure.run _ (Procedure.bind _ _) _ = _
        rw [Procedure.run_bind]
        change Procedure.run _ (Procedure.bind _ _) _ = _
        rw [Procedure.run_bind]
        rfl
      refine ⟨first ++ later, ?_⟩
      rw [Procedure.takeTurns_append, List.map_cons, ran, both]
      rw [List.map_append, List.append_assoc, List.append_assoc] at ended
      exact ended

/-- Carrying a batch out lane by lane is one way of taking turns. -/
theorem exists_inTurns_process
    (engine : Engine)
    (batch : List ActionRequest)
    (office : Office) :
    ∃ schedule outcomes,
      (inTurns engine batch office schedule).1 = outcomes.map .done ∧
        office.run (process engine batch) =
          (inTurns engine batch office schedule).2.run (gather outcomes) := by
  obtain ⟨schedule, ended⟩ :=
    exists_takeTurns_processLanes engine [] (Lane.ofBatch batch) office
  rw [List.map_nil, List.nil_append, List.nil_append] at ended
  refine ⟨schedule, ((processLanes engine (Lane.ofBatch batch)).run Office.answer
    office).1, ?_, ?_⟩
  · exact congrArg Prod.fst ended
  · rw [inTurns, lanesOf, ended]
    exact Procedure.run_bind Office.answer _ _ office

/-- Once events were noted and lanes took turns, their results lead on. -/
theorem exists_leadsOn
    {engine : Engine}
    {office between : Office}
    {events : List Event}
    {batch : List ActionRequest}
    {tolds : List Told}
    {last : Books}
    {rest : Nat}
    {schedule : List Nat}
    {outcomes : List (Outcome (List Processed))}
    {gathered : Outcome (List Processed)}
    (recorded : office.ledger.IsRecorded)
    (fresh :
      office.DrawsFresh (4 * (batch.flatMap (·.accounts)).length + rest))
    (tells : engine.tellAll office.books batch = .ok (tolds, last))
    (ended :
      (inTurns engine batch (office.noting events) schedule).1 =
        outcomes.map .done)
    (gathers :
      (inTurns engine batch (office.noting events) schedule).2.run
          (gather outcomes) =
        (gathered, between)) :
    ∃ processed,
      gathered = .ok processed ∧
        LeadsOn office tolds last rest [processed] between := by
  have recordedNow : (office.noting events).ledger.IsRecorded := recorded
  obtain ⟨laneResults, rfl, leads⟩ :=
    leadsOn_inTurns recordedNow (fresh.noting events) tells ended
  rw [run_gather] at gathers
  obtain ⟨rfl, rfl⟩ := Prod.mk.inj gathers
  refine ⟨laneResults.flatten, rfl, ?_, leads.books, leads.recorded, leads.fresh,
    leads.sent⟩
  rw [List.flatten_singleton]
  exact leads.results

/-- What a batch leads on to and what the next ones lead on to from there. -/
theorem LeadsOn.append
    {office between after : Office}
    {earlier later : List Told}
    {middle last : Books}
    {fewer rest : Nat}
    {processed others : List Processed}
    {events : List Event}
    (first : LeadsOn office earlier middle fewer [processed] between)
    (onward : LeadsOn (between.noting events) later last rest [others] after) :
    LeadsOn office (earlier ++ later) last rest [processed ++ others] after where
  results := by
    have here := first.results
    have there := onward.results
    rw [List.flatten_singleton] at here there ⊢
    rw [List.map_append]
    exact here.append there
  books := onward.books
  recorded := onward.recorded
  fresh := onward.fresh
  sent := by
    have here := first.sent
    have there := onward.sent
    change after.sent = between.sent + _ at there
    rw [noticesAll_append]
    omega

end Batch

namespace Run

open Engine Batch

variable {engine : Engine} {size : Nat} {reader : TableReader} {office after : Office}
  {outcome : Outcome (List Processed)}

/-- The first batch of a table. -/
abbrev firstBatch
    (size : Nat)
    (reader : TableReader) : TableBatch ActionRequest :=
  reader.readBatch TableFormat.actions size

/--
What carrying out a table of actions may end with: batch by batch, the lanes of
each in any turns.
-/
inductive MayCarryOut
    (engine : Engine)
    (size : Nat) :
    TableReader → Office → Outcome (List Processed) → Office → Prop where
  | ended
      {reader : TableReader}
      {office : Office}
      (same : (firstBatch size reader).reader.rowsRead = reader.rowsRead) :
      MayCarryOut engine size reader office (.ok [])
        (office.noting (firstBatch size reader).warnings)
  | stuck
      {reader : TableReader}
      {office : Office}
      (counted : (firstBatch size reader).reader.rowsRead ≠ reader.rowsRead)
      (notFewer :
        ¬ (firstBatch size reader).reader.rows.length < reader.rows.length) :
      MayCarryOut engine size reader office (.error .endless)
        (office.noting (firstBatch size reader).warnings)
  | halted
      {reader : TableReader}
      {office between : Office}
      {schedule : List Nat}
      {outcomes : List (Outcome (List Processed))}
      {halt : Halt}
      (counted : (firstBatch size reader).reader.rowsRead ≠ reader.rowsRead)
      (fewer : (firstBatch size reader).reader.rows.length < reader.rows.length)
      (lanes :
        (inTurns engine (firstBatch size reader).values
            (office.noting (firstBatch size reader).warnings) schedule).1 =
          outcomes.map .done)
      (gathered :
        (inTurns engine (firstBatch size reader).values
              (office.noting (firstBatch size reader).warnings) schedule).2.run
            (gather outcomes) =
          (.error halt, between)) :
      MayCarryOut engine size reader office (.error halt) between
  | batch
      {reader : TableReader}
      {office between after : Office}
      {schedule : List Nat}
      {outcomes : List (Outcome (List Processed))}
      {processed : List Processed}
      {outcome : Outcome (List Processed)}
      (counted : (firstBatch size reader).reader.rowsRead ≠ reader.rowsRead)
      (fewer : (firstBatch size reader).reader.rows.length < reader.rows.length)
      (lanes :
        (inTurns engine (firstBatch size reader).values
            (office.noting (firstBatch size reader).warnings) schedule).1 =
          outcomes.map .done)
      (gathered :
        (inTurns engine (firstBatch size reader).values
              (office.noting (firstBatch size reader).warnings) schedule).2.run
            (gather outcomes) =
          (.ok processed, between))
      (onward :
        MayCarryOut engine size (firstBatch size reader).reader
          (between.noting (processed.filterMap Processed.refusal?)) outcome
          after) :
      MayCarryOut engine size reader office (outcome.map (processed ++ ·)) after

/-- Carrying out a table lane by lane is one of its ways. -/
theorem mayCarryOut_run
    (engine : Engine)
    (size : Nat)
    (reader : TableReader)
    (office : Office) :
    MayCarryOut engine size reader office
      (office.run (carryOut engine size reader)).1
      (office.run (carryOut engine size reader)).2 := by
  induction count : reader.rows.length using Nat.strongRecOn
    generalizing reader office with
  | ind count inductionHypothesis =>
      subst count
      rw [carryOut, Office.run_bind_ok (Office.run_reportAll_eq _ _)]
      split
      next same =>
        exact .ended same
      next counted =>
        split
        next fewer =>
          obtain ⟨schedule, outcomes, ended, processing⟩ :=
            exists_inTurns_process engine (firstBatch size reader).values
              (office.noting (firstBatch size reader).warnings)
          rcases gathered :
              (office.noting (firstBatch size reader).warnings).run
                (process engine (firstBatch size reader).values) with
            ⟨halt | processed, between⟩
          · rw [Office.run_bind_error gathered]
            exact .halted counted fewer ended (processing.symm.trans gathered)
          · rw [Office.run_bind_ok gathered,
              Office.run_bind_ok (Office.run_reportAll_eq _ _), Office.run_map]
            exact .batch counted fewer ended (processing.symm.trans gathered)
              (inductionHypothesis _ fewer _ _ rfl)
        next notFewer =>
          exact .stuck counted notFewer

/-- Lanes in turns and gathering their results keep the accounts in order. -/
theorem isOrdered_of_gathered
    {batch : List ActionRequest}
    {schedule : List Nat}
    {outcomes : List (Outcome (List Processed))}
    {gathered : Outcome (List Processed)}
    {between : Office}
    (ordered : office.accounts.IsOrdered)
    (gathers :
      (inTurns engine batch office schedule).2.run (gather outcomes) =
        (gathered, between)) :
    between.accounts.IsOrdered := by
  have turned : (inTurns engine batch office schedule).2.accounts.IsOrdered :=
    Procedure.takeTurns_keeps Office.isOrdered_answer ordered schedule
  have last := Procedure.run_keeps Office.isOrdered_answer
    (ExceptT.run (gather outcomes)) turned
  change ((inTurns engine batch office schedule).2.run
    (gather outcomes)).2.accounts.IsOrdered at last
  rwa [gathers] at last

/-- Carrying out a table keeps the accounts in order. -/
theorem MayCarryOut.isOrdered
    (carriedOut : MayCarryOut engine size reader office outcome after)
    (ordered : office.accounts.IsOrdered) :
    after.accounts.IsOrdered := by
  induction carriedOut with
  | ended same =>
      exact ordered
  | stuck counted notFewer =>
      exact ordered
  | halted counted fewer lanes gathered =>
      exact isOrdered_of_gathered (by exact ordered) gathered
  | batch counted fewer lanes gathered onward inductionHypothesis =>
      have between := isOrdered_of_gathered (by exact ordered) gathered
      exact inductionHypothesis between

/--
Whatever the size of a batch and in whatever turns its lanes are carried out, the
requests of a table come to what is told of them in the order of the table.
-/
theorem MayCarryOut.leadsOn
    {books last : Books}
    {tolds : List Told}
    (carriedOut : MayCarryOut engine size reader office outcome after)
    (named : reader.header ≠ .unreadable)
    (positive : 0 < size)
    (recorded : office.ledger.IsRecorded)
    (fresh :
      office.DrawsFresh
        (4 * ((reader.values TableFormat.actions).flatMap (·.accounts)).length))
    (same : office.books.SameEach books)
    (alike :
      engine.MeasuresAllAlike books (reader.values TableFormat.actions))
    (tells :
      engine.tellAll books (reader.values TableFormat.actions) =
        .ok (tolds, last)) :
    ∃ processed,
      outcome = .ok processed ∧ LeadsOn office tolds last 0 [processed] after := by
  induction carriedOut generalizing books tolds with
  | @ended reader office noRow =>
      have empty : reader.values TableFormat.actions = [] := by
        simp only [firstBatch, TableReader.readBatch_eq _ named, TableReader.skip]
          at noRow
        have none : reader.rows = [] :=
          List.eq_nil_of_length_eq_zero (by omega)
        rw [TableReader.values, TableReader.outcomes, none]
        rfl
      rw [empty] at tells
      obtain ⟨rfl, rfl⟩ := Prod.mk.inj (Except.ok.inj tells)
      have freshNow := (fresh.of_le (Nat.zero_le _)).noting
        (firstBatch size reader).warnings
      exact ⟨[], rfl, .nil, same, recorded, freshNow, rfl⟩
  | @stuck reader office counted notFewer =>
      simp only [firstBatch, TableReader.readBatch_eq _ named, TableReader.skip,
        List.length_drop] at counted notFewer
      omega
  | @halted reader office between schedule outcomes halt counted fewer lanes
      gathered =>
      rw [TableReader.values_eq_append named size] at tells alike fresh
      rw [List.flatMap_append, List.length_append, Nat.mul_add] at fresh
      obtain ⟨earlierTolds, _, _, earlier, -, -⟩ := tellAll_append tells
      obtain ⟨othersAfter, othersTell, -⟩ :=
        tellAll_of_sameEach same.symm alike.append.1 earlier
      obtain ⟨processed, never, -⟩ :=
        exists_leadsOn recorded fresh othersTell lanes gathered
      cases never
  | @batch reader office between after schedule outcomes processed outcome counted
      fewer lanes gathered onward inductionHypothesis =>
      have behind : (firstBatch size reader).reader = reader.skip size := by
        rw [firstBatch, TableReader.readBatch_eq _ named]
      rw [TableReader.values_eq_append named size] at tells alike fresh
      rw [List.flatMap_append, List.length_append, Nat.mul_add] at fresh
      obtain ⟨earlierTolds, laterTolds, middle, earlier, later, rfl⟩ :=
        tellAll_append tells
      obtain ⟨othersMiddle, othersTell, sameMiddle⟩ :=
        tellAll_of_sameEach same.symm alike.append.1 earlier
      obtain ⟨_, isProcessed, first⟩ :=
        exists_leadsOn recorded fresh othersTell lanes gathered
      obtain rfl := Except.ok.inj isProcessed
      have freshNow :=
        first.fresh.noting (processed.filterMap Processed.refusal?)
      obtain ⟨others, rfl, next⟩ :=
        inductionHypothesis (by rw [behind]; exact named) first.recorded
          freshNow (first.books.trans sameMiddle.symm)
          (alike.append.2 earlierTolds middle earlier) later
      exact ⟨processed ++ others, rfl, first.append next⟩

end Run

end PatronFees
