import PatronFees.Proofs.Batch.Counted
import PatronFees.Proofs.Record
import PatronFees.Run

namespace PatronFees

/-!
# Runs that count every request

A run carries out its table of actions batch by batch, just as the table is read
as a whole. While stores are in range each batch has a result for every request,
so the results of the run are for exactly the rows that became requests.
-/

namespace TableReader

variable {Value : Type} {format : TableFormat Value} {size : Nat}
  {reader : TableReader} {value : Value}

/-- What is gathered of rows came of one of them. -/
theorem mem_of_mem_gather
    {rows : List (Except Event Value)}
    (member : value ∈ (gather rows).1) :
    .ok value ∈ rows := by
  induction rows with
  | nil =>
      cases member
  | cons row rest inductionHypothesis =>
      cases row with
      | error warning =>
          exact List.mem_cons_of_mem _ (inductionHypothesis member)
      | ok first =>
          rcases List.mem_cons.mp member with rfl | later
          · exact List.mem_cons_self
          · exact List.mem_cons_of_mem _ (inductionHypothesis later)

/-- A value that was read was converted from the cells of a row. -/
theorem converted_of_readRow
    {header : Table.Header}
    {line : Nat}
    {row : Table.Row}
    (read : readRow format header line row = .ok value) :
    ∃ cells, format.convert cells = .ok value := by
  rw [readRow] at read
  split at read
  next =>
    cases read
  next cells _ =>
    split at read
    next first converted =>
      obtain rfl := Except.ok.inj read
      exact ⟨cells, converted⟩
    next =>
      cases read

theorem converted_of_mem_readRows
    (member : value ∈ (readRows format size reader).values) :
    ∃ cells, format.convert cells = .ok value := by
  obtain ⟨⟨row, index⟩, -, read⟩ := List.mem_map.mp (mem_of_mem_gather member)
  exact converted_of_readRow read

theorem converted_of_mem_readBatch
    (member : value ∈ (readBatch format size reader).values) :
    ∃ cells, format.convert cells = .ok value := by
  rw [readBatch.eq_def] at member
  split at member
  next =>
    exact converted_of_mem_readRows member
  next =>
    exact converted_of_mem_readRows member

/-- All values of a table were converted from the cells of rows. -/
theorem converted_of_mem_readAll
    {table : TableBatch Value}
    (read : readAll format size reader = .ok table) :
    ∀ value ∈ table.values, ∃ cells, format.convert cells = .ok value := by
  fun_induction readAll format size reader generalizing table
  case case1 reader batch same =>
    obtain rfl := Except.ok.inj read
    exact fun value member => converted_of_mem_readBatch member
  case case2 reader batch counted fewer inductionHypothesis =>
    obtain ⟨later, readLater, whole⟩ := Outcome.bind_eq_ok_iff.mp read
    obtain rfl := Except.ok.inj whole
    intro value member
    rcases List.mem_append.mp member with now | after
    · exact converted_of_mem_readBatch now
    · exact inductionHypothesis readLater value after
  case case3 reader batch counted notFewer =>
    cases read

/-- Where no row is counted, there is no value. -/
theorem values_eq_nil_of_rowsRead_eq
    (same :
      (readBatch format size reader).reader.rowsRead = reader.rowsRead) :
    (readBatch format size reader).values = [] := by
  rw [readBatch.eq_def] at same ⊢
  split at same
  next later header =>
    simp only [readRows] at same
    omega
  next =>
    simp only [readRows, Nat.add_eq_left, List.length_eq_zero_iff] at same
    simp only [readRows, same, List.zipIdx_nil, List.map_nil, gather]

end TableReader

namespace Run

open Engine

variable {engine : Engine} {loaded : AccountBook} {office : Office}
  {size : Nat} {reader : TableReader}

/-- Reports leave the stores as they are. -/
theorem run_reportAll
    (office : Office)
    (events : List Event) :
    ∃ after,
      office.run (reportAll events) = (.ok (), after) ∧
        HasStoresOf after office := by
  rw [reportAll]
  induction events generalizing office with
  | nil =>
      exact ⟨office, rfl, rfl, rfl⟩
  | cons event rest inductionHypothesis =>
      obtain ⟨after, reported, same⟩ := inductionHypothesis (office.report event)
      exact ⟨after, reported, same.accounts, same.ledger⟩

/-- What the stores have decides where calls can lead. -/
theorem isReachable_of_sameStores
    {after : Office}
    {scale : Nat}
    (reachable : office.IsReachable scale loaded)
    (same : HasStoresOf after office) :
    after.IsReachable scale loaded := by
  obtain ⟨entries, reached⟩ := reachable
  refine ⟨entries, same.ledger.trans reached.recorded, fun id => ?_⟩
  rw [same.accounts]
  exact reached.stands id

/-- From reachable stores, a table of actions has a result for each request. -/
theorem exists_carryOut
    {table : TableBatch ActionRequest}
    (reachable : office.IsReachable engine.scale loaded)
    (inRange : loaded.IsInRange engine.scale)
    (read : reader.readAll TableFormat.actions size = .ok table) :
    ∃ processed after,
      office.run (carryOut engine size reader) = (.ok processed, after) ∧
        (processed.map (·.request)).Perm table.values := by
  fun_induction TableReader.readAll TableFormat.actions size reader
    generalizing office table
  case case1 reader batch same =>
    obtain rfl := Except.ok.inj read
    obtain ⟨after, reported, -⟩ := run_reportAll office batch.warnings
    refine ⟨[], after, ?_, ?_⟩
    · rw [carryOut, Office.run_bind_ok reported, if_pos same]
      rfl
    · rw [TableReader.values_eq_nil_of_rowsRead_eq same]
      exact .nil
  case case2 reader batch counted fewer inductionHypothesis =>
    obtain ⟨later, readLater, whole⟩ := Outcome.bind_eq_ok_iff.mp read
    obtain rfl := Except.ok.inj whole
    obtain ⟨warned, reported, same⟩ := run_reportAll office batch.warnings
    obtain ⟨results, between, carriedOut, each, onward⟩ :=
      Batch.exists_process (isReachable_of_sameStores reachable same) inRange
        batch.values
    obtain ⟨noted, refusals, sameStores⟩ :=
      run_reportAll between (results.filterMap Processed.refusal?)
    obtain ⟨others, after, rest, eachOther⟩ := inductionHypothesis
      (isReachable_of_sameStores onward sameStores) readLater
    refine ⟨results ++ others, after, ?_, ?_⟩
    · rw [carryOut, Office.run_bind_ok reported, if_neg counted,
        if_pos fewer, Office.run_bind_ok carriedOut,
        Office.run_bind_ok refusals, Office.run_bind_ok rest]
      rfl
    · rw [List.map_append, each]
      exact (Batch.flatten_partsOf_perm batch.values).append eachOther
  case case3 reader batch counted notFewer =>
    cases read

/-- A table of actions that cannot be read to its end is never carried out. -/
theorem exists_carryOut_error
    {halt : Halt}
    (endless : reader.readAll TableFormat.actions size = .error halt)
    (office : Office) :
    ∃ other after,
      office.run (carryOut engine size reader) = (.error other, after) := by
  fun_induction TableReader.readAll TableFormat.actions size reader
    generalizing office
  case case1 reader batch same =>
    cases endless
  case case2 reader batch counted fewer inductionHypothesis =>
    have laterEndless :
        batch.reader.readAll TableFormat.actions size = .error halt := by
      cases later : batch.reader.readAll TableFormat.actions size with
      | error other =>
          rw [later] at endless
          exact congrArg Except.error (Except.error.inj endless)
      | ok table =>
          rw [later] at endless
          cases endless
    obtain ⟨warned, reported, -⟩ := run_reportAll office batch.warnings
    rw [carryOut, Office.run_bind_ok reported, if_neg counted, if_pos fewer]
    rcases carriedOut : warned.run (Batch.process engine batch.values) with
      ⟨other | results, between⟩
    · exact ⟨other, between, Office.run_bind_error carriedOut⟩
    · obtain ⟨noted, refusals, -⟩ :=
        run_reportAll between (results.filterMap Processed.refusal?)
      obtain ⟨other, after, rest⟩ := inductionHypothesis laterEndless noted
      refine ⟨other, after, ?_⟩
      rw [Office.run_bind_ok carriedOut, Office.run_bind_ok refusals]
      exact Office.run_bind_error rest
  case case3 reader batch counted notFewer =>
    obtain ⟨warned, reported, -⟩ := run_reportAll office batch.warnings
    refine ⟨.endless, warned, ?_⟩
    rw [carryOut, Office.run_bind_ok reported, if_neg counted, if_neg notFewer]
    rfl

/-- Each result of a run counts as one that was applied or one that was refused. -/
theorem applied_add_refused
    (accounts : AccountBook)
    (processed : List Processed)
    (office : Office) :
    (summary accounts processed office).applied +
        (summary accounts processed office).refused =
      processed.length := by
  have both := processed.length_eq_countP_add_countP (·.verdict.isApplied)
  simp only [Bool.not_eq_true, Bool.decide_eq_false] at both
  exact both.symm

section Tables

variable {settings : Settings} {paths : RunPaths} {workplace : Workplace}
  {first : Stamp} {outlet : Table.Outlet}

/-- What a run loads of its table of accounts. -/
def accountTable
    (settings : Settings)
    (paths : RunPaths)
    (workplace : Workplace) :
    Outcome (TableBatch Account) := do
  let reader ← openTable workplace paths.accounts
  reader.readAll (TableFormat.accounts settings.currency.fractionDigits)
    settings.batch.size

/-- What a run reads of its table of actions. -/
def actionTable
    (settings : Settings)
    (paths : RunPaths)
    (workplace : Workplace) :
    Outcome (TableBatch ActionRequest) := do
  let reader ← openTable workplace paths.actions
  reader.readAll TableFormat.actions settings.batch.size

/-- The accounts that a run loads come of records that were accepted. -/
theorem isAccepted_of_accountTable
    {accounts : TableBatch Account}
    (loads : accountTable settings paths workplace = .ok accounts) :
    ∀ account ∈ accounts.values,
      account.IsAccepted (Engine.new settings.currency.fractionDigits).scale := by
  obtain ⟨reader, -, read⟩ := Outcome.bind_eq_ok_iff.mp loads
  intro account member
  obtain ⟨cells, converted⟩ :=
    TableReader.converted_of_mem_readAll read account member
  exact AccountRecord.isAccepted_of_toAccount converted

/-- The office of a run once its accounts are loaded. -/
def officeWith
    (accounts : TableBatch Account)
    (first : Stamp) : Office :=
  { Office.opened (.ofList accounts.values) first.id.number.toNat
      first.createdAt with
    reported := accounts.warnings.reverse }

/-- A run goes on from the office with the accounts that it loads. -/
theorem run_eq_runFrom
    {accounts : TableBatch Account}
    (loads : accountTable settings paths workplace = .ok accounts) :
    run settings paths workplace first outlet =
      runFrom settings paths workplace outlet (officeWith accounts first) := by
  rw [accountTable] at loads
  simp only [run, loads]
  rfl

/-- What a run comes to once its actions were carried out. -/
theorem outcome_runFrom
    {outcome : Outcome (List Processed)}
    {after : Office}
    (opened : openTable workplace paths.actions = .ok reader)
    (carriedOut :
      office.run
          (carryOut (Engine.new settings.currency.fractionDigits)
            settings.batch.size reader) =
        (outcome, after)) :
    (runFrom settings paths workplace outlet office).outcome = (do
      let processed ← outcome
      (Outcome.ofChecked (deliver workplace paths.ledger after outlet).1).map
        fun _ => summary office.accounts processed after) := by
  rw [Office.run] at carriedOut
  simp only [runFrom, opened, carriedOut]
  cases outcome <;> rfl

/-- A run with a summary has read both of its tables. -/
theorem exists_tables_of_run
    {counts : RunSummary}
    (ended : (run settings paths workplace first outlet).outcome = .ok counts) :
    ∃ accounts requests,
      accountTable settings paths workplace = .ok accounts ∧
        actionTable settings paths workplace = .ok requests := by
  cases loads : accountTable settings paths workplace with
  | error halt =>
      rw [accountTable] at loads
      simp only [run, loads] at ended
      cases ended
  | ok accounts =>
      rw [run_eq_runFrom loads] at ended
      cases reads : actionTable settings paths workplace with
      | ok requests =>
          exact ⟨accounts, requests, rfl, rfl⟩
      | error halt =>
          rw [actionTable] at reads
          cases opened : openTable workplace paths.actions with
          | error other =>
              simp only [runFrom, opened] at ended
              cases ended
          | ok reader =>
              rw [opened, Outcome.ok_bind] at reads
              obtain ⟨other, after, carriedOut⟩ :=
                exists_carryOut_error reads (officeWith accounts first)
              rw [outcome_runFrom opened carriedOut] at ended
              cases ended

/--
A run on accounts in range that reads its actions comes to a summary, unless its
results cannot be written, and the summary counts every request.
-/
theorem run_counts
    {accounts : TableBatch Account}
    {requests : TableBatch ActionRequest}
    (loads : accountTable settings paths workplace = .ok accounts)
    (reads : actionTable settings paths workplace = .ok requests)
    (inRange :
      (accounts.values.map (·.remaining.minorUnits)).sum < twoTo 95) :
    ∃ (counts : RunSummary) (written : Checked Unit),
      (run settings paths workplace first outlet).outcome =
          (Outcome.ofChecked written).map (fun _ => counts) ∧
        counts.applied + counts.refused = requests.values.length := by
  obtain ⟨reader, opened, read⟩ := Outcome.bind_eq_ok_iff.mp reads
  have isInRange := AccountBook.isInRange_of_owed
    (isAccepted_of_accountTable loads) inRange
  have reachable :
      (officeWith accounts first).IsReachable
        (Engine.new settings.currency.fractionDigits).scale
        (officeWith accounts first).accounts :=
    .start isInRange rfl
  obtain ⟨processed, after, carriedOut, each⟩ :=
    exists_carryOut reachable isInRange read
  have count := each.length_eq
  rw [List.length_map] at count
  rw [run_eq_runFrom loads, outcome_runFrom opened carriedOut, Outcome.ok_bind]
  exact ⟨_, _, rfl, (applied_add_refused _ _ _).trans count⟩

end Tables

end Run

end PatronFees
