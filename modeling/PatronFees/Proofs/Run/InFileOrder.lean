import PatronFees.Proofs.NoRequestLost
import PatronFees.Proofs.Run.InARow
import PatronFees.Proofs.Table.Entries

namespace PatronFees

/-!
# Runs in the order of their files

A run cuts its actions into batches and carries out the lanes of a batch in some
turns. None of this shows in its report: the accounts, the counts and, account by
account, the rows of the ledger are those of the actions applied one after another
in the order of the file. There is one exception. A refund over several accounts
adds up their histories, and where a sum is so large that digits are lost on the
way, it depends on how the histories are interleaved.
-/

/-- The settings with another size of batches. -/
def Settings.sized
    (settings : Settings)
    (size : Nat) : Settings :=
  { settings with batch := { settings.batch with size := size } }

/-- Two reports agree on all but the events and the identifiers and times of entries. -/
structure RunReport.AgreesWith
    (report other : RunReport) : Prop where
  outcome : report.outcome = other.outcome
  accounts : report.accounts = other.accounts
  ledger :
    ∀ id,
      report.ledger.map (LedgerEntry.rowsOn id) =
        other.ledger.map (LedgerEntry.rowsOn id)

/-- An office in which nothing was recorded has fresh identifiers for long. -/
theorem Office.drawsFresh_of_empty
    {office : Office}
    {count : Nat}
    (recorded : office.ledger = Ledger.empty)
    (few : count ≤ twoTo 128) :
    office.DrawsFresh count where
  distinct := by
    refine List.Nodup.map_on ?_ List.nodup_range'
    intro first inRange second alsoInRange same
    have numbers := congrArg (fun id : EntryId => id.number.toNat) same
    simp only [EntryId.ofNat, BitVec.toNat_ofNat] at numbers
    rw [List.mem_range'_1] at inRange alsoInRange
    have most : twoTo 128 = 2 ^ 128 := rfl
    omega
  unused := by
    rw [recorded]
    exact fun _ _ => List.not_mem_nil

namespace Run

open Engine Batch

variable {settings : Settings} {paths : RunPaths} {workplace : Workplace}
  {first : Stamp} {outlet : Table.Outlet} {engine : Engine}

/-- The report of a run once its actions were carried out. -/
def reportOf
    (paths : RunPaths)
    (workplace : Workplace)
    (outlet : Table.Outlet)
    (loaded : AccountBook)
    (outcome : Outcome (List Processed))
    (after : Office) : RunReport :=
  match outcome with
  | .error halt => halted halt after.events
  | .ok processed =>
      let (delivered, accounts, ledger) :=
        deliver workplace paths.ledger after outlet
      { outcome :=
          (Outcome.ofChecked delivered).map fun _ => summary loaded processed after
        accounts := accounts
        ledger := ledger
        events := after.events }

/-- The report of the actions applied one after another, in the order of the file. -/
def inFileOrder
    (engine : Engine)
    (paths : RunPaths)
    (workplace : Workplace)
    (first : Stamp)
    (outlet : Table.Outlet)
    (accounts : List Account)
    (requests : List ActionRequest) : RunReport :=
  let office :=
    Office.opened (.ofList accounts) first.id.number.toNat first.createdAt
  let (outcome, after) := office.run (processLane engine requests)
  reportOf paths workplace outlet office.accounts outcome after

/-- A report that a run may come to, the lanes of a batch in any turns. -/
inductive MayReport
    (settings : Settings)
    (paths : RunPaths)
    (workplace : Workplace)
    (first : Stamp)
    (outlet : Table.Outlet) :
    RunReport → Prop where
  | carriedOut
      {accounts : TableBatch Account}
      {reader : TableReader}
      {outcome : Outcome (List Processed)}
      {after : Office}
      (loads : accountTable settings paths workplace = .ok accounts)
      (opened : openTable workplace paths.actions = .ok reader)
      (carriedOut :
        MayCarryOut (Engine.new settings.currency.fractionDigits)
          settings.batch.size reader (officeWith accounts first) outcome after) :
      MayReport settings paths workplace first outlet
        (reportOf paths workplace outlet (officeWith accounts first).accounts
          outcome after)

/-- A run on tables that can be opened reports what carrying out its actions ends with. -/
theorem run_eq_reportOf
    {accounts : TableBatch Account}
    {reader : TableReader}
    (loads : accountTable settings paths workplace = .ok accounts)
    (opened : openTable workplace paths.actions = .ok reader) :
    run settings paths workplace first outlet =
      reportOf paths workplace outlet (officeWith accounts first).accounts
        ((officeWith accounts first).run
          (carryOut (Engine.new settings.currency.fractionDigits)
            settings.batch.size reader)).1
        ((officeWith accounts first).run
          (carryOut (Engine.new settings.currency.fractionDigits)
            settings.batch.size reader)).2 := by
  rw [run_eq_runFrom loads]
  simp only [runFrom, opened]
  rfl

/-- A run on tables that can be opened comes to a report that it may come to. -/
theorem mayReport_run
    {accounts : TableBatch Account}
    {reader : TableReader}
    (loads : accountTable settings paths workplace = .ok accounts)
    (opened : openTable workplace paths.actions = .ok reader) :
    MayReport settings paths workplace first outlet
      (run settings paths workplace first outlet) := by
  rw [run_eq_reportOf loads opened]
  exact .carriedOut loads opened (mayCarryOut_run _ _ _ _)

section Reports

variable {office inOrder after : Office} {requests : List ActionRequest}
  {tolds : List Told} {last : Books} {processed results : List Processed}
  {loaded : AccountBook}

/-- What is told of results tells which of them were applied. -/
theorem isApplied_eq_isOk (processed : Processed) :
    processed.verdict.isApplied = processed.told.answer.isOk := by
  rcases processed with ⟨request, verdict⟩
  cases verdict <;> rfl

/-- Results that tell the same, in some order, have the same counts. -/
theorem countP_eq_of_perm
    (same : (processed.map Processed.told).Perm (results.map Processed.told)) :
    processed.countP (·.verdict.isApplied) =
        results.countP (·.verdict.isApplied) ∧
      processed.countP (!·.verdict.isApplied) =
        results.countP (!·.verdict.isApplied) := by
  have applied :=
    same.countP_eq fun told : Told => told.answer.isOk
  have refused :=
    same.countP_eq fun told : Told => !told.answer.isOk
  simp only [List.countP_map, Function.comp_def, ← isApplied_eq_isOk]
    at applied refused
  exact ⟨applied, refused⟩

/-- A ledger that is the one of its entries has as many as it lists. -/
theorem size_eq_length_postings
    (recorded : office.ledger.IsRecorded) :
    office.ledger.size = office.books.postings.length := by
  rw [Office.books, List.length_map]
  conv_lhs => rw [recorded]
  rw [Ledger.size, Ledger.ids_ofEntries, List.length_reverse, List.length_map]

/-- A ledger that a run wrote has all its entries. -/
theorem writeLedger_eq
    (workplace : Workplace)
    (path : String)
    (office : Office) :
    writeLedger workplace path office =
      match workplace.creationRefusal path with
      | some reason => (.error (ledgerFailure path reason), none)
      | none =>
          (.ok (), some (Table.bytes (LedgerEntry.rows office.ledger.entries))) := by
  cases refusal : workplace.creationRefusal path with
  | some reason =>
      simp only [writeLedger, refusal]
  | none =>
      simp only [writeLedger, refusal, LedgerEntry.writeTable, Table.write_unbounded]

/-- Reports agree where the books are the same account by account. -/
theorem reportOf_agrees
    (recorded : after.ledger.IsRecorded)
    (recordedInOrder : inOrder.ledger.IsRecorded)
    (ordered : after.accounts.IsOrdered)
    (orderedInOrder : inOrder.accounts.IsOrdered)
    (same : after.books.SameEach inOrder.books)
    (told : (processed.map Processed.told).Perm (results.map Processed.told))
    (sent : after.sent = inOrder.sent) :
    (reportOf paths workplace outlet loaded (.ok processed) after).AgreesWith
      (reportOf paths workplace outlet loaded (.ok results) inOrder) := by
  have accounts : after.accounts = inOrder.accounts :=
    ordered.eq_of_find?_eq orderedInOrder same.account_eq
  have entries : after.ledger.size = inOrder.ledger.size := by
    rw [size_eq_length_postings recorded, size_eq_length_postings recordedInOrder,
      same.postings_perm.length_eq]
  obtain ⟨applied, refused⟩ := countP_eq_of_perm told
  have counts :
      summary loaded processed after = summary loaded results inOrder := by
    simp only [summary, applied, refused, entries, sent]
  have rows (id : AccountId) :
      LedgerEntry.rowsOn id (Table.bytes (LedgerEntry.rows after.ledger.entries)) =
        LedgerEntry.rowsOn id
          (Table.bytes (LedgerEntry.rows inOrder.ledger.entries)) :=
    LedgerEntry.rowsOn_eq (same.historyOf_eq id)
  simp only [reportOf, deliver, accounts, counts, writeLedger_eq]
  rcases Account.writeTable inOrder.accounts.accounts outlet with
    ⟨failure | ⟨⟩, filled⟩
  · exact ⟨rfl, rfl, fun _ => rfl⟩
  · cases paths.ledger with
    | none =>
        exact ⟨rfl, rfl, fun _ => rfl⟩
    | some path =>
        dsimp only
        cases workplace.creationRefusal path with
        | some reason =>
            exact ⟨rfl, rfl, fun _ => rfl⟩
        | none =>
            exact ⟨rfl, rfl, fun id => congrArg some (rows id)⟩

/-- What a run without a ledger reports once its actions were carried out. -/
theorem outcome_reportOf
    {paths : RunPaths}
    (none : paths.ledger = none)
    (workplace : Workplace)
    (loaded : AccountBook)
    (processed : List Processed)
    (after : Office) :
    (reportOf paths workplace .unbounded loaded (.ok processed) after).outcome =
      .ok (summary loaded processed after) := by
  simp only [reportOf, deliver, none, Account.writeTable, Table.write_unbounded]
  rfl

/-- A summary counts the requests that are told to be applied. -/
theorem applied_summary
    (loaded : AccountBook)
    (processed : List Processed)
    (after : Office) :
    (summary loaded processed after).applied =
      (processed.map (·.told.answer.isOk)).countP id := by
  simp only [summary, List.countP_map, isApplied_eq_isOk]
  rfl

end Reports

/--
The tables of a run can be opened, their headers are text, and their rows become
these accounts and requests, those left out that are skipped.
-/
structure ReadsTables
    (settings : Settings)
    (paths : RunPaths)
    (workplace : Workplace)
    (accounts : List Account)
    (requests : List ActionRequest) : Prop where
  accounts :
    ∃ reader,
      openTable workplace paths.accounts = .ok reader ∧
        reader.header ≠ .unreadable ∧
        reader.values (TableFormat.accounts settings.currency.fractionDigits) =
          accounts
  actions :
    ∃ reader,
      openTable workplace paths.actions = .ok reader ∧
        reader.header ≠ .unreadable ∧
        reader.values TableFormat.actions = requests

variable {accounts : List Account} {requests : List ActionRequest} {size : Nat}

/-- Whatever the size of a batch, the accounts are loaded that their table has. -/
theorem ReadsTables.exists_accountTable
    (reads : ReadsTables settings paths workplace accounts requests)
    (positive : 0 < size) :
    ∃ table,
      accountTable (settings.sized size) paths workplace = .ok table ∧
        table.values = accounts := by
  obtain ⟨reader, opened, named, rfl⟩ := reads.accounts
  have read := TableReader.readAll_eq
    (TableFormat.accounts settings.currency.fractionDigits) named positive
  exact ⟨_, Outcome.bind_eq_ok_iff.mpr ⟨reader, opened, read⟩, rfl⟩

/-- The office that the actions are applied in one after another. -/
def openedWith
    (accounts : List Account)
    (first : Stamp) : Office :=
  Office.opened (.ofList accounts) first.id.number.toNat first.createdAt

/-- Nothing was posted yet in the office that the actions are applied in. -/
theorem books_openedWith
    (accounts : List Account)
    (first : Stamp) :
    (openedWith accounts first).books = ⟨.ofList accounts, []⟩ := by
  have nothing : Ledger.empty.entries = [] := Ledger.entries_ofEntries []
  change Books.mk _ (Ledger.empty.entries.map _) = _
  rw [nothing]
  rfl

/-- Any report that a run may come to is the one in the order of the file. -/
theorem MayReport.agrees
    {report : RunReport}
    (reports : MayReport (settings.sized size) paths workplace first outlet report)
    (positive : 0 < size)
    (reads : ReadsTables settings paths workplace accounts requests)
    (few : 4 * (requests.flatMap (·.accounts)).length ≤ twoTo 128)
    {results : List Processed}
    (inOrder :
      ((openedWith accounts first).run
          (processLane (Engine.new settings.currency.fractionDigits) requests)).1 =
        .ok results)
    (alike :
      (Engine.new settings.currency.fractionDigits).MeasuresAllAlike
        (openedWith accounts first).books requests) :
    report.AgreesWith
      (inFileOrder (Engine.new settings.currency.fractionDigits) paths workplace
        first outlet accounts requests) := by
  obtain ⟨table, loads, rfl⟩ := reads.exists_accountTable positive
  obtain ⟨reader, opened, named, rfl⟩ := reads.actions
  cases reports with
  | @carriedOut accounts opening outcome after alsoLoads alsoOpened carriedOut =>
      obtain rfl : table = accounts := Except.ok.inj (loads.symm.trans alsoLoads)
      obtain rfl : reader = opening := Except.ok.inj (opened.symm.trans alsoOpened)
      have recorded : (openedWith table.values first).ledger.IsRecorded :=
        Ledger.isRecorded_ofEntries []
      have fresh := (openedWith table.values first).drawsFresh_of_empty rfl few
      have freshNow :
          (officeWith table first).DrawsFresh
            (4 * ((reader.values TableFormat.actions).flatMap
              (·.accounts)).length) :=
        ⟨fresh.distinct, fresh.unused⟩
      obtain ⟨last, tells, leads⟩ :=
        leadsOn_run recorded (by rwa [Nat.add_zero]) inOrder
      obtain ⟨processed, rfl, leadsToo⟩ :=
        carriedOut.leadsOn named positive recorded freshNow (.refl _) alike tells
      have ordered : (openedWith table.values first).accounts.IsOrdered :=
        AccountBook.isOrdered_ofList table.values
      have orderedInOrder :
          ((openedWith table.values first).run
            (processLane (Engine.new settings.currency.fractionDigits)
              (reader.values TableFormat.actions))).2.accounts.IsOrdered :=
        Procedure.run_keeps Office.isOrdered_answer _ ordered
      have told := leadsToo.results
      rw [List.flatten_singleton] at told
      have inOrderReport :
          inFileOrder (Engine.new settings.currency.fractionDigits) paths workplace
              first outlet table.values (reader.values TableFormat.actions) =
            reportOf paths workplace outlet (openedWith table.values first).accounts
              (.ok results)
              ((openedWith table.values first).run
                (processLane (Engine.new settings.currency.fractionDigits)
                  (reader.values TableFormat.actions))).2 := by
        rw [← inOrder]
        rfl
      rw [inOrderReport]
      exact reportOf_agrees leadsToo.recorded leads.recorded
        (carriedOut.isOrdered ordered) orderedInOrder
        (leadsToo.books.trans leads.books.symm) told
        (leadsToo.sent.trans leads.sent.symm)

/-- A run, and any report that it may come to, is the one in the order of the file. -/
theorem agrees_inFileOrder
    (reads : ReadsTables settings paths workplace accounts requests)
    (few : 4 * (requests.flatMap (·.accounts)).length ≤ twoTo 128)
    {results : List Processed}
    (inOrder :
      ((openedWith accounts first).run
          (processLane (Engine.new settings.currency.fractionDigits) requests)).1 =
        .ok results)
    (alike :
      (Engine.new settings.currency.fractionDigits).MeasuresAllAlike
        (openedWith accounts first).books requests)
    (positive : 0 < size) :
    let inOrder :=
      inFileOrder (Engine.new settings.currency.fractionDigits) paths workplace
        first outlet accounts requests
    (run (settings.sized size) paths workplace first outlet).AgreesWith inOrder ∧
      ∀ report,
        MayReport (settings.sized size) paths workplace first outlet report →
          report.AgreesWith inOrder := by
  obtain ⟨table, loads, -⟩ := reads.exists_accountTable positive
  obtain ⟨reader, opened, -⟩ := reads.actions
  have reports :
      MayReport (settings.sized size) paths workplace first outlet
        (run (settings.sized size) paths workplace first outlet) :=
    mayReport_run loads opened
  exact ⟨reports.agrees positive reads few inOrder alike,
    fun report reported => reported.agrees positive reads few inOrder alike⟩

/-- The accounts of a table that owe little enough together are in range. -/
theorem ReadsTables.isInRange
    (reads : ReadsTables settings paths workplace accounts requests)
    (owed : (accounts.map (·.remaining.minorUnits)).sum < twoTo 95) :
    (AccountBook.ofList accounts).IsInRange
      (Engine.new settings.currency.fractionDigits).scale := by
  obtain ⟨table, loads, rfl⟩ := reads.exists_accountTable Nat.one_pos
  have accepted := isAccepted_of_accountTable loads
  exact AccountBook.isInRange_of_owed accepted owed

/-- In range, the actions come to results in the order of the file, measured alike. -/
theorem inOrder_in_range
    (inRange :
      (AccountBook.ofList accounts).IsInRange
        (Engine.new settings.currency.fractionDigits).scale)
    (few : 4 * (requests.flatMap (·.accounts)).length ≤ twoTo 128)
    (first : Stamp) :
    (∃ results,
      ((openedWith accounts first).run
          (processLane (Engine.new settings.currency.fractionDigits) requests)).1 =
        .ok results) ∧
      (Engine.new settings.currency.fractionDigits).MeasuresAllAlike
        (openedWith accounts first).books requests := by
  have reachable :
      (openedWith accounts first).IsReachable
        (Engine.new settings.currency.fractionDigits).scale
        (openedWith accounts first).accounts :=
    .start inRange rfl
  obtain ⟨results, after, ran, -⟩ := exists_processLane reachable inRange requests
  exact ⟨⟨results, congrArg Prod.fst ran⟩,
    reachable.measuresAllAlike inRange
      ((openedWith accounts first).drawsFresh_of_empty rfl few)⟩

/--
On accounts that owe less than `2 ^ 95` smallest units together the size of a batch
does not matter: there, arithmetic stays in range and refunds are measured alike.
-/
theorem agrees_inFileOrder_in_range
    (reads : ReadsTables settings paths workplace accounts requests)
    (few : 4 * (requests.flatMap (·.accounts)).length ≤ twoTo 128)
    (owed : (accounts.map (·.remaining.minorUnits)).sum < twoTo 95)
    (first : Stamp)
    (outlet : Table.Outlet)
    (positive : 0 < size) :
    let inOrder :=
      inFileOrder (Engine.new settings.currency.fractionDigits) paths workplace
        first outlet accounts requests
    (run (settings.sized size) paths workplace first outlet).AgreesWith inOrder ∧
      ∀ report,
        MayReport (settings.sized size) paths workplace first outlet report →
          report.AgreesWith inOrder := by
  obtain ⟨⟨results, inOrder⟩, alike⟩ := inOrder_in_range (reads.isInRange owed) few first
  exact agrees_inFileOrder reads few inOrder alike positive

/--
Whatever the size of a batch and in whatever turns lanes are carried out, a run
agrees with the actions applied one after another in the order of the file, where
no arithmetic leaves the range of decimals and refunds are measured alike.
-/
theorem batch_size_never_matters
    (reads : ReadsTables settings paths workplace accounts requests)
    (few : 4 * (requests.flatMap (·.accounts)).length ≤ twoTo 128)
    (inRange :
      ((openedWith accounts first).run
          (processLane (Engine.new settings.currency.fractionDigits)
            requests)).1.isOk = true)
    (alike :
      (Engine.new settings.currency.fractionDigits).MeasuresAllAlike
        (openedWith accounts first).books requests)
    (positive : 0 < size) :
    let inOrder :=
      inFileOrder (Engine.new settings.currency.fractionDigits) paths workplace
        first outlet accounts requests
    (run (settings.sized size) paths workplace first outlet).AgreesWith inOrder ∧
      ∀ report,
        MayReport (settings.sized size) paths workplace first outlet report →
          report.AgreesWith inOrder := by
  cases ended :
      ((openedWith accounts first).run
        (processLane (Engine.new settings.currency.fractionDigits) requests)).1 with
  | error halt =>
      rw [ended] at inRange
      cases inRange
  | ok results =>
      exact agrees_inFileOrder reads few ended alike positive

/-- Two payments on lost items and a refund over both of them, two to a batch. -/
theorem batch_size_never_matters_lostItems :
    let settings : Settings :=
      ⟨⟨"USD", 2⟩, ⟨"info", false⟩, ⟨10, none⟩⟩
    let paths : RunPaths := ⟨"accounts.csv", "actions.csv", none⟩
    let workplace :=
      Workplace.withTables
        "id,user_id,fee_fine_type,amount\na,u,Lost item,12.50\nb,u,Lost item,10.00\n"
        "action,accounts,amount\npay,a,12.50\npay,b,3.00\nrefund,a;b,10.00\n"
    let accounts : List Account :=
      [.lostItem, .new "b" "u" "Lost item" (.ofMinorUnits 1000 2) .epoch]
    let requests : List ActionRequest :=
      [⟨.pay, ["a"], some "12.50", .none⟩, ⟨.pay, ["b"], some "3.00", .none⟩,
        ⟨.refund, ["a", "b"], some "10.00", .none⟩]
    let first : Stamp := ⟨EntryId.ofNat 1, .epoch⟩
    let inOrder :=
      inFileOrder (Engine.new 2) paths workplace first .unbounded accounts requests
    ReadsTables settings paths workplace accounts requests ∧
      4 * (requests.flatMap (·.accounts)).length ≤ twoTo 128 ∧
      ((openedWith accounts first).run
          (processLane (Engine.new 2) requests)).1.isOk = true ∧
      (Engine.new 2).MeasuresAllAlike (openedWith accounts first).books requests ∧
      0 < 2 ∧
      (run (settings.sized 2) paths workplace first .unbounded).AgreesWith inOrder ∧
      ∀ report,
        MayReport (settings.sized 2) paths workplace first .unbounded report →
          report.AgreesWith inOrder := by
  intro settings paths workplace accounts requests first inOrder
  have reads : ReadsTables settings paths workplace accounts requests :=
    { accounts := ⟨_, rfl, by decide +kernel, by decide +kernel⟩
      actions := ⟨_, rfl, by decide +kernel, by decide +kernel⟩ }
  have few : 4 * (requests.flatMap (·.accounts)).length ≤ twoTo 128 := by
    decide +kernel
  have owed : (accounts.map (·.remaining.minorUnits)).sum < twoTo 95 := by
    decide +kernel
  obtain ⟨⟨results, ended⟩, alike⟩ := inOrder_in_range (reads.isInRange owed) few first
  have inRange :
      ((openedWith accounts first).run
        (processLane (Engine.new 2) requests)).1.isOk = true :=
    congrArg Except.isOk ended
  exact ⟨reads, few, inRange, alike, by decide,
    batch_size_never_matters reads few inRange alike (by decide)⟩

/-- Requests of which the last asks for about as much as a sum that loses digits. -/
def requestsLosingDigits : List ActionRequest :=
  [⟨.pay, ["b"], some "0.30", .none⟩,
    ⟨.pay, ["a"], some "79228162514264337593543950334", .none⟩,
    ⟨.pay, ["b"], some "0.30", .none⟩,
    ⟨.refund, ["b"], some "0.60", .none⟩,
    ⟨.refund, ["a", "b"], some "79228162514264337593543950334", .none⟩]

/-- The same requests as batches of three carry them out. -/
theorem inLanes_requestsLosingDigits :
    inLanes 3 requestsLosingDigits =
      [⟨.pay, ["b"], some "0.30", .none⟩, ⟨.pay, ["b"], some "0.30", .none⟩,
        ⟨.pay, ["a"], some "79228162514264337593543950334", .none⟩,
        ⟨.refund, ["b"], some "0.60", .none⟩,
        ⟨.refund, ["a", "b"], some "79228162514264337593543950334", .none⟩] := by
  simp [inLanes, requestsLosingDigits, partsOf, Lane.ofBatch_eq, Lane.placedBatch,
    Lane.place, Lane.joined, Lane.meets, PlacedRequest.meets]

/--
A refund over two accounts is refused where actions are applied in the order of the
file, and applied where batches of three put those on one account together.
-/
theorem batch_size_matters_lostDigits :
    let settings : Settings :=
      ⟨⟨"USD", 2⟩, ⟨"info", false⟩, ⟨10, none⟩⟩
    let paths : RunPaths := ⟨"accounts.csv", "actions.csv", none⟩
    let workplace :=
      Workplace.withTables
        "id,user_id,fee_fine_type,amount\na,u,Lost item,79228162514264337593543950335\nb,u,Lost item,1.00\n"
        "action,accounts,amount\npay,b,0.30\npay,a,79228162514264337593543950334\npay,b,0.30\nrefund,b,0.60\nrefund,a;b,79228162514264337593543950334\n"
    let accounts : List Account :=
      [.largest "a", .new "b" "u" "Lost item" (.ofMinorUnits 100 2) .epoch]
    let first : Stamp := ⟨EntryId.ofNat 1, .epoch⟩
    ReadsTables settings paths workplace accounts requestsLosingDigits ∧
      ((openedWith accounts first).run
          (processLane (Engine.new 2) requestsLosingDigits)).1.isOk = true ∧
      ¬ (run (settings.sized 3) paths workplace first .unbounded).AgreesWith
        (inFileOrder (Engine.new 2) paths workplace first .unbounded accounts
          requestsLosingDigits) := by
  intro settings paths workplace accounts first
  let office := openedWith accounts first
  obtain ⟨reader, opensAccounts, cleanAccounts⟩ :
      ∃ reader,
        openTable workplace paths.accounts = .ok reader ∧
          reader.IsClean (TableFormat.accounts 2) accounts :=
    ⟨_, rfl, by decide +kernel, by decide +kernel⟩
  obtain ⟨actions, opensActions, clean⟩ :
      ∃ reader,
        openTable workplace paths.actions = .ok reader ∧
          reader.IsClean TableFormat.actions requestsLosingDigits :=
    ⟨_, rfl, by decide +kernel, by decide +kernel⟩
  have recorded : office.ledger.IsRecorded := Ledger.isRecorded_ofEntries []
  have fresh (requests : List ActionRequest)
      (few : 4 * (requests.flatMap (·.accounts)).length ≤ twoTo 128) :
      office.DrawsFresh (4 * (requests.flatMap (·.accounts)).length) :=
    office.drawsFresh_of_empty rfl few
  have told :
      ((Engine.new 2).tellAll office.books requestsLosingDigits).map
          (fun all => all.1.map (·.answer.isOk)) =
        .ok [true, true, true, true, false] := by
    decide +kernel
  have toldInLanes :
      ((Engine.new 2).tellAll office.books (inLanes 3 requestsLosingDigits)).map
          (fun all => all.1.map (·.answer.isOk)) =
        .ok [true, true, true, true, true] := by
    rw [inLanes_requestsLosingDigits]
    decide +kernel
  obtain ⟨inOrder, last, ran, applied⟩ :=
    exists_results_applied recorded (fresh _ (by decide)) told
  obtain ⟨inLanes, after, ranInLanes, appliedInLanes⟩ :=
    exists_results_applied recorded
      (fresh _ (by rw [inLanes_requestsLosingDigits]; decide)) toldInLanes
  have allApplied : ∀ processed ∈ inLanes, processed.told.answer.isOk = true := by
    intro processed member
    have isApplied : processed.told.answer.isOk ∈ inLanes.map (·.told.answer.isOk) :=
      List.mem_map_of_mem member
    rw [appliedInLanes] at isApplied
    simpa using isApplied
  have carriedOut :
      office.run (carryOut (Engine.new 2) 3 actions) = (.ok inLanes, after) :=
    run_carryOut_inLanes clean (by decide) ranInLanes allApplied
  have loads :
      accountTable (settings.sized 3) paths workplace =
        .ok ⟨accounts, [], reader.skip reader.rows.length⟩ :=
    Outcome.bind_eq_ok_iff.mpr
      ⟨reader, opensAccounts, cleanAccounts.readAll_eq (by decide)⟩
  have report :
      run (settings.sized 3) paths workplace first .unbounded =
        reportOf paths workplace .unbounded office.accounts (.ok inLanes) after := by
    rw [run_eq_reportOf loads opensActions]
    exact congrArg₂ (reportOf paths workplace .unbounded office.accounts)
      (congrArg Prod.fst carriedOut) (congrArg Prod.snd carriedOut)
  have reportInOrder :
      inFileOrder (Engine.new 2) paths workplace first .unbounded accounts
          requestsLosingDigits =
        reportOf paths workplace .unbounded office.accounts (.ok inOrder) last :=
    congrArg₂ (reportOf paths workplace .unbounded office.accounts)
      (congrArg Prod.fst ran) (congrArg Prod.snd ran)
  refine ⟨⟨⟨reader, opensAccounts, cleanAccounts.named, cleanAccounts.values_eq⟩,
    ⟨actions, opensActions, clean.named, clean.values_eq⟩⟩, ?_, fun agrees => ?_⟩
  · exact congrArg Except.isOk (congrArg Prod.fst ran)
  · have same := agrees.outcome
    rw [report, reportInOrder, outcome_reportOf rfl, outcome_reportOf rfl] at same
    have counts := congrArg RunSummary.applied (Except.ok.inj same)
    rw [applied_summary, applied_summary, applied, appliedInLanes] at counts
    exact absurd counts (by decide)

end Run

end PatronFees
