import PatronFees.Proofs.Run

namespace PatronFees

open Engine

/-!
# No request is lost

While the accounts that were loaded owe less than `2 ^ 95` smallest units, no
arithmetic leaves the range of decimals: every request of a batch is carried out
or refused, and a run counts them all. Beyond that a check adds up what is owed
before it reads the amount, and where the sum is too large the lane ends without
a result, even for a request that is to be refused.
-/

/-- A batch has one result for each of its requests. -/
structure Batch.LosesNone
    (engine : Engine)
    (office : Office)
    (batch : List ActionRequest) : Prop where
  results :
    ∃ results,
      (office.run (process engine batch)).1 = .ok results ∧
        (results.map (·.request)).Perm batch
  /-- In whatever turns lanes are carried out, each that ends has its results. -/
  inTurns :
    office.DrawsFresh (4 * (batch.flatMap (·.accounts)).length) →
      ∀ schedule outcomes,
        (inTurns engine batch office schedule).1 = outcomes.map .done →
          List.Forall₂ IsAnswered (Lane.ofBatch batch) outcomes

/-- A run counts each request that it reads, as applied or as refused. -/
structure Run.CountsEach
    (settings : Settings)
    (paths : RunPaths)
    (workplace : Workplace)
    (outcome : Outcome RunSummary) : Prop where
  /-- A run that ends with a summary has read both of its tables. -/
  tables :
    ∀ counts,
      outcome = .ok counts →
        ∃ accounts requests,
          accountTable settings paths workplace = .ok accounts ∧
            actionTable settings paths workplace = .ok requests
  /-- It comes to a summary, unless its results cannot be written. -/
  counts :
    ∀ accounts requests,
      accountTable settings paths workplace = .ok accounts →
        actionTable settings paths workplace = .ok requests →
          (accounts.values.map (·.remaining.minorUnits)).sum < twoTo 95 →
            ∃ (counts : RunSummary) (written : Checked Unit),
              outcome = (Outcome.ofChecked written).map (fun _ => counts) ∧
                counts.applied + counts.refused = requests.values.length

/--
Over accounts whose records were accepted and that owe below `2 ^ 95` units, no
batch loses a request, whatever calls came before it; and a run with such accounts
counts each request.
-/
theorem no_request_is_lost
    {scale : Nat}
    {records : List AccountRecord}
    {accounts : List Account}
    (accepted : records.mapM (·.toAccount scale) = .ok accounts)
    (owed : (accounts.map (·.remaining.minorUnits)).sum < twoTo 95)
    (firstId : Nat)
    (clock : Timestamp)
    (calls : List Call)
    (batch : List ActionRequest)
    (settings : Settings)
    (paths : RunPaths)
    (workplace : Workplace)
    (first : Stamp)
    (outlet : Table.Outlet) :
    Batch.LosesNone (Engine.new scale)
        ((Engine.new scale).performAll
          (.opened (.ofList accounts) firstId clock) calls)
        batch ∧
      Run.CountsEach settings paths workplace
        (Run.run settings paths workplace first outlet).outcome := by
  refine ⟨?_, fun counts ended => Run.exists_tables_of_run ended,
    fun accounts requests loads reads inRange =>
      Run.run_counts loads reads inRange⟩
  have acceptedEach :
      ∀ account ∈ accounts, account.IsAccepted (Engine.new scale).scale := by
    intro account member
    obtain ⟨record, -, converted⟩ :=
      exists_of_forall₂ (Outcome.mapM_eq_ok_iff.mp accepted) member
    exact AccountRecord.isAccepted_of_toAccount converted
  have inRange := AccountBook.isInRange_of_owed acceptedEach owed
  have opened :
      (Office.opened (.ofList accounts) firstId clock).IsReachable
        (Engine.new scale).scale
        (Office.opened (.ofList accounts) firstId clock).accounts :=
    .start inRange rfl
  have reachable := opened.performAll inRange calls
  constructor
  · obtain ⟨results, after, ran, each, -⟩ :=
      Batch.exists_process reachable inRange batch
    refine ⟨results, congrArg Prod.fst ran, ?_⟩
    rw [each]
    exact Batch.flatten_partsOf_perm batch
  · intro fresh schedule outcomes ended
    exact Batch.isAnswered_inTurns reachable inRange fresh ended

/-- A workplace with a table of accounts and one of actions. -/
def Workplace.withTables (accounts actions : String) : Workplace where
  contents path :=
    if path = "accounts.csv" then
      .ok accounts.toUTF8.toList
    else if path = "actions.csv" then
      .ok actions.toUTF8.toList
    else
      .error noSuchFile
  creationRefusal _ := none

/-- A batch and a run on a lost item, of which the last request is refused. -/
theorem no_request_is_lost_lostItem :
    let settings : Settings :=
      ⟨⟨"USD", 2⟩, ⟨"info", false⟩, ⟨10, none⟩⟩
    let paths : RunPaths := ⟨"accounts.csv", "actions.csv", none⟩
    let workplace :=
      Workplace.withTables
        "id,user_id,fee_fine_type,amount\na,u,Lost item,12.50\n"
        "action,accounts,amount\npay,a,5.00\npay,a,ten\n"
    [AccountRecord.lostItem].mapM (fun record => record.toAccount 2) =
        .ok [.lostItem] ∧
      Batch.LosesNone (Engine.new 2)
        ((Engine.new 2).performAll (.opened (.ofList [.lostItem]) 1 .epoch)
          [.single .pay "a" (some "5.00") .none])
        [⟨.pay, ["a"], some "ten", .none⟩] ∧
      ∃ (counts : RunSummary) (written : Checked Unit),
        (Run.run settings paths workplace ⟨EntryId.ofNat 1, .epoch⟩
            .unbounded).outcome =
          (Outcome.ofChecked written).map (fun _ => counts) ∧
          counts.applied + counts.refused = 2 := by
  intro settings paths workplace
  have accepted :
      [AccountRecord.lostItem].mapM (fun record => record.toAccount 2) =
        .ok [.lostItem] := by
    decide +kernel
  have owed :
      ([Account.lostItem].map (·.remaining.minorUnits)).sum < twoTo 95 := by
    decide +kernel
  obtain ⟨losesNone, countsEach⟩ :=
    no_request_is_lost accepted owed 1 .epoch
      [.single .pay "a" (some "5.00") .none]
      [⟨.pay, ["a"], some "ten", .none⟩]
      settings paths workplace ⟨EntryId.ofNat 1, .epoch⟩ .unbounded
  refine ⟨accepted, losesNone, ?_⟩
  have loaded :
      ((Run.accountTable settings paths workplace).map
        fun table => table.values.map (·.remaining.minorUnits)) =
          .ok [1250] := by
    decide +kernel
  have asked :
      ((Run.actionTable settings paths workplace).map
        fun table => table.values.length) = .ok 2 := by
    decide +kernel
  cases loads : Run.accountTable settings paths workplace with
  | error halt =>
      rw [loads] at loaded
      cases loaded
  | ok accounts =>
      rw [loads] at loaded
      cases reads : Run.actionTable settings paths workplace with
      | error halt =>
          rw [reads] at asked
          cases asked
      | ok requests =>
          rw [reads] at asked
          have inRange :
              (accounts.values.map (·.remaining.minorUnits)).sum <
                twoTo 95 := by
            have units : accounts.values.map (·.remaining.minorUnits) = [1250] :=
              Except.ok.inj loaded
            rw [units]
            decide +kernel
          obtain ⟨counts, written, outcome, count⟩ :=
            countsEach.counts accounts requests loads reads inRange
          exact ⟨counts, written, outcome, count.trans (Except.ok.inj asked)⟩

/-- The record of an account that owes as much as a decimal can have. -/
def AccountRecord.largest (id : AccountId) : AccountRecord :=
  { lostItem with id := id, amount := "79228162514264337593543950335" }

/-- The amount that the record of such an account has. -/
def Money.largest : Money :=
  .ofDecimal
    { Decimal.zero with
      coefficient := 79228162514264337593543950335
      coefficient_lt := by decide }
    2

def Account.largest (id : AccountId) : Account :=
  new id "u" "Lost item" .largest .epoch

/--
On two accounts that owe too much together, a request whose amount is no number
is not refused: its lane ends, and the batch has no result for it.
-/
theorem no_request_is_lost_largest :
    let accounts := [Account.largest "a", Account.largest "b"]
    let batch : List ActionRequest := [⟨.pay, ["a", "b"], some "ten", .none⟩]
    [AccountRecord.largest "a", AccountRecord.largest "b"].mapM
        (fun record => record.toAccount 2) = .ok accounts ∧
      (Office.run (.opened (.ofList accounts) 1 .epoch)
        (Batch.process (Engine.new 2) batch)).1 = .ok [] ∧
      ¬ Batch.LosesNone (Engine.new 2) (.opened (.ofList accounts) 1 .epoch)
        batch := by
  intro accounts batch
  have accepted :
      [AccountRecord.largest "a", AccountRecord.largest "b"].mapM
        (fun record => record.toAccount 2) = .ok accounts := by
    decide +kernel
  have lost :
      (Office.run (.opened (.ofList accounts) 1 .epoch)
        (Batch.process (Engine.new 2) batch)).1 = .ok [] := by
    decide +kernel
  refine ⟨accepted, lost, fun losesNone => ?_⟩
  obtain ⟨results, ran, each⟩ := losesNone.results
  rw [lost] at ran
  obtain rfl := Except.ok.inj ran
  cases each.length_eq

end PatronFees
