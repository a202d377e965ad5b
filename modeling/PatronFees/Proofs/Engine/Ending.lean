import PatronFees.Proofs.Engine.Call
import PatronFees.Proofs.Engine.Interruption

namespace PatronFees

open Exchange

/-!
# How a call ends when services may refuse

A call ends before anything is written, or at the first write that is refused,
or when all is written. Entries come before accounts, so what is left behind is
some of the entries and no account, or all the entries and some of the accounts.
-/

/-- The exchanges that record the entries of a call. -/
def Call.recording : Call → List LedgerEntry → List Exchange
  | .single _ _ _ _, entries => entries.map recorded
  | .bulk _ _ _ _, entries => [⟨.recordBatch entries, .ok ()⟩]

/-- The call is for several accounts at once. -/
def Call.isBulk : Call → Bool
  | .single _ _ _ _ => false
  | .bulk _ _ _ _ => true

namespace Engine

/-- What a call would do in an office, if nothing were refused. -/
structure IsPlanned
    (engine : Engine)
    (office : Office)
    (call : Call)
    (reviewed : Reviewed)
    (plans : List AccountPlan) : Prop where
  accepted :
    engine.reviewIn office call.kind call.accounts call.amount = .ok reviewed
  planned :
    AccountPlan.plans call.kind reviewed engine.scale call.options = .ok plans

/--
How a call may end: its exchanges, its outcome, and what is left in the stores.
-/
inductive Ending
    (engine : Engine)
    (office : Office)
    (call : Call) :
    List Exchange → Outcome Receipt → Office → Prop where
  /-- It halted before anything was to be written. -/
  | beforeWriting
      {exchanges : List Exchange}
      {halt : Halt}
      {after : Office}
      (writes : writesOf exchanges = [])
      (same : HasStoresOf after office) :
      Ending engine office call exchanges (.error halt) after
  /-- An entry for a single account was refused after others were recorded. -/
  | entryRefused
      {exchanges : List Exchange}
      {reviewed : Reviewed}
      {plans : List AccountPlan}
      {kept rest : List LedgerEntry}
      {refused : LedgerEntry}
      {failure : StoreFailure}
      {after : Office}
      (alone : call.isBulk = false)
      (isPlanned : engine.IsPlanned office call reviewed plans)
      (split : entriesOf office plans = kept ++ refused :: rest)
      (writes :
        writesOf exchanges =
          kept.map recorded ++ [⟨.recordEntry refused, .error failure⟩])
      (ledger : after.ledger = kept.foldl Ledger.append office.ledger)
      (accounts : after.accounts = office.accounts) :
      Ending engine office call exchanges
        (.error (.failed (.store failure))) after
  /-- The entries for several accounts were refused. -/
  | batchRefused
      {exchanges : List Exchange}
      {reviewed : Reviewed}
      {plans : List AccountPlan}
      {failure : StoreFailure}
      {after : Office}
      (together : call.isBulk = true)
      (isPlanned : engine.IsPlanned office call reviewed plans)
      (writes :
        writesOf exchanges =
          [⟨.recordBatch (entriesOf office plans), .error failure⟩])
      (same : HasStoresOf after office) :
      Ending engine office call exchanges
        (.error (.failed (.store failure))) after
  /-- An account was refused after all entries and some accounts were written. -/
  | accountRefused
      {exchanges : List Exchange}
      {reviewed : Reviewed}
      {plans : List AccountPlan}
      {kept rest : List Account}
      {refused : Account}
      {failure : StoreFailure}
      {after : Office}
      (isPlanned : engine.IsPlanned office call reviewed plans)
      (split : (kept ++ refused :: rest).Perm (plans.map (·.account)))
      (writes :
        writesOf exchanges =
          call.recording (entriesOf office plans) ++
            (kept.map saved ++ [⟨.saveAccount refused, .error failure⟩]))
      (ledger :
        after.ledger =
          (entriesOf office plans).foldl Ledger.append office.ledger)
      (accounts : after.accounts = kept.foldl AccountBook.save office.accounts) :
      Ending engine office call exchanges
        (.error (.failed (.store failure))) after
  /-- Everything was written. -/
  | done
      {exchanges : List Exchange}
      {reviewed : Reviewed}
      {plans : List AccountPlan}
      {kept : List Account}
      {after : Office}
      (isPlanned : engine.IsPlanned office call reviewed plans)
      (all : kept.Perm (plans.map (·.account)))
      (writes :
        writesOf exchanges =
          call.recording (entriesOf office plans) ++ kept.map saved)
      (carriedOut : HasCarriedOut office plans after) :
      Ending engine office call exchanges
        (.ok (receiptFor office reviewed plans)) after

/--
When a call asks for notices: not at all if it fails; otherwise once everything is
written, for each entry that wants one, in the order of the entries.
-/
structure TellsLast
    (exchanges : List Exchange)
    (outcome : Outcome Receipt) : Prop where
  failed : outcome.isOk = false → SendNothing exchanges
  succeeded :
    ∀ receipt,
      outcome = .ok receipt →
        ∃ writing sending,
          exchanges = writing ++ sending ∧
            SendNothing writing ∧
            writesOf sending = [] ∧
            noticesAsked sending = receipt.entries.filter (·.posting.notify)

/-- A call that halts without a notice tells nothing. -/
theorem TellsLast.of_halt
    {exchanges : List Exchange}
    {halt : Halt}
    (nothing : SendNothing exchanges) :
    TellsLast exchanges (.error halt) where
  failed := fun _ => nothing
  succeeded := fun _ never => by cases never

variable {engine : Engine} {office after : Office} {exchanges : List Exchange}
  {reviewed : Reviewed} {plans : List AccountPlan}

/-- A call that succeeds wrote all entries and then all accounts that it planned. -/
theorem Ending.done_inv
    {call : Call}
    {receipt : Receipt}
    (ending : engine.Ending office call exchanges (.ok receipt) after) :
    ∃ reviewed plans, ∃ kept : List Account,
      engine.IsPlanned office call reviewed plans ∧
        receipt = receiptFor office reviewed plans ∧
        kept.Perm (plans.map (·.account)) ∧
        writesOf exchanges =
          call.recording receipt.entries ++ kept.map saved := by
  cases ending with
  | done isPlanned all writes _ =>
      exact ⟨_, _, _, isPlanned, rfl, all, writes⟩

/-- What is planned is for accounts with identifiers of their own. -/
theorem IsPlanned.distinct
    (isPlanned : engine.IsPlanned office call reviewed plans) :
    (plans.map (·.account.id)).Nodup :=
  AccountPlan.nodup_ids_of_plans isPlanned.planned
    (isReadFrom_of_review isPlanned.accepted).distinct

theorem onlyWrite_recording
    (call : Call)
    (entries : List LedgerEntry) :
    OnlyWrite (call.recording entries) := by
  cases call with
  | single => exact onlyWrite_recorded entries
  | bulk => exact .singleton rfl

/-- Of exchanges that only ask and then only write, the writes are the latter. -/
theorem writesOf_quiet_append
    {quiet writes : List Exchange}
    (isQuiet : AreQuiet quiet)
    (onlyWrite : OnlyWrite writes) :
    writesOf (quiet ++ writes) = writes := by
  rw [writesOf_append, isQuiet.writesOf_eq, onlyWrite.writesOf_eq, List.nil_append]

/--
An action is reviewed, planned and stamped without a write or a notice, and goes
on from there with what was read in the office.
-/
theorem planning_inv
    {Result : Type}
    {kind : ActionKind}
    {accounts : List AccountId}
    {amount : Option String}
    {options : ActionOptions}
    {next : Reviewed → List AccountPlan → List LedgerEntry → Attempt Result}
    {outcome : Outcome Result}
    (ended :
      office.MayEnd
        (do
          let reviewed ← engine.review kind accounts amount
          let plans ← engine.plan kind reviewed options
          let entries ← stamp (plans.flatMap (·.postings))
          next reviewed plans entries)
        exchanges outcome after) :
    (∃ halt,
        outcome = .error halt ∧
          AreQuiet exchanges ∧
          HasStoresOf after office) ∨
      ∃ quiet rest reviewed plans,
        exchanges = quiet ++ rest ∧
          AreQuiet quiet ∧
          engine.reviewIn office kind accounts amount = .ok reviewed ∧
          AccountPlan.plans kind reviewed engine.scale options = .ok plans ∧
          (withStamps office plans).MayEnd
            (next reviewed plans (entriesOf office plans)) rest outcome after := by
  rcases Office.mayEnd_bind_inv ended with
    ⟨halt, halted, rfl⟩ | ⟨reading, onward, reviewed, _, rfl, isRead, planning⟩
  · obtain ⟨rfl, quiet, -⟩ := review_inv halted
    exact .inl ⟨halt, rfl, quiet, rfl, rfl⟩
  obtain ⟨rfl, quietRead, accepts⟩ := review_inv isRead
  have accepted := accepts reviewed rfl
  rcases Office.mayEnd_bind_inv planning with
    ⟨halt, halted, rfl⟩ | ⟨none, further, plans, _, rfl, isPlanned, stamping⟩
  · obtain ⟨quiet, same, -⟩ := plan_inv halted
    exact .inl ⟨halt, rfl, quietRead.append quiet, same⟩
  obtain ⟨-, -, plansEq⟩ := plan_inv isPlanned
  obtain ⟨planned, rfl, rfl⟩ := plansEq plans rfl
  rcases Office.mayEnd_bind_inv stamping with
    ⟨halt, halted, rfl⟩ | ⟨drawing, rest, entries, _, rfl, drawn, writing⟩
  · obtain ⟨-, never, -⟩ := stamp_inv halted
    cases never
  obtain ⟨quietDraw, same, rfl⟩ := stamp_inv drawn
  obtain rfl := Except.ok.inj same
  exact .inr
    ⟨reading ++ drawing, rest, reviewed, plans,
      (List.append_assoc reading drawing rest).symm,
      quietRead.append quietDraw, accepted, planned, writing⟩

/--
Once entries are recorded, accounts are saved up to the first that is refused;
if none is, notices are sent and the result is returned.
-/
theorem saving_inv
    {Result : Type}
    {accounts : List Account}
    {entries : List LedgerEntry}
    {result : Result}
    {outcome : Outcome Result}
    (ended :
      office.MayEnd
        (do
          saveAll accounts
          notify entries
          return result)
        exchanges outcome after) :
    (∃ sending,
        outcome = .ok result ∧
          exchanges = accounts.map saved ++ sending ∧
          writesOf sending = [] ∧
          noticesAsked sending = entries.filter (·.posting.notify) ∧
          HasStoresOf after (withAccounts office accounts)) ∨
      ∃ kept refused rest failure,
        accounts = kept ++ refused :: rest ∧
          outcome = .error (.failed (.store failure)) ∧
          exchanges =
            kept.map saved ++ [⟨.saveAccount refused, .error failure⟩] ∧
          after = withAccounts office kept := by
  rcases Office.mayEnd_bind_inv ended with
    ⟨halt, halted, rfl⟩ | ⟨saving, onward, _, between, rfl, isSaved, notifying⟩
  · rcases saveAll_inv halted with
      ⟨never, -⟩ | ⟨kept, refused, rest, failure, split, same, made, left⟩
    · cases never
    · obtain rfl := Except.error.inj same
      exact .inr ⟨kept, refused, rest, failure, split, rfl, made, left⟩
  · rcases saveAll_inv isSaved with
      ⟨-, rfl, rfl⟩ | ⟨_, _, _, _, -, never, -⟩
    · rcases Office.mayEnd_bind_inv notifying with
        ⟨halt, halted, rfl⟩ | ⟨sending, none, _, _, rfl, isSent, returned⟩
      · obtain ⟨never, -⟩ := notify_inv halted
        cases never
      · obtain ⟨-, quiet, asked, same⟩ := notify_inv isSent
        obtain ⟨rfl, rfl, rfl⟩ := Office.mayEnd_pure_inv returned
        rw [List.append_nil]
        exact .inl ⟨sending, rfl, rfl, quiet, asked, same⟩
    · cases never

/-- A call whose entries are recorded ends with its accounts, in any order. -/
theorem ending_of_saving
    {call : Call}
    {accounts : List Account}
    {Result : Type}
    {result : Result}
    {make : Result → Receipt}
    {quiet late : List Exchange}
    {outcome : Outcome Result}
    (isPlanned : engine.IsPlanned office call reviewed plans)
    (all : accounts.Perm (plans.map (·.account)))
    (makes : make result = receiptFor office reviewed plans)
    (isQuiet : AreQuiet quiet)
    (ended :
      (withEntries (withStamps office plans) (entriesOf office plans)).MayEnd
        (do
          saveAll accounts
          notify (entriesOf office plans)
          return result)
        late outcome after) :
    engine.Ending office call
        (quiet ++ (call.recording (entriesOf office plans) ++ late))
        (outcome.map make) after ∧
      TellsLast (quiet ++ (call.recording (entriesOf office plans) ++ late))
        (outcome.map make) := by
  have recording := onlyWrite_recording call (entriesOf office plans)
  rcases saving_inv ended with
    ⟨sending, rfl, rfl, onlyTold, asked, same⟩ |
      ⟨kept, refused, rest, failure, rfl, rfl, rfl, rfl⟩
  · rw [Except.map, makes]
    have writes := recording.append (onlyWrite_saved accounts)
    have seam :
        quiet ++ (call.recording (entriesOf office plans) ++
            (accounts.map saved ++ sending)) =
          (quiet ++ (call.recording (entriesOf office plans) ++
            accounts.map saved)) ++ sending := by
      simp only [List.append_assoc]
    rw [seam]
    refine ⟨.done isPlanned all ?_ ?_, (fun failed => by cases failed), ?_⟩
    · rw [writesOf_append, onlyTold, List.append_nil,
        writesOf_quiet_append isQuiet writes]
    · have isDistinct : (accounts.map (·.id)).Nodup := by
        rw [(all.map (·.id)).nodup_iff, List.map_map]
        exact isPlanned.distinct
      exact ⟨same.accounts.trans (AccountBook.saveAll_perm isDistinct all),
        same.ledger⟩
    · intro receipt isReceipt
      obtain rfl := Except.ok.inj isReceipt
      exact ⟨_, sending, rfl, isQuiet.sendNothing.append writes.sendNothing,
        onlyTold, asked⟩
  · have refusal : OnlyWrite [⟨.saveAccount refused, .error failure⟩] :=
      .singleton rfl
    have writes := recording.append ((onlyWrite_saved kept).append refusal)
    exact
      ⟨.accountRefused isPlanned all (writesOf_quiet_append isQuiet writes)
          rfl rfl,
        .of_halt (isQuiet.sendNothing.append writes.sendNothing)⟩

/--
However the services answer, a call ends in one of the ways that are known, and
if it tells anything it does so last.
-/
theorem perform_telling
    {order : SaveOrder}
    {call : Call}
    {outcome : Outcome Receipt}
    (ended :
      office.MayEnd (engine.performSaving order call) exchanges outcome after) :
    engine.Ending office call exchanges outcome after ∧
      TellsLast exchanges outcome := by
  cases call with
  | single kind account amount options =>
      obtain ⟨earlier, acted, rfl⟩ := Office.mayEnd_map_inv ended
      rw [single] at acted
      rcases planning_inv acted with
        ⟨halt, rfl, isQuiet, same⟩ |
          ⟨quiet, rest, reviewed, plans, rfl, isQuiet, accepted, planned, writing⟩
      · exact ⟨.beforeWriting isQuiet.writesOf_eq same,
          .of_halt isQuiet.sendNothing⟩
      have isPlanned :
          engine.IsPlanned office (.single kind account amount options)
            reviewed plans :=
        ⟨accepted, planned⟩
      obtain ⟨last, isLast⟩ :=
        exists_saved
          (found_of_review accepted account (List.mem_singleton_self account))
          plans
      rw [isLast] at writing
      rcases Office.mayEnd_bind_inv writing with
        ⟨halt, halted, rfl⟩ | ⟨recording, late, _, between, rfl, isRecorded, saving⟩
      · rcases recordEach_inv halted with
          ⟨never, -⟩ | ⟨kept, refused, others, failure, split, same, rfl, rfl⟩
        · cases never
        · obtain rfl := Except.error.inj same
          have refusal : OnlyWrite [⟨.recordEntry refused, .error failure⟩] :=
            .singleton rfl
          have writes := (onlyWrite_recorded kept).append refusal
          exact
            ⟨.entryRefused rfl isPlanned split
                (writesOf_quiet_append isQuiet writes) rfl rfl,
              .of_halt (isQuiet.sendNothing.append writes.sendNothing)⟩
      · rcases recordEach_inv isRecorded with
          ⟨-, rfl, rfl⟩ | ⟨_, _, _, _, -, never, -⟩
        · exact ending_of_saving isPlanned (.refl _) rfl isQuiet saving
        · cases never
  | bulk kind accounts amount options =>
      obtain ⟨earlier, acted, rfl⟩ := Office.mayEnd_map_inv ended
      rw [bulkSaving_eq] at acted
      rcases planning_inv acted with
        ⟨halt, rfl, isQuiet, same⟩ |
          ⟨quiet, rest, reviewed, plans, rfl, isQuiet, accepted, planned, writing⟩
      · exact ⟨.beforeWriting isQuiet.writesOf_eq same,
          .of_halt isQuiet.sendNothing⟩
      have isPlanned :
          engine.IsPlanned office (.bulk kind accounts amount options)
            reviewed plans :=
        ⟨accepted, planned⟩
      rcases Office.mayEnd_bind_inv writing with
        ⟨halt, halted, rfl⟩ | ⟨recording, late, _, between, rfl, isRecorded, saving⟩
      · rcases recordAll_inv halted with ⟨never, -⟩ | ⟨failure, same, rfl, rfl⟩
        · cases never
        · obtain rfl := Except.error.inj same
          have writes :
              OnlyWrite
                [⟨.recordBatch (entriesOf office plans), .error failure⟩] :=
            .singleton rfl
          exact
            ⟨.batchRefused rfl isPlanned
                (writesOf_quiet_append isQuiet writes) ⟨rfl, rfl⟩,
              .of_halt (isQuiet.sendNothing.append writes.sendNothing)⟩
      · rcases recordAll_inv isRecorded with ⟨-, rfl, rfl⟩ | ⟨_, never, -⟩
        · exact ending_of_saving isPlanned (order.perm _) rfl isQuiet saving
        · cases never

/--
However the services answer, a call ends in one of the ways that are known, and
if it fails it sends no notice.
-/
theorem perform_ending
    {order : SaveOrder}
    {call : Call}
    {outcome : Outcome Receipt}
    (ended :
      office.MayEnd (engine.performSaving order call) exchanges outcome after) :
    engine.Ending office call exchanges outcome after ∧
      (outcome.isOk = false → SendNothing exchanges) :=
  have ⟨ending, tellsLast⟩ := perform_telling ended
  ⟨ending, tellsLast.failed⟩

end Engine

end PatronFees
