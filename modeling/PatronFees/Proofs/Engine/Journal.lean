import PatronFees.Proofs.Engine.Standing

namespace PatronFees

/-!
# Runs of calls

Calls are made one after another, and the journal keeps what each of them adds
to the ledger together with its kind. What holds over every step of an account,
and goes on from step to step, holds over any run.
-/

/-- The office after calls one after another. -/
def Engine.performAll
    (engine : Engine)
    (office : Office)
    (calls : List Call) : Office :=
  calls.foldl (fun office call => (office.run (engine.perform call)).2) office

/-- Entries with the kinds of the calls that recorded them. -/
abbrev Journal := List (ActionKind × LedgerEntry)

namespace Journal

/-- The entries on an account. -/
def on
    (journal : Journal)
    (account : AccountId) : Journal :=
  journal.filter (·.2.account == account)

/-- The steps on an account, each with the kind of its call. -/
def stepsOn
    (journal : Journal)
    (account : AccountId) : List (ActionKind × Posting) :=
  (journal.on account).map fun step => (step.1, step.2.posting)

theorem stepsOn_append
    (first second : Journal)
    (account : AccountId) :
    stepsOn (first ++ second) account =
      stepsOn first account ++ stepsOn second account := by
  simp [stepsOn, on]

/-- What a call adds are steps of its kind. -/
theorem stepsOn_map
    (kind : ActionKind)
    (added : List LedgerEntry)
    (account : AccountId) :
    stepsOn (added.map fun entry => (kind, entry)) account =
      (postingsOn added account).map fun posting => (kind, posting) := by
  rw [stepsOn, on, postingsOn, List.filter_map, List.map_map, List.map_map]
  rfl

/-- The entries of a journal on an account are those of its entries. -/
theorem map_snd_on
    (journal : Journal)
    (account : AccountId) :
    (journal.on account).map Prod.snd =
      (journal.map Prod.snd).filter (·.account == account) := by
  rw [on, List.filter_map]
  rfl

/-- Where nothing is posted on an account, there are no steps on it. -/
theorem stepsOn_eq_nil
    {journal : Journal}
    {account : AccountId}
    (nothing : postingsOn (journal.map Prod.snd) account = []) :
    journal.stepsOn account = [] := by
  rw [postingsOn, ← map_snd_on, List.map_map, List.map_eq_nil_iff] at nothing
  rw [stepsOn, nothing]
  rfl

end Journal

/-- What calls add to the ledger, call by call. -/
def Engine.journal
    (engine : Engine) :
    Office → List Call → Journal
  | _, [] => []
  | office, call :: rest =>
      let after := (office.run (engine.perform call)).2
      (after.ledger.entries.drop office.ledger.entries.length).map
          (fun entry => (call.kind, entry)) ++
        engine.journal after rest

/-- What the first call recorded is what the ledger grew by. -/
theorem Engine.journal_cons
    {engine : Engine}
    {office : Office}
    {call : Call}
    {entries added : List LedgerEntry}
    (recorded : office.ledger = Ledger.ofEntries entries)
    (recordedAfter :
      (office.run (engine.perform call)).2.ledger =
        Ledger.ofEntries (entries ++ added))
    (rest : List Call) :
    engine.journal office (call :: rest) =
      added.map (fun entry => (call.kind, entry)) ++
        engine.journal (office.run (engine.perform call)).2 rest := by
  rw [journal, recordedAfter, recorded, Ledger.entries_ofEntries,
    Ledger.entries_ofEntries, List.drop_left]

/-- The entries of a journal that goes on after a call are those of the call first. -/
theorem Journal.map_snd_append
    (kind : ActionKind)
    (added : List LedgerEntry)
    (rest : Journal) :
    (added.map (fun entry => (kind, entry)) ++ rest).map Prod.snd =
      added ++ rest.map Prod.snd := by
  have same : added.map (Prod.snd ∘ fun entry => (kind, entry)) = added :=
    List.map_id added
  rw [List.map_append, List.map_map, same]

/-- Each of the calls has an outcome that is allowed. -/
def Engine.EndsWell
    (engine : Engine)
    (allowed : Outcome Receipt → Prop) :
    Office → List Call → Prop
  | _, [] => True
  | office, call :: rest =>
      allowed (office.run (engine.perform call)).1 ∧
        engine.EndsWell allowed (office.run (engine.perform call)).2 rest

instance Engine.decidableEndsWell
    (engine : Engine)
    (allowed : Outcome Receipt → Prop)
    [DecidablePred allowed] :
    (office : Office) →
      (calls : List Call) → Decidable (engine.EndsWell allowed office calls)
  | _, [] => .isTrue trivial
  | office, call :: rest =>
      have := engine.decidableEndsWell allowed
        (office.run (engine.perform call)).2 rest
      inferInstanceAs (Decidable (_ ∧ _))

/-- Calls end well where every outcome is allowed. -/
theorem Engine.endsWell_of_forall
    {allowed : Outcome Receipt → Prop}
    (all : ∀ outcome, allowed outcome)
    (engine : Engine)
    (office : Office)
    (calls : List Call) :
    engine.EndsWell allowed office calls := by
  induction calls generalizing office with
  | nil =>
      exact trivial
  | cons call rest inductionHypothesis =>
      exact ⟨all _, inductionHypothesis _⟩

/--
A relation of an account before and after some steps holds over no steps, over
any step of a call with an allowed outcome, and over steps after steps.
-/
structure HoldsOverSteps
    (scale : Nat)
    (allowed : Outcome Receipt → Prop)
    (relation :
      Account → Account → List (ActionKind × Posting) → Prop) : Prop where
  refl : ∀ account, relation account account []
  trans :
    ∀ {first second third early late},
      relation first second early →
        relation second third late → relation first third (early ++ late)
  step :
    ∀ {outcome kind history before added now},
      allowed outcome →
        AccountStep outcome scale kind history (some before) added now →
          ∃ after,
            now = some after ∧
              relation before after (added.map fun posting => (kind, posting))

/--
A run of calls adds its journal to the ledger, and what holds over every step
of an account holds from before the run to after it.
-/
theorem Office.IsReachedFrom.performAll
    {engine : Engine}
    {allowed : Outcome Receipt → Prop}
    {relation : Account → Account → List (ActionKind × Posting) → Prop}
    (holds : HoldsOverSteps engine.scale allowed relation)
    {loaded : AccountBook}
    (inRange : loaded.IsInRange engine.scale)
    {office : Office}
    {entries : List LedgerEntry}
    (reached : office.IsReachedFrom engine.scale loaded entries)
    {calls : List Call}
    (endsWell : engine.EndsWell allowed office calls) :
    (engine.performAll office calls).IsReachedFrom engine.scale loaded
        (entries ++ (engine.journal office calls).map Prod.snd) ∧
      ∀ id before,
        office.accounts.find? id = some before →
          ∃ after,
            (engine.performAll office calls).accounts.find? id = some after ∧
              relation before after
                ((engine.journal office calls).stepsOn id) := by
  induction calls generalizing office entries with
  | nil =>
      refine ⟨?_, fun id before found => ⟨before, found, holds.refl before⟩⟩
      rw [Engine.journal, List.map_nil, List.append_nil]
      exact reached
  | cons call rest inductionHypothesis =>
      obtain ⟨firstEnds, restEnds⟩ := endsWell
      obtain ⟨first, reachedNext, steps⟩ := reached.perform inRange call
      obtain ⟨reachedLast, onward⟩ := inductionHypothesis reachedNext restEnds
      rw [Engine.journal_cons reached.recorded reachedNext.recorded]
      constructor
      · rw [Journal.map_snd_append, ← List.append_assoc]
        exact reachedLast
      · intro id before found
        have taken := steps id
        rw [found] at taken
        obtain ⟨between, foundNext, early⟩ := holds.step firstEnds taken
        obtain ⟨after, foundLast, late⟩ := onward id between foundNext
        refine ⟨after, foundLast, ?_⟩
        rw [Journal.stepsOn_append, Journal.stepsOn_map]
        exact holds.trans early late

end PatronFees
