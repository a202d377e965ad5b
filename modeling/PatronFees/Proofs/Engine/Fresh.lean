import PatronFees.Proofs.Engine.Call

namespace PatronFees

/-!
# Fresh identifiers

The ledger refuses an entry whose identifier is in use. A call draws no more
than four identifiers for each account that it names, so while those next in
line are fresh, the ledger records all that a call asks it to.
-/

/-- The next stamps of an office have identifiers of their own. -/
structure Office.DrawsFresh
    (office : Office)
    (count : Nat) : Prop where
  distinct : ((List.range' office.nextId count).map EntryId.ofNat).Nodup
  unused :
    ∀ number ∈ List.range' office.nextId count,
      EntryId.ofNat number ∉ office.ledger.ids

instance (office : Office) (count : Nat) :
    Decidable (office.DrawsFresh count) :=
  decidable_of_iff (_ ∧ _)
    ⟨fun both => ⟨both.1, both.2⟩, fun fresh => ⟨fresh.1, fresh.2⟩⟩

/-- Entries with identifiers of their own that are not in use repeat none. -/
theorem Ledger.firstRepeated?_eq_none
    {used : List EntryId}
    {entries : List LedgerEntry}
    (distinct : (entries.map (·.id)).Nodup)
    (unused : ∀ entry ∈ entries, entry.id ∉ used) :
    firstRepeated? used entries = none := by
  induction entries generalizing used with
  | nil =>
      rfl
  | cons entry rest inductionHypothesis =>
      rw [List.map_cons, List.nodup_cons] at distinct
      have first : ¬ used.contains entry.id = true := by
        rw [List.contains_iff_mem]
        exact unused entry List.mem_cons_self
      rw [firstRepeated?, if_neg first]
      apply inductionHypothesis distinct.2
      intro other member inUse
      rcases List.mem_cons.mp inUse with same | before
      · exact distinct.1 (same ▸ List.mem_map_of_mem member)
      · exact unused other (List.mem_cons_of_mem _ member) before

namespace Engine

/-- Stamped entries have the identifiers of the numbers in order. -/
theorem map_id_stampedFrom
    (clock : Timestamp)
    (number : Nat)
    (postings : List Posting) :
    (stampedFrom clock number postings).map (·.id) =
      (List.range' number postings.length).map EntryId.ofNat := by
  induction postings generalizing number with
  | nil =>
      rfl
  | cons posting rest inductionHypothesis =>
      rw [stampedFrom, List.map_cons, inductionHypothesis, List.length_cons,
        List.range'_succ, List.map_cons]
      rfl

/-- Plans for few enough postings are recorded under fresh identifiers. -/
theorem firstRepeated?_entriesOf
    {office : Office}
    {count : Nat}
    {plans : List AccountPlan}
    (fresh : office.DrawsFresh count)
    (few : (plans.flatMap (·.postings)).length ≤ count) :
    Ledger.firstRepeated? office.ledger.ids (entriesOf office plans) = none := by
  have among :
      (List.range' office.nextId (plans.flatMap (·.postings)).length).Sublist
        (List.range' office.nextId count) :=
    List.range'_sublist_right.mpr few
  apply Ledger.firstRepeated?_eq_none
  · rw [entriesOf, map_id_stampedFrom]
    exact (among.map _).nodup fresh.distinct
  · intro entry member
    have drawn : entry.id ∈ (entriesOf office plans).map (·.id) :=
      List.mem_map_of_mem member
    rw [entriesOf, map_id_stampedFrom] at drawn
    obtain ⟨number, inRange, isId⟩ := List.mem_map.mp drawn
    rw [← isId]
    exact fresh.unused number (among.subset inRange)

/-- No account takes more than four postings. -/
theorem length_postings_le
    {engine : Engine}
    {office : Office}
    {kind : ActionKind}
    {accounts : List AccountId}
    {amount : Option String}
    {reviewed : Reviewed}
    {plans : List AccountPlan}
    (isRead : engine.IsReadFrom office kind accounts amount reviewed)
    (planned : reviewed.IsCarriedOutBy kind engine.scale plans) :
    (plans.flatMap (·.postings)).length ≤ 4 * accounts.length := by
  have each : ∀ plan ∈ plans, plan.postings.length ≤ 4 := by
    intro plan among
    obtain ⟨-, account, -, carriesOut⟩ := planned.each plan among
    have few := carriesOut.few
    split at few <;> omega
  exact (length_flatMap_le each).trans
    (Nat.mul_le_mul_left 4 (length_plans_le isRead planned))

end Engine

end PatronFees
