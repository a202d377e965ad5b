import PatronFees.Proofs.Engine.AccountStep

namespace PatronFees

/-!
# How accounts stand

Since it was loaded an account is the same fee or fine and owes no more. What
was received and what was refunded are both covered by what it owes less; and
once anything is posted on it, it is closed exactly when it owes nothing.
-/

/-- How an account with a history stands since it was loaded. -/
structure Standing
    (scale : Nat)
    (loaded now : Account)
    (history : List Posting) : Prop where
  sameDebt : now.IsSameDebt loaded
  scale_eq : now.remaining.scale = scale
  nonneg : 0 ≤ now.remaining.minorUnits
  sound : Refund.IsSound scale history
  received_le :
    Refund.unitsReceived history ≤
      loaded.remaining.minorUnits - now.remaining.minorUnits
  refunded_le :
    Refund.unitsRefunded history ≤
      loaded.remaining.minorUnits - now.remaining.minorUnits
  untouched : history = [] → now = loaded
  closed_iff :
    history ≠ [] →
      (now.status = .closed ↔ now.remaining.minorUnits = 0)

/--
How an account that was loaded stands; where none was loaded there is none, and
nothing is posted.
-/
def Stands
    (scale : Nat) :
    Option Account → Option Account → List Posting → Prop
  | some loaded, some now, history => Standing scale loaded now history
  | none, none, history => history = []
  | _, _, _ => False

namespace Standing

variable {scale : Nat} {kind : ActionKind} {loaded now : Account}
  {history : List Posting} {plan : AccountPlan}

/-- An account stands as it was loaded while nothing is posted on it. -/
theorem ofLoaded
    (scale_eq : loaded.remaining.scale = scale)
    (nonneg : 0 ≤ loaded.remaining.minorUnits) :
    Standing scale loaded loaded [] where
  sameDebt := .refl loaded
  scale_eq := scale_eq
  nonneg := nonneg
  sound := fun money member => (List.not_mem_nil member).elim
  received_le := by
    change (0 : Int) ≤ _
    omega
  refunded_le := by
    change (0 : Int) ≤ _
    omega
  untouched := fun _ => rfl
  closed_iff := fun nonempty => (nonempty rfl).elim

/-- An account owes no more than when it was loaded. -/
theorem le
    (standing : Standing scale loaded now history) :
    now.remaining.minorUnits ≤ loaded.remaining.minorUnits := by
  have received := standing.sound.unitsReceived_nonneg
  have covered := standing.received_le
  omega

/-- An account stands well after a plan was carried out on it. -/
theorem carriedOut
    (standing : Standing scale loaded now history)
    (isAllowed : plan.IsAllowed scale kind history now) :
    Standing scale loaded plan.account (history ++ plan.postings) := by
  have carriesOut := isAllowed.carriesOut
  have received := standing.received_le
  have refunded := standing.refunded_le
  obtain ⟨receives, refunds⟩ := carriesOut.covered
  have nonempty : plan.postings ≠ [] := by
    obtain ⟨last, isLast, -⟩ := carriesOut.labels
    rintro none
    rw [none] at isLast
    cases isLast
  refine
    { sameDebt := carriesOut.sameDebt.trans standing.sameDebt
      scale_eq := carriesOut.scale_eq
      nonneg := carriesOut.nonneg
      sound := standing.sound.append carriesOut.sound
      received_le := ?_
      refunded_le := ?_
      untouched := ?_
      closed_iff := fun _ => carriesOut.closed_iff }
  · rw [Refund.unitsReceived_append]
    omega
  · rw [Refund.unitsRefunded_append]
    by_cases isRefund : kind = .refund
    · -- A refund is covered by what was received before.
      have refundable := isAllowed.refundable isRefund
      have remaining := carriesOut.remaining_eq
      rw [if_pos isRefund] at refunds remaining
      omega
    · rw [if_neg isRefund] at refunds
      omega
  · intro none
    exact (nonempty (List.append_eq_nil_iff.mp none).2).elim

/-- An account stands as before after the first postings of a refund. -/
theorem cutShort
    (standing : Standing scale loaded now history)
    (isRefund : kind = .refund)
    (isAllowed : plan.IsAllowed scale kind history now)
    {kept rest : List Posting}
    (split : plan.postings = kept ++ rest) :
    Standing scale loaded now (history ++ kept) := by
  have carriesOut := isAllowed.carriesOut
  have received := standing.received_le
  have positive := carriesOut.positive isRefund
  have refundable := isAllowed.refundable isRefund
  have refundedNonneg := standing.sound.unitsRefunded_nonneg
  have among : kept.Sublist plan.postings := by
    rw [split]
    exact List.sublist_append_left kept rest
  have keptReceives : Refund.unitsReceived kept = 0 :=
    Refund.unitsReceived_eq_zero fun posting member =>
      carriesOut.kinds isRefund posting (among.subset member)
  have keptRefunds :
      Refund.unitsRefunded kept ≤ Refund.unitsRefunded plan.postings :=
    Refund.unitsPosted_le_of_sublist carriesOut.sound among
  rw [AccountPlan.unitsApplied, if_pos isRefund] at positive refundable
  -- What is refunded was received, so something was posted before.
  have nonempty : history ≠ [] := by
    rintro rfl
    have nothing : Refund.unitsReceived [] = 0 := rfl
    omega
  refine
    { sameDebt := standing.sameDebt
      scale_eq := standing.scale_eq
      nonneg := standing.nonneg
      sound := standing.sound.append (carriesOut.sound.of_sublist among)
      received_le := ?_
      refunded_le := ?_
      untouched := ?_
      closed_iff := fun _ => standing.closed_iff nonempty }
  · rw [Refund.unitsReceived_append]
    omega
  · rw [Refund.unitsRefunded_append]
    omega
  · intro none
    exact (nonempty (List.append_eq_nil_iff.mp none).1).elim

end Standing

namespace Stands

variable {scale : Nat} {loaded now after : Option Account}
  {history added : List Posting}

/-- A step of an account keeps how it stands. -/
theorem step
    {outcome : Outcome Receipt}
    {kind : ActionKind}
    (stands : Stands scale loaded now history)
    (taken : AccountStep outcome scale kind history now added after) :
    Stands scale loaded after (history ++ added) := by
  cases taken with
  | untouched =>
      rw [List.append_nil]
      exact stands
  | carriedOut isAllowed =>
      cases loaded with
      | none => exact stands.elim
      | some loaded =>
          exact Standing.carriedOut stands isAllowed
  | cutShort _ refunds isAllowed split =>
      cases loaded with
      | none => exact stands.elim
      | some loaded =>
          exact Standing.cutShort stands refunds isAllowed split

/-- What an account owes, has received and has refunded is what was loaded. -/
theorem bounded
    (stands : Stands scale loaded now history) :
    Refund.IsSound scale history ∧
      now.elim 0 (·.remaining.minorUnits) ≤
        loaded.elim 0 (·.remaining.minorUnits) ∧
      Refund.unitsReceived history ≤
        loaded.elim 0 (·.remaining.minorUnits) ∧
      Refund.unitsRefunded history ≤
        loaded.elim 0 (·.remaining.minorUnits) := by
  match loaded, now, stands with
  | none, none, stands =>
      obtain rfl : history = [] := stands
      exact ⟨fun money member => (List.not_mem_nil member).elim,
        Int.le_refl _, Int.le_refl _, Int.le_refl _⟩
  | some loaded, some now, stands =>
      have standing : Standing scale loaded now history := stands
      have nonneg := standing.nonneg
      have received := standing.received_le
      have refunded := standing.refunded_le
      have le := standing.le
      simp only [Option.elim_some]
      exact ⟨standing.sound, le, by omega, by omega⟩

end Stands

/-- An office with its entries is where calls can lead from what was loaded. -/
structure Office.IsReachedFrom
    (scale : Nat)
    (loaded : AccountBook)
    (office : Office)
    (entries : List LedgerEntry) : Prop where
  recorded : office.ledger = Ledger.ofEntries entries
  stands :
    ∀ id,
      Stands scale (loaded.find? id) (office.accounts.find? id)
        (postingsOn entries id)

namespace Office.IsReachedFrom

variable {scale : Nat} {loaded : AccountBook} {office : Office}
  {entries : List LedgerEntry}

/-- An office in which nothing was recorded is reached from its own accounts. -/
theorem start
    (inRange : office.accounts.IsInRange scale)
    (recorded : office.ledger = Ledger.empty) :
    office.IsReachedFrom scale office.accounts [] where
  recorded := recorded
  stands := by
    intro id
    cases found : office.accounts.find? id with
    | none =>
        rfl
    | some account =>
        obtain ⟨atScale, nonneg⟩ := inRange.sound found
        exact Standing.ofLoaded atScale nonneg

/-- Of any accounts, bounds by what was loaded keep their sums in range. -/
theorem sum_lt
    (inRange : loaded.IsInRange scale)
    {count : AccountId → Int}
    (bounded :
      ∀ id, count id ≤ (loaded.find? id).elim 0 (·.remaining.minorUnits))
    {ids : List AccountId}
    (distinct : ids.Nodup) :
    (ids.map count).sum < twoTo 95 := by
  have owed := inRange.owed_lt distinct
  rw [AccountBook.sum_findEach] at owed
  have together :
      (ids.map count).sum ≤
        (ids.map fun id =>
          (loaded.find? id).elim 0 (·.remaining.minorUnits)).sum := by
    apply List.sum_le_sum
    intro id _
    exact bounded id
  exact Int.lt_of_le_of_lt together owed

/-- Stores that calls can lead to are in range. -/
theorem inRange
    (reached : office.IsReachedFrom scale loaded entries)
    (inRange : loaded.IsInRange scale) :
    office.accounts.IsInRange scale ∧ ArePostedInRange scale entries := by
  have bounded := fun id => (reached.stands id).bounded
  constructor
  · constructor
    · intro id account found
      have stands := reached.stands id
      rw [found] at stands
      cases before : loaded.find? id with
      | none =>
          rw [before] at stands
          exact stands.elim
      | some earlier =>
          rw [before] at stands
          have standing : Standing scale earlier account _ := stands
          exact ⟨standing.scale_eq, standing.nonneg⟩
    · intro ids distinct
      rw [AccountBook.sum_findEach]
      exact sum_lt inRange (fun id => (bounded id).2.1) distinct
  · exact
      { sound := fun id => (bounded id).1
        received_lt := sum_lt inRange fun id => (bounded id).2.2.1
        refunded_lt := sum_lt inRange fun id => (bounded id).2.2.2 }

end Office.IsReachedFrom

namespace Office.IsReachedFrom

variable {engine : Engine} {loaded : AccountBook} {office : Office}
  {entries : List LedgerEntry}

/-- A call leads on, by a step of each account. -/
theorem perform
    (reached : office.IsReachedFrom engine.scale loaded entries)
    (inRange : loaded.IsInRange engine.scale)
    (call : Call) :
    ∃ added,
      (office.run (engine.perform call)).2.IsReachedFrom engine.scale loaded
          (entries ++ added) ∧
        ∀ id,
          AccountStep (office.run (engine.perform call)).1 engine.scale
            call.kind (postingsOn entries id)
            (office.accounts.find? id) (postingsOn added id)
            ((office.run (engine.perform call)).2.accounts.find? id) := by
  obtain ⟨owed, posted⟩ := reached.inRange inRange
  obtain ⟨added, recorded, steps⟩ :=
    engine.perform_accountStep call reached.recorded owed posted
  refine ⟨added, ⟨recorded, fun id => ?_⟩, steps⟩
  rw [postingsOn_append]
  exact (reached.stands id).step (steps id)

end Office.IsReachedFrom

end PatronFees
