import PatronFees.Proofs.Engine.Journal
import PatronFees.Proofs.Record

namespace PatronFees

/-!
# The lifecycle of an account

Over any run of calls, whatever is refused on the way, an account stays the same
fee or fine and owes less and less of its amount. It is closed when nothing is
owed any more, and a closed account stays closed and takes only refunds.
-/

/-- An account went on from one state to another by some steps. -/
structure Account.GoesOn
    (before after : Account)
    (steps : List (ActionKind × Posting)) : Prop where
  falls : after.remaining.minorUnits ≤ before.remaining.minorUnits
  nonneg : 0 ≤ before.remaining.minorUnits → 0 ≤ after.remaining.minorUnits
  stays :
    before.status = .closed →
      before.remaining.minorUnits = 0 →
        after.status = .closed ∧
          ∀ step ∈ steps,
            step.1 = .refund ∧
              (step.2.kind? = some .credit ∨ step.2.kind? = some .refund)

namespace Account.GoesOn

theorem refl (account : Account) :
    account.GoesOn account [] where
  falls := Int.le_refl _
  nonneg := fun nonneg => nonneg
  stays := fun closed _ => ⟨closed, fun _ none => (List.not_mem_nil none).elim⟩

theorem trans
    {first second third : Account}
    {early late : List (ActionKind × Posting)}
    (onward : first.GoesOn second early)
    (further : second.GoesOn third late) :
    first.GoesOn third (early ++ late) where
  falls := Int.le_trans further.falls onward.falls
  nonneg := fun nonneg => further.nonneg (onward.nonneg nonneg)
  stays := by
    intro closed nothing
    have falls := onward.falls
    have nonneg := onward.nonneg (by omega)
    obtain ⟨stillClosed, earlyKinds⟩ := onward.stays closed nothing
    obtain ⟨closedLast, lateKinds⟩ := further.stays stillClosed (by omega)
    refine ⟨closedLast, fun step member => ?_⟩
    rcases List.mem_append.mp member with inEarly | inLate
    · exact earlyKinds step inEarly
    · exact lateKinds step inLate

/-- A step of an account lets it go on. -/
theorem of_step
    {outcome : Outcome Receipt}
    {scale : Nat}
    {kind : ActionKind}
    {history added : List Posting}
    {before : Account}
    {now : Option Account}
    (taken : AccountStep outcome scale kind history (some before) added now) :
    ∃ after,
      now = some after ∧
        before.GoesOn after (added.map fun posting => (kind, posting)) := by
  cases taken with
  | untouched =>
      exact ⟨before, rfl, refl before⟩
  | @carriedOut _ plan isAllowed =>
      have carriesOut := isAllowed.carriesOut
      refine ⟨plan.account, rfl, carriesOut.le, fun _ => carriesOut.nonneg,
        fun closed nothing => ?_⟩
      -- The check lets only a refund pass, and it leaves what is owed.
      have isRefund : kind = .refund :=
        Classical.byContradiction fun notRefund =>
          isAllowed.owing notRefund closed nothing
      have remaining := carriesOut.remaining_eq
      rw [if_pos isRefund] at remaining
      refine ⟨carriesOut.closed_iff.mpr (remaining.trans nothing), ?_⟩
      intro step member
      obtain ⟨posting, inPlan, rfl⟩ := List.mem_map.mp member
      exact ⟨isRefund, carriesOut.kinds isRefund posting inPlan⟩
  | cutShort _ isRefund isAllowed split =>
      refine ⟨before, rfl, Int.le_refl _, fun nonneg => nonneg,
        fun closed _ => ⟨closed, ?_⟩⟩
      intro step member
      obtain ⟨posting, kept, rfl⟩ := List.mem_map.mp member
      refine ⟨isRefund, isAllowed.carriesOut.kinds isRefund posting ?_⟩
      rw [split]
      exact List.mem_append_left _ kept

/-- Going on holds over any steps, whatever the outcomes. -/
theorem holdsOverSteps (scale : Nat) :
    HoldsOverSteps scale (fun _ => True) GoesOn where
  refl := refl
  trans := trans
  step := fun _ taken => of_step taken

end Account.GoesOn

/--
The life of an account: how it was loaded, how it stood after some entries, and
how it stands now that calls added others.
-/
structure Account.HasLived
    (loaded before now : Account)
    (earlier : List LedgerEntry)
    (added : Journal) : Prop where
  sameDebt : now.IsSameDebt loaded
  notNegative : now.remaining.isNegative = false
  within : now.remaining ≤ now.amount
  falls : now.remaining ≤ before.remaining
  settled : now.status = .closed → now.remaining.isZero = true
  closes :
    earlier ++ added.map Prod.snd ≠ [] →
      (now.status = .closed ↔ now.remaining.isZero = true)
  /-- A closed account is never reopened, and it takes nothing but refunds. -/
  stays :
    before.status = .closed →
      now.status = .closed ∧
        ∀ step ∈ added,
          step.1 = .refund ∧
            (step.2.kind? = some .credit ∨ step.2.kind? = some .refund)

/-- The history of an account is what was posted on it. -/
theorem postingsOn_eq_historyOf
    {office : Office}
    {entries : List LedgerEntry}
    (recorded : office.ledger = Ledger.ofEntries entries)
    (id : AccountId) :
    postingsOn entries id = (office.ledger.historyOf id).map (·.posting) := by
  rw [recorded, Ledger.historyOf_ofEntries]
  rfl

/-- An account that stands as loaded, or owes nothing once closed, is settled. -/
theorem Standing.settled
    {scale : Nat}
    {loaded now : Account}
    {history : List Posting}
    (standing : Standing scale loaded now history)
    (accepted : loaded.IsAccepted scale)
    (closed : now.status = .closed) :
    now.remaining.minorUnits = 0 := by
  by_cases nothing : history = []
  · have same := standing.untouched nothing
    subst same
    exact accepted.settled closed
  · exact (standing.closed_iff nothing).mp closed

/-- An account that stands and went on has lived as accounts do. -/
theorem Standing.hasLived
    {scale : Nat}
    {loaded before now : Account}
    {earlier : List LedgerEntry}
    {added : Journal}
    (accepted : loaded.IsAccepted scale)
    (stood : Standing scale loaded before (earlier.map (·.posting)))
    (stands :
      Standing scale loaded now
        ((earlier ++ added.map Prod.snd).map (·.posting)))
    (goesOn :
      before.GoesOn now (added.map fun step => (step.1, step.2.posting))) :
    loaded.HasLived before now earlier added := by
  have sameAmount := stands.sameDebt.amount
  have nonneg := stands.nonneg
  have isZero := now.remaining.isZero_iff
  refine
    { sameDebt := stands.sameDebt
      notNegative := ?_
      within := ?_
      falls := ?_
      settled := fun closed => isZero.mpr (stands.settled accepted closed)
      closes := ?_
      stays := ?_ }
  · rw [Bool.eq_false_iff]
    intro negative
    have := now.remaining.isNegative_iff.mp negative
    omega
  · rw [sameAmount]
    have le := stands.le
    have within := accepted.le
    exact (Money.le_iff (accepted.amount_scale.trans stands.scale_eq.symm)).mpr
      (by omega)
  · exact (Money.le_iff (stood.scale_eq.trans stands.scale_eq.symm)).mpr
      goesOn.falls
  · intro recorded
    have posted : (earlier ++ added.map Prod.snd).map (·.posting) ≠ [] :=
      mt List.map_eq_nil_iff.mp recorded
    rw [isZero]
    exact stands.closed_iff posted
  · intro closed
    obtain ⟨stillClosed, kinds⟩ :=
      goesOn.stays closed (stood.settled accepted closed)
    refine ⟨stillClosed, fun step member => ?_⟩
    exact kinds (step.1, step.2.posting)
      (List.mem_map_of_mem
        (f := fun step : ActionKind × LedgerEntry => (step.1, step.2.posting))
        member)

/--
Accounts are loaded from records that were accepted, below `2 ^ 95` units of
their amounts together. Whatever calls are made one after another, each account
that was loaded lives on, and there is never any other.
-/
theorem lifecycle
    {scale : Nat}
    {records : List AccountRecord}
    {accounts : List Account}
    (accepted : records.mapM (·.toAccount scale) = .ok accounts)
    (inRange : (accounts.map (·.amount.minorUnits)).sum < twoTo 95)
    (firstId : Nat)
    (clock : Timestamp)
    (earlier later : List Call)
    (id : AccountId) :
    let engine := Engine.new scale
    let opened := Office.opened (AccountBook.ofList accounts) firstId clock
    let midway := engine.performAll opened earlier
    let finished := engine.performAll midway later
    let added := (engine.journal midway later).on id
    match opened.accounts.find? id with
    | none =>
        finished.accounts.find? id = none ∧ finished.ledger.historyOf id = []
    | some loaded =>
        ∃ before now,
          midway.accounts.find? id = some before ∧
            finished.accounts.find? id = some now ∧
            finished.ledger.historyOf id =
              midway.ledger.historyOf id ++ added.map Prod.snd ∧
            loaded.HasLived before now (midway.ledger.historyOf id) added := by
  intro engine opened midway finished added
  have acceptedEach :
      ∀ account ∈ accounts, account.IsAccepted (min scale Money.maxScale) := by
    intro account member
    obtain ⟨record, -, read⟩ :=
      exists_of_forall₂ (Outcome.mapM_eq_ok_iff.mp accepted) member
    exact AccountRecord.isAccepted_of_toAccount read
  have bookInRange : opened.accounts.IsInRange engine.scale :=
    AccountBook.isInRange_ofList acceptedEach inRange
  have goesOver := Account.GoesOn.holdsOverSteps engine.scale
  have anyEnd := engine.endsWell_of_forall fun _ => trivial
  have reached := Office.IsReachedFrom.start bookInRange rfl
  obtain ⟨reachedMidway, goneOn⟩ :=
    reached.performAll goesOver bookInRange (anyEnd opened earlier)
  obtain ⟨reachedFinished, goOn⟩ :=
    reachedMidway.performAll goesOver bookInRange (anyEnd midway later)
  have stood := reachedMidway.stands id
  have stands := reachedFinished.stands id
  rw [postingsOn_eq_historyOf reachedMidway.recorded] at stood
  rw [postingsOn_eq_historyOf reachedFinished.recorded] at stands
  cases loadedFound : opened.accounts.find? id with
  | none =>
      rw [loadedFound] at stands
      cases nowFound : finished.accounts.find? id with
      | none =>
          rw [nowFound] at stands
          exact ⟨rfl, List.map_eq_nil_iff.mp stands⟩
      | some now =>
          rw [nowFound] at stands
          exact stands.elim
  | some loaded =>
      obtain ⟨before, beforeFound, -⟩ := goneOn id loaded loadedFound
      obtain ⟨now, nowFound, goesOn⟩ := goOn id before beforeFound
      have history :
          finished.ledger.historyOf id =
            midway.ledger.historyOf id ++ added.map Prod.snd := by
        rw [reachedFinished.recorded, reachedMidway.recorded,
          Ledger.historyOf_ofEntries, Ledger.historyOf_ofEntries,
          List.filter_append, Journal.map_snd_on]
      rw [loadedFound, beforeFound] at stood
      rw [loadedFound, nowFound, history] at stands
      exact ⟨before, now, beforeFound, nowFound, history,
        Standing.hasLived
          (acceptedEach loaded (AccountBook.mem_of_find?_ofList loadedFound))
          stood stands goesOn⟩

/-- A lost item that is paid for and partly refunded has lived as accounts do. -/
theorem lifecycle_lostItem :
    let engine := Engine.new 2
    let earlier : List Call := [.single .pay "a" (some "12.50") .none]
    let later : List Call := [.bulk .refund ["a"] (some "2.50") .none]
    let midway := engine.performAll .withLostItem earlier
    let finished := engine.performAll midway later
    let added := (engine.journal midway later).on "a"
    [AccountRecord.lostItem].mapM (·.toAccount 2) = .ok [.lostItem] ∧
      ([Account.lostItem].map (·.amount.minorUnits)).sum < twoTo 95 ∧
      ∃ before now,
        midway.accounts.find? "a" = some before ∧
          finished.accounts.find? "a" = some now ∧
          finished.ledger.historyOf "a" =
            midway.ledger.historyOf "a" ++ added.map Prod.snd ∧
          Account.lostItem.HasLived before now
            (midway.ledger.historyOf "a") added := by
  have accepted :
      [AccountRecord.lostItem].mapM (·.toAccount 2) = .ok [.lostItem] := rfl
  have inRange :
      ([Account.lostItem].map (·.amount.minorUnits)).sum < twoTo 95 := by
    decide
  exact ⟨accepted, inRange, lifecycle accepted inRange 1 .epoch _ _ "a"⟩

end PatronFees
