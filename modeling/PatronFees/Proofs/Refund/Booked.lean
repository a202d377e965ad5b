import PatronFees.Proofs.Refund

namespace PatronFees.Refund

open List

/-!
# What a refund books

A refund of a share first credits the whole share to the account and then records
that it was refunded, each time payments before transfers. So its balances go down
by the share and come back to where they started.
-/

namespace Breakdown

variable {account : Account} {options : ActionOptions} {full : Bool}

/-- The balance that postings leave, if there are any. -/
def balanceLeft
    (balance : Money)
    (postings : List Posting) : Money :=
  postings.foldl (fun _ posting => posting.balance) balance

/-- Postings that lead to a balance leave it. -/
theorem minorUnits_balanceLeft
    {scale : Nat}
    {balance : Money}
    {postings : List Posting}
    {final : Int}
    (atScale : balance.scale = scale)
    (leads :
      LeadsTo scale balance.minorUnits
        (postings.map fun posting => (.refund, posting)) final) :
    (balanceLeft balance postings).scale = scale ∧
      (balanceLeft balance postings).minorUnits = final := by
  induction postings generalizing balance with
  | nil =>
      exact ⟨atScale, leads⟩
  | cons posting rest inductionHypothesis =>
      obtain ⟨postedScale, -, later⟩ := leads
      exact inductionHypothesis postedScale later

/-- Steps go on from the balance that the steps before them leave. -/
theorem postingsFrom_append
    {balance : Money}
    {first second : List Step}
    {early late : List Posting}
    (posted : postingsFrom account options full balance first = .ok early)
    (onward :
      postingsFrom account options full (balanceLeft balance early) second =
        .ok late) :
    postingsFrom account options full balance (first ++ second) =
      .ok (early ++ late) := by
  induction first generalizing balance early with
  | nil =>
      obtain rfl := Except.ok.inj posted
      exact onward
  | cons step rest inductionHypothesis =>
      obtain ⟨after, changed, postedRest⟩ := Outcome.bind_eq_ok_iff.mp posted
      obtain ⟨others, postedOthers, same⟩ := Outcome.bind_eq_ok_iff.mp postedRest
      obtain rfl := Except.ok.inj same
      have together := inductionHypothesis postedOthers onward
      simp only [cons_append, postingsFrom, changed, together, Outcome.ok_bind,
        Outcome.pure_eq]

/-- The parts of a refund of one kind, those of nothing left out. -/
def parts
    (breakdown : Breakdown)
    (kind : ActionKind)
    (forPatron forBursar : String) : List Step :=
  [⟨kind, breakdown.forPayments, forPatron⟩,
    ⟨kind, breakdown.forTransfers, forBursar⟩].filter
      fun step => !step.amount.isZero

/-- A refund credits its parts and then refunds them. -/
theorem steps_eq (breakdown : Breakdown) :
    breakdown.steps =
      breakdown.parts .credit "Refund to patron" "Refund to Bursar" ++
        breakdown.parts .refund "Refunded to patron" "Refunded to Bursar" := by
  rw [parts, parts, ← filter_append]
  rfl

/--
Postings under one label that give back a share: at most one for payments and one for
transfers, in this order, of the amounts of the breakdown.
-/
structure Books
    (breakdown : Breakdown)
    (account : Account)
    (label forPatron forBursar : String)
    (share : Int)
    (postings : List Posting) : Prop where
  notEmpty : postings ≠ []
  few : postings.length ≤ 2
  onAccount : ∀ posting ∈ postings, posting.account = account.id
  labelled : ∀ posting ∈ postings, posting.actionType = label
  inOrder :
    (postings.map fun posting => (posting.transactionInformation, posting.amount)) <+
      [(some forPatron, breakdown.forPayments),
        (some forBursar, breakdown.forTransfers)]
  positive : ∀ posting ∈ postings, 0 < posting.amount.minorUnits
  adds : Money.unitsOf (postings.map (·.amount)) = share

section Parts

variable {scale : Nat} {share : Int} {breakdown : Breakdown} {kind : ActionKind}
  {forPatron forBursar : String}

/-- The parts of a share in range are steps in range, and none is of nothing. -/
theorem isInRange_of_mem_parts
    (divides : breakdown.Divides scale share)
    (shareIn : share < twoTo 96)
    (kinds : kind = .credit ∨ kind = .refund)
    {step : Step}
    (member : step ∈ breakdown.parts kind forPatron forBursar) :
    step.IsInRange scale ∧ step.kind = kind ∧ 0 < step.amount.minorUnits := by
  have adds := divides.adds
  have paymentsNonneg := divides.payments_nonneg
  have transfersNonneg := divides.transfers_nonneg
  obtain ⟨among, something⟩ := mem_filter.mp member
  have notZero : step.amount.minorUnits ≠ 0 := by
    intro zero
    rw [step.amount.isZero_iff.mpr zero] at something
    cases something
  simp only [mem_cons, not_mem_nil, or_false] at among
  rcases among with rfl | rfl
  · dsimp only at notZero ⊢
    exact
      ⟨⟨kinds, divides.payments_scale, paymentsNonneg, by dsimp only; omega⟩,
        rfl, by omega⟩
  · dsimp only at notZero ⊢
    exact
      ⟨⟨kinds, divides.transfers_scale, transfersNonneg, by dsimp only; omega⟩,
        rfl, by omega⟩

/-- The parts add up to the share, all of them of their kind. -/
theorem unitsStepped_parts
    (divides : breakdown.Divides scale share)
    (other : ActionKind) :
    unitsStepped other (breakdown.parts kind forPatron forBursar) =
      if kind = other then share else 0 := by
  rw [parts, unitsStepped_filter, ← divides.adds]
  by_cases same : kind = other <;> simp [unitsStepped, same]

/-- Steps of one kind come to the sum of their amounts. -/
theorem unitsStepped_of_kind
    {steps : List Step}
    (kinds : ∀ step ∈ steps, step.kind = kind) :
    unitsStepped kind steps = Money.unitsOf (steps.map (·.amount)) := by
  rw [unitsStepped, Money.unitsOf, map_map]
  congr 1
  apply map_congr_left
  intro step member
  rw [if_pos (kinds step member)]
  rfl

/-- The parts of a share, once posted, give it back. -/
theorem books_of_posted
    (divides : breakdown.Divides scale share)
    (shareIn : share < twoTo 96)
    (positive : 0 < share)
    (kinds : kind = .credit ∨ kind = .refund)
    {postings : List Posting}
    (posted :
      Forall₂ (Step.IsPostedBy account options breakdown.isFull)
        (breakdown.parts kind forPatron forBursar) postings) :
    breakdown.Books account (kind.label breakdown.isFull) forPatron forBursar share
        postings ∧
      ∀ posting ∈ postings,
        posting.notify = (options.notifyPatron && kind != .credit) := by
  have each :
      ∀ posting ∈ postings,
        ∃ (step : Step) (after : Money),
          posting = step.posting account options breakdown.isFull after ∧
            step.kind = kind ∧ 0 < step.amount.minorUnits := by
    intro posting member
    obtain ⟨step, among, after, isPosted⟩ := exists_of_forall₂ posted member
    obtain ⟨-, ofKind, notZero⟩ :=
      isInRange_of_mem_parts divides shareIn kinds among
    exact ⟨step, after, isPosted, ofKind, notZero⟩
  have named :
      (postings.map fun posting =>
          (posting.transactionInformation, posting.amount)) =
        (breakdown.parts kind forPatron forBursar).map fun step =>
          (some step.information, step.amount) := by
    apply map_eq_map_of_forall₂
    refine posted.imp ?_
    rintro step posting ⟨after, rfl⟩
    rfl
  have amounts :
      postings.map (·.amount) =
        (breakdown.parts kind forPatron forBursar).map (·.amount) := by
    apply map_eq_map_of_forall₂
    refine posted.imp ?_
    rintro step posting ⟨after, rfl⟩
    rfl
  have ofKind : ∀ step ∈ breakdown.parts kind forPatron forBursar, step.kind = kind :=
    fun step member => (isInRange_of_mem_parts divides shareIn kinds member).2.1
  have adds : Money.unitsOf (postings.map (·.amount)) = share := by
    rw [amounts, ← unitsStepped_of_kind ofKind, unitsStepped_parts divides, if_pos rfl]
  constructor
  · exact
      { notEmpty := by
          rintro rfl
          exact Int.ne_of_lt positive adds
        few := by
          rw [← posted.length_eq]
          exact length_filter_le _ _
        onAccount := by
          intro posting member
          obtain ⟨step, after, rfl, -⟩ := each posting member
          rfl
        labelled := by
          intro posting member
          obtain ⟨step, after, rfl, rfl, -⟩ := each posting member
          rfl
        inOrder := by
          rw [named]
          exact filter_sublist.map _
        positive := by
          intro posting member
          obtain ⟨step, after, rfl, -, notZero⟩ := each posting member
          exact notZero
        adds := adds }
  · intro posting member
    obtain ⟨step, after, rfl, rfl, -⟩ := each posting member
    rfl

/-- The parts of a share can be posted from a balance that leaves them room. -/
theorem exists_books
    (account : Account)
    (options : ActionOptions)
    (forPatron forBursar : String)
    (divides : breakdown.Divides scale share)
    (shareIn : share < twoTo 96)
    (positive : 0 < share)
    (kinds : kind = .credit ∨ kind = .refund)
    {balance : Money}
    (balanceScale : balance.scale = scale)
    (credited :
      -(twoTo 96 : Int) < balance.minorUnits - if kind = .credit then share else 0)
    (refunded : (balance.minorUnits + if kind = .refund then share else 0) < twoTo 96) :
    ∃ postings,
      postingsFrom account options breakdown.isFull balance
          (breakdown.parts kind forPatron forBursar) = .ok postings ∧
        breakdown.Books account (kind.label breakdown.isFull) forPatron forBursar share
          postings ∧
        (∀ posting ∈ postings,
          posting.notify = (options.notifyPatron && kind != .credit)) ∧
        LeadsTo scale balance.minorUnits
          (postings.map fun posting => (.refund, posting))
          ((balance.minorUnits - if kind = .credit then share else 0) +
            if kind = .refund then share else 0) := by
  have units := @unitsStepped_parts scale share breakdown kind forPatron forBursar divides
  rw [← units] at credited refunded
  rw [← units, ← units]
  obtain ⟨postings, posted, -, leads⟩ :=
    @postingsFrom_leads scale account (breakdown.parts kind forPatron forBursar)
      options breakdown.isFull
      (fun step member => (isInRange_of_mem_parts divides shareIn kinds member).1)
      balance balanceScale credited refunded
  obtain ⟨books, told⟩ :=
    books_of_posted divides shareIn positive kinds (posted_of_postingsFrom posted)
  exact ⟨postings, posted, books, told, leads⟩

end Parts

/-- A label tells whether everything goes back. -/
theorem label_eq
    {breakdown : Breakdown}
    {share received : Int}
    (full : breakdown.isFull = true ↔ share = received)
    (kind : ActionKind) :
    kind.label breakdown.isFull =
      if share = received then kind.fullLabel else kind.partialLabel := by
  rw [ActionKind.label]
  simp only [full]

/--
A refund on an account is booked: all credits before all refunds, each of the whole
share and labelled by whether that is all that was received; the balances lead down
by the share and back to where they started; and only refunds tell the patron.
-/
structure IsBooked
    (breakdown : Breakdown)
    (account : Account)
    (options : ActionOptions)
    (received : Int)
    (share : Money)
    (credits refunds : List Posting) : Prop where
  posted : breakdown.postings account options = .ok (credits ++ refunds)
  atLeast : 2 ≤ (credits ++ refunds).length
  atMost : (credits ++ refunds).length ≤ 4
  credited :
    breakdown.Books account
      (if share.minorUnits = received then "Credited fully" else "Credited partially")
      "Refund to patron" "Refund to Bursar" share.minorUnits credits
  refunded :
    breakdown.Books account
      (if share.minorUnits = received then "Refunded fully" else "Refunded partially")
      "Refunded to patron" "Refunded to Bursar" share.minorUnits refunds
  down :
    LeadsTo share.scale account.remaining.minorUnits
      (credits.map fun posting => (.refund, posting))
      (account.remaining.minorUnits - share.minorUnits)
  up :
    LeadsTo share.scale (account.remaining.minorUnits - share.minorUnits)
      (refunds.map fun posting => (.refund, posting))
      account.remaining.minorUnits
  left :
    ∃ last,
      (credits ++ refunds).getLast? = some last ∧
        last.balance.equals account.remaining = true
  quiet : ∀ posting ∈ credits, posting.notify = false
  told : ∀ posting ∈ refunds, posting.notify = options.notifyPatron

/-- A share that is divided is credited in full and then refunded in full. -/
theorem Divides.exists_isBooked
    {share : Money}
    {breakdown : Breakdown}
    (divides : breakdown.Divides share.scale share.minorUnits)
    (positive : 0 < share.minorUnits)
    (shareIn : share.minorUnits < twoTo 96)
    (atScale : account.remaining.scale = share.scale)
    (startIn : account.remaining.minorUnits < twoTo 96)
    (creditedIn :
      -(twoTo 96 : Int) < account.remaining.minorUnits - share.minorUnits)
    {received : Int}
    (full : breakdown.isFull = true ↔ share.minorUnits = received)
    (options : ActionOptions) :
    ∃ credits refunds,
      breakdown.IsBooked account options received share credits refunds := by
  obtain ⟨credits, postedCredits, booksCredits, quiet, down⟩ :=
    exists_books account options "Refund to patron" "Refund to Bursar" divides
      shareIn positive (.inl rfl) atScale
      (by rw [if_pos rfl]; exact creditedIn)
      (by rw [if_neg (by decide)]; omega)
  rw [if_pos rfl, if_neg (by decide), Int.add_zero] at down
  -- The refunds start from the balance that the credits leave.
  obtain ⟨leftScale, leftUnits⟩ := minorUnits_balanceLeft atScale down
  obtain ⟨refunds, postedRefunds, booksRefunds, told, up⟩ :=
    exists_books account options "Refunded to patron" "Refunded to Bursar" divides
      shareIn positive (.inr rfl) leftScale
      (by rw [if_neg (by decide), leftUnits]; omega)
      (by rw [if_pos rfl, leftUnits]; omega)
  rw [if_pos rfl, if_neg (by decide), leftUnits, Int.sub_zero, Int.sub_add_cancel]
    at up
  rw [label_eq full] at booksCredits booksRefunds
  have someCredits := length_pos_iff.mpr booksCredits.notEmpty
  have someRefunds := length_pos_iff.mpr booksRefunds.notEmpty
  have fewCredits := booksCredits.few
  have fewRefunds := booksRefunds.few
  obtain ⟨last, isLast⟩ :=
    Option.isSome_iff_exists.mp (getLast?_isSome.mpr booksRefunds.notEmpty)
  have lastOfAll : (credits ++ refunds).getLast? = some last := by
    rw [getLast?_append, isLast]
    rfl
  have lastOfSteps :
      ((credits.map fun posting => (ActionKind.refund, posting)) ++
          refunds.map fun posting => (ActionKind.refund, posting)).getLast? =
        some (ActionKind.refund, last) := by
    rw [← map_append, getLast?_map, lastOfAll]
    rfl
  have leadsBack := (down.append up).getLast?_balance lastOfSteps
  exact
    ⟨credits, refunds,
      { posted := by
          rw [postings, steps_eq]
          exact postingsFrom_append postedCredits postedRefunds
        atLeast := by rw [length_append]; omega
        atMost := by rw [length_append]; omega
        credited := booksCredits
        refunded := booksRefunds
        down := down
        up := up
        left := ⟨last, lastOfAll,
          Money.equals_of_units leadsBack.1 atScale leadsBack.2⟩
        quiet := by
          intro posting member
          rw [quiet posting member]
          exact Bool.and_false _
        told := by
          intro posting member
          rw [told posting member]
          exact Bool.and_true _ }⟩

/--
A breakdown gives a share back out of what was paid and transferred: payments
first, and transfers only once all payments go back.
-/
structure GivesBack
    (history : List Posting)
    (share : Int)
    (breakdown : Breakdown) : Prop where
  payments_nonneg : 0 ≤ breakdown.forPayments.minorUnits
  payments_le : breakdown.forPayments.minorUnits ≤ unitsPosted [.pay] history
  transfers_nonneg : 0 ≤ breakdown.forTransfers.minorUnits
  transfers_le :
    breakdown.forTransfers.minorUnits ≤ unitsPosted [.transfer] history
  adds :
    breakdown.forPayments.minorUnits + breakdown.forTransfers.minorUnits = share
  paymentsFirst :
    0 < breakdown.forTransfers.minorUnits →
      breakdown.forPayments.minorUnits = unitsPosted [.pay] history
  isFull :
    breakdown.isFull = true ↔
      share = unitsPosted [.pay] history + unitsPosted [.transfer] history

/-- A share of no more than is refundable is given back. -/
theorem IsOf.givesBack
    {history : List Posting}
    {share : Money}
    {breakdown : Breakdown}
    (isOf : breakdown.IsOf history share)
    (sound : IsSound share.scale history)
    (positive : 0 < share.minorUnits)
    (within : share.minorUnits ≤ unitsReceived history - unitsRefunded history) :
    breakdown.GivesBack history share.minorUnits := by
  have divided := unitsReceived_eq history
  -- Refunds count against the share, so it is no more than was ever received.
  have refundedNonneg := sound.unitsRefunded_nonneg
  have paidNonneg : 0 ≤ unitsPosted [.pay] history := unitsPosted_nonneg sound
  have transferredNonneg : 0 ≤ unitsPosted [.transfer] history :=
    unitsPosted_nonneg sound
  have payments := isOf.payments
  have adds := isOf.adds
  exact
    { payments_nonneg := by omega
      payments_le := by omega
      transfers_nonneg := by omega
      transfers_le := by omega
      adds := adds
      paymentsFirst := fun some => by omega
      isFull := by rw [isOf.isFull]; omega }

end Breakdown

/--
A refund of no more than is refundable on a history gives back what was paid before
what was transferred, and no more than either. It is booked on its account with two
to four postings, labelled as full exactly if all that was paid and transferred goes
back.
-/
theorem refund_is_booked
    {account : Account}
    {history : List Posting}
    {requested available : Money}
    (options : ActionOptions)
    (sound : IsSound requested.scale history)
    (receivedIn : unitsReceived history < twoTo 96)
    (refundedIn : unitsRefunded history < twoTo 96)
    (atScale : account.remaining.scale = requested.scale)
    (startIn : account.remaining.minorUnits < twoTo 96)
    (creditedIn :
      -(twoTo 96 : Int) < account.remaining.minorUnits - requested.minorUnits)
    (measured : refundable history requested.scale = .ok available)
    (positive : 0 < requested.minorUnits)
    (within : requested ≤ available) :
    ∃ breakdown credits refunds,
      Breakdown.calculate history requested = .ok breakdown ∧
        breakdown.GivesBack history requested.minorUnits ∧
        breakdown.IsBooked account options
          (unitsPosted [.pay] history + unitsPosted [.transfer] history) requested
          credits refunds := by
  have refundedNonneg := sound.unitsRefunded_nonneg
  obtain ⟨left, measuredLeft, leftScale, leftUnits⟩ :=
    refundable_eq requested.scale_le sound receivedIn refundedIn
  obtain rfl := Except.ok.inj (measuredLeft.symm.trans measured)
  rw [Money.le_iff leftScale, leftUnits] at within
  obtain ⟨breakdown, calculated, isOf⟩ :=
    Breakdown.calculate_isOf sound receivedIn (by omega) (by omega)
  have givesBack := isOf.givesBack sound positive within
  have divides : breakdown.Divides requested.scale requested.minorUnits :=
    { payments_scale := isOf.payments_scale
      transfers_scale := isOf.transfers_scale
      payments_nonneg := givesBack.payments_nonneg
      transfers_nonneg := givesBack.transfers_nonneg
      adds := givesBack.adds }
  obtain ⟨credits, refunds, isBooked⟩ :=
    divides.exists_isBooked positive (by omega) atScale startIn creditedIn
      givesBack.isFull options
  exact ⟨breakdown, credits, refunds, calculated, givesBack, isBooked⟩

/-- Of 6.00 paid and 4.00 transferred, 8.00 go back after 1.00 did, or all go back. -/
theorem refund_is_booked_bothParts :
    let account : Account :=
      { Account.new "a" "u" "Lost item" (.ofMinorUnits 1000 2) .epoch with
        remaining := .ofMinorUnits 250 2 }
    let options : ActionOptions := { ActionOptions.none with notifyPatron := true }
    let posted (kind : ActionKind) (units : Int64) :=
      Posting.ofAction account kind.partialLabel (.ofMinorUnits units 2) (.zero 2)
        options
    let received := [posted .pay 600, posted .transfer 400]
    let history := received ++ [posted .refund 100]
    let part := Money.ofMinorUnits 800 2
    let all := Money.ofMinorUnits 1000 2
    (refundable history 2 = .ok (.ofMinorUnits 900 2) ∧
        0 < part.minorUnits ∧
        part ≤ .ofMinorUnits 900 2 ∧
        ∃ breakdown credits refunds,
          Breakdown.calculate history part = .ok breakdown ∧
            breakdown.GivesBack history part.minorUnits ∧
            breakdown.IsBooked account options 1000 part credits refunds ∧
            ∀ posting ∈ refunds, posting.actionType = "Refunded partially") ∧
      refundable received 2 = .ok all ∧
      0 < all.minorUnits ∧
      ∃ breakdown credits refunds,
        Breakdown.calculate received all = .ok breakdown ∧
          breakdown.GivesBack received all.minorUnits ∧
          breakdown.IsBooked account options 1000 all credits refunds ∧
          ∀ posting ∈ refunds, posting.actionType = "Refunded fully" := by
  intro account options posted received history part all
  have measured : refundable history 2 = .ok (.ofMinorUnits 900 2) := by
    decide +kernel
  have measuredAll : refundable received 2 = .ok all := by
    decide +kernel
  have positive : 0 < part.minorUnits := by
    decide +kernel
  have positiveAll : 0 < all.minorUnits := by
    decide +kernel
  have within : part ≤ .ofMinorUnits 900 2 := by
    decide +kernel
  have withinAll : all ≤ all := by
    decide +kernel
  have sound : Money.AreSound 2 (history.map (·.amount)) := by
    decide +kernel
  have soundAll : Money.AreSound 2 (received.map (·.amount)) := by
    decide +kernel
  have units :
      unitsPosted [.pay] history + unitsPosted [.transfer] history = 1000 := by
    decide +kernel
  have unitsAll :
      unitsPosted [.pay] received + unitsPosted [.transfer] received = 1000 := by
    decide +kernel
  constructor
  · have booked :=
      @refund_is_booked account history part (.ofMinorUnits 900 2) options sound
        (by decide +kernel) (by decide +kernel) rfl (by decide +kernel)
        (by decide +kernel) measured positive within
    rw [units] at booked
    obtain ⟨breakdown, credits, refunds, calculated, givesBack, isBooked⟩ := booked
    exact ⟨measured, positive, within, breakdown, credits, refunds, calculated,
      givesBack, isBooked, isBooked.refunded.labelled⟩
  · have booked :=
      @refund_is_booked account received all all options soundAll
        (by decide +kernel) (by decide +kernel) rfl (by decide +kernel)
        (by decide +kernel) measuredAll positiveAll withinAll
    rw [unitsAll] at booked
    obtain ⟨breakdown, credits, refunds, calculated, givesBack, isBooked⟩ := booked
    exact ⟨measuredAll, positiveAll, breakdown, credits, refunds, calculated,
      givesBack, isBooked, isBooked.refunded.labelled⟩

end PatronFees.Refund
