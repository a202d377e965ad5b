import PatronFees.Proofs.Engine.Review
import PatronFees.Proofs.Engine.Steps
import PatronFees.Proofs.Ledger

namespace PatronFees

/-!
# Stores in range

Stores are in range when no accounts owe, and no accounts have received or given
back, as much as `2 ^ 95` smallest units together. What a review of such stores
accepts is in range, and it has the whole history of every account that counts
for refunds.
-/

/-- What was posted on an account, in the order of recording. -/
def postingsOn
    (entries : List LedgerEntry)
    (account : AccountId) : List Posting :=
  (entries.filter (·.account == account)).map (·.posting)

/-- What was posted on any of some accounts, in the order of recording. -/
def postingsOnAny
    (entries : List LedgerEntry)
    (accounts : List AccountId) : List Posting :=
  (entries.map (·.posting)).filter (accounts.contains <| ·.account)

/-- What was posted on an account is posted on it among all postings. -/
theorem postingsOn_eq
    (entries : List LedgerEntry)
    (account : AccountId) :
    postingsOn entries account =
      (entries.map (·.posting)).filter (·.account == account) := by
  rw [postingsOn, List.filter_map]
  rfl

theorem postingsOn_append
    (earlier later : List LedgerEntry)
    (account : AccountId) :
    postingsOn (earlier ++ later) account =
      postingsOn earlier account ++ postingsOn later account := by
  simp [postingsOn]

/-- Accounts owe amounts at a scale, below `2 ^ 95` units together. -/
structure AccountBook.IsInRange
    (scale : Nat)
    (book : AccountBook) : Prop where
  sound :
    ∀ {id account},
      book.find? id = some account →
        account.remaining.scale = scale ∧ 0 ≤ account.remaining.minorUnits
  owed_lt :
    ∀ {ids : List AccountId},
      ids.Nodup →
        ((book.findEach ids).map (·.remaining.minorUnits)).sum < twoTo 95

/-- A book is in range if all accounts that it can find are in a list that is. -/
theorem AccountBook.isInRange_of_listed
    {scale : Nat}
    {book : AccountBook}
    {accounts : List Account}
    (listed : ∀ {id account}, book.find? id = some account → account ∈ accounts)
    (sound : Money.AreSound scale (accounts.map (·.remaining)))
    (inRange : Money.unitsOf (accounts.map (·.remaining)) < twoTo 95) :
    book.IsInRange scale where
  sound := fun found => sound _ (List.mem_map_of_mem (listed found))
  owed_lt := by
    intro ids distinct
    refine Int.lt_of_le_of_lt ?_ inRange
    rw [Money.unitsOf, List.map_map]
    apply sum_findEach_le distinct
    · intro account member
      exact listed (find?_of_mem_findEach member).2
    · intro account member
      exact (sound _ (List.mem_map_of_mem member)).2

/-- Postings are of amounts at a scale, below `2 ^ 95` units in and out. -/
structure ArePostedInRange
    (scale : Nat)
    (entries : List LedgerEntry) : Prop where
  sound : ∀ account, Refund.IsSound scale (postingsOn entries account)
  received_lt :
    ∀ {ids : List AccountId},
      ids.Nodup →
        (ids.map fun id => Refund.unitsReceived (postingsOn entries id)).sum <
          twoTo 95
  refunded_lt :
    ∀ {ids : List AccountId},
      ids.Nodup →
        (ids.map fun id => Refund.unitsRefunded (postingsOn entries id)).sum <
          twoTo 95

/-- What was posted on any of distinct accounts was posted on one of them. -/
theorem unitsPosted_postingsOnAny
    {ids : List AccountId}
    (distinct : ids.Nodup)
    (entries : List LedgerEntry)
    (kinds : List ActionKind) :
    Refund.unitsPosted kinds (postingsOnAny entries ids) =
      (ids.map fun id =>
        Refund.unitsPosted kinds (postingsOn entries id)).sum := by
  simp only [postingsOn_eq]
  exact (sum_map_filter (fun posting : Posting => posting.account)
    (Refund.unitsAs kinds) (entries.map (·.posting)) distinct).symm

/-- Of distinct accounts, no more is received or refunded than was posted. -/
theorem sum_unitsPosted_le
    {scale : Nat}
    {entries : List LedgerEntry}
    (sound : Refund.IsSound scale (entries.map (·.posting)))
    {ids : List AccountId}
    (distinct : ids.Nodup)
    (kinds : List ActionKind) :
    (ids.map fun id =>
        Refund.unitsPosted kinds (postingsOn entries id)).sum ≤
      Money.unitsOf (entries.map (·.posting.amount)) := by
  calc
    (ids.map fun id => Refund.unitsPosted kinds (postingsOn entries id)).sum
      = Refund.unitsPosted kinds (postingsOnAny entries ids) :=
        (unitsPosted_postingsOnAny distinct entries kinds).symm
    _ ≤ Refund.unitsPosted kinds (entries.map (·.posting)) :=
        Refund.unitsPosted_le_of_sublist sound List.filter_sublist
    _ ≤ Money.unitsOf ((entries.map (·.posting)).map (·.amount)) :=
        Refund.unitsPosted_le sound
    _ = Money.unitsOf (entries.map (·.posting.amount)) := by
        rw [List.map_map]
        rfl

/-- Entries are in range if all amounts together are. -/
theorem arePostedInRange_of_total
    {scale : Nat}
    {entries : List LedgerEntry}
    (sound : Money.AreSound scale (entries.map (·.posting.amount)))
    (inRange : Money.unitsOf (entries.map (·.posting.amount)) < twoTo 95) :
    ArePostedInRange scale entries := by
  have soundPostings : Refund.IsSound scale (entries.map (·.posting)) := by
    rw [Refund.IsSound, List.map_map]
    exact sound
  refine ⟨?_, ?_, ?_⟩
  · intro account
    rw [postingsOn_eq]
    exact soundPostings.of_sublist List.filter_sublist
  · intro ids distinct
    exact Int.lt_of_le_of_lt (sum_unitsPosted_le soundPostings distinct _) inRange
  · intro ids distinct
    exact Int.lt_of_le_of_lt (sum_unitsPosted_le soundPostings distinct _) inRange

/-- What was paid, transferred and refunded on an account, as refunds find it. -/
def Office.refundHistoryOf
    (office : Office)
    (id : AccountId) : List Posting :=
  (office.ledger.find [id] Engine.refundHistory).map (·.posting)

namespace Engine

variable {engine : Engine} {office : Office} {kind : ActionKind}
  {accounts : List AccountId} {amount : Option String} {reviewed : Reviewed}
  {entries : List LedgerEntry}

/-- A posting counts for refunds. -/
def countsForRefunds (posting : Posting) : Bool :=
  match posting.kind? with
  | some kind => refundHistory.contains kind
  | none => false

/--
The label that a cancellation gets reads as one of a payment, a transfer or a
refund: its reason is free text, and the kind of an entry is read off its label.
-/
def mislabelsCancellation (options : ActionOptions) : Bool :=
  match ActionKind.ofLabel? (AccountPlan.cancellationLabel options) with
  | some kind => refundHistory.contains kind
  | none => false

/-- What does not count for refunds has no units of a kind that does. -/
theorem unitsAs_eq_zero
    {kinds : List ActionKind}
    {posting : Posting}
    (counted : kinds ⊆ refundHistory)
    (uncounted : countsForRefunds posting = false) :
    Refund.unitsAs kinds posting = 0 := by
  rw [Refund.unitsAs, if_neg]
  intro isOne
  obtain ⟨kind, member, same⟩ := List.any_eq_true.mp isOne
  have inHistory : refundHistory.contains kind = true :=
    List.contains_iff_mem.mpr (counted member)
  rw [countsForRefunds, beq_iff_eq.mp same] at uncounted
  dsimp only at uncounted
  rw [inHistory] at uncounted
  cases uncounted

/-- Of kinds that count for refunds, what does not count can be left out. -/
theorem unitsPosted_counting
    {kinds : List ActionKind}
    (counted : kinds ⊆ refundHistory)
    (history : List Posting) :
    Refund.unitsPosted kinds (history.filter countsForRefunds) =
      Refund.unitsPosted kinds history :=
  Refund.unitsPosted_filter fun _ uncounted => unitsAs_eq_zero counted uncounted

/-- What does not count for refunds is not received. -/
theorem unitsReceived_filter (history : List Posting) :
    Refund.unitsReceived (history.filter countsForRefunds) =
      Refund.unitsReceived history :=
  unitsPosted_counting (by decide) history

/-- What does not count for refunds is not refunded. -/
theorem unitsRefunded_filter (history : List Posting) :
    Refund.unitsRefunded (history.filter countsForRefunds) =
      Refund.unitsRefunded history :=
  unitsPosted_counting (by decide) history

/-- Refunds find the postings on an account that count for them. -/
theorem refundHistoryOf_eq
    (recorded : office.ledger = Ledger.ofEntries entries)
    (id : AccountId) :
    office.refundHistoryOf id =
      (postingsOn entries id).filter countsForRefunds := by
  rw [Office.refundHistoryOf, recorded, Ledger.find_ofEntries, postingsOn,
    List.filter_map, List.filter_filter]
  congr 2
  funext entry
  have isOne :
      [id].contains entry.account = (entry.account == id) := by
    rw [Bool.eq_iff_iff, List.contains_iff_mem, List.mem_singleton, beq_iff_eq]
  rw [isOne]
  exact Bool.and_comm _ _

/-- On several accounts, too, refunds find the postings that count for them. -/
theorem map_posting_find
    (recorded : office.ledger = Ledger.ofEntries entries)
    (ids : List AccountId) :
    (office.ledger.find ids refundHistory).map (·.posting) =
      (postingsOnAny entries ids).filter countsForRefunds := by
  rw [recorded, Ledger.find_ofEntries, postingsOnAny, List.filter_map,
    List.filter_map, List.filter_filter]
  congr 2
  funext entry
  exact Bool.and_comm _ _

/-- What refunds find on distinct accounts is in range if all postings are. -/
theorem inRange_postingsOnAny
    {ids : List AccountId}
    (posted : ArePostedInRange engine.scale entries)
    (distinct : ids.Nodup) :
    Refund.IsSound engine.scale
        ((postingsOnAny entries ids).filter countsForRefunds) ∧
      Refund.unitsReceived
          ((postingsOnAny entries ids).filter countsForRefunds) < twoTo 95 ∧
      Refund.unitsRefunded
          ((postingsOnAny entries ids).filter countsForRefunds) < twoTo 95 := by
  rw [unitsReceived_filter, unitsRefunded_filter, Refund.unitsReceived,
    Refund.unitsRefunded, unitsPosted_postingsOnAny distinct,
    unitsPosted_postingsOnAny distinct]
  refine ⟨?_, posted.received_lt distinct, posted.refunded_lt distinct⟩
  intro money member
  obtain ⟨posting, among, rfl⟩ := List.mem_map.mp member
  have inLedger := List.mem_of_mem_filter (List.mem_of_mem_filter among)
  have onAccount : posting ∈ postingsOn entries posting.account := by
    rw [postingsOn_eq]
    exact List.mem_filter.mpr ⟨inLedger, beq_self_eq_true _⟩
  exact posted.sound posting.account _ (List.mem_map_of_mem onAccount)

/-- What a request is checked against on stores in range is in range. -/
theorem isInRange_read
    {ids : List AccountId}
    (recorded : office.ledger = Ledger.ofEntries entries)
    (owed : office.accounts.IsInRange engine.scale)
    (posted : ArePostedInRange engine.scale entries)
    (kind : ActionKind)
    (distinct : ids.Nodup) :
    Validation.IsInRange engine.scale (office.accounts.findEach ids)
      (if kind = .refund then
        (office.ledger.find ids refundHistory).map (·.posting)
      else
        []) := by
  have sound :
      Money.AreSound engine.scale
        ((office.accounts.findEach ids).map (·.remaining)) := by
    intro money member
    obtain ⟨account, among, rfl⟩ := List.mem_map.mp member
    exact owed.sound (AccountBook.find?_of_mem_findEach among).2
  have owed_lt :
      Money.unitsOf ((office.accounts.findEach ids).map (·.remaining)) <
        twoTo 95 := by
    rw [Money.unitsOf, List.map_map]
    exact owed.owed_lt distinct
  split
  next =>
    rw [map_posting_find recorded]
    obtain ⟨history, received, refunded⟩ := inRange_postingsOnAny posted distinct
    exact ⟨engine.scale_le, sound, owed_lt, history, received, refunded⟩
  next =>
    have positive : (0 : Int) < twoTo 95 := by
      have := twoTo_pos 95
      omega
    exact ⟨engine.scale_le, sound, owed_lt,
      fun money member => (List.not_mem_nil member).elim, positive, positive⟩

/-- What a review accepts was read from the stores and passed the check. -/
structure IsReadFrom
    (engine : Engine)
    (office : Office)
    (kind : ActionKind)
    (accounts : List AccountId)
    (amount : Option String)
    (reviewed : Reviewed) : Prop where
  requestable : kind.isRequestable = true
  ids_eq : reviewed.ids = accounts.eraseDups
  accounts_eq : reviewed.accounts = office.accounts.only reviewed.ids
  history_eq :
    reviewed.history =
      if kind = .refund then
        (office.ledger.find reviewed.ids refundHistory).map (·.posting)
      else
        []
  checked :
    kind.validation.check reviewed.ids reviewed.accounts reviewed.history amount
      engine.scale = .ok reviewed.preview

/-- A review that accepts a request has read the stores. -/
theorem isReadFrom_of_review
    (accepted : engine.reviewIn office kind accounts amount = .ok reviewed) :
    engine.IsReadFrom office kind accounts amount reviewed := by
  rw [reviewIn] at accepted
  split at accepted
  next requestable =>
    obtain ⟨preview, checked, rest⟩ := Outcome.bind_eq_ok_iff.mp accepted
    obtain rfl := Except.ok.inj rest
    exact ⟨requestable, rfl, rfl, rfl, checked⟩
  next =>
    cases accepted

namespace IsReadFrom

/-- Each account is named once. -/
theorem distinct
    (isRead : engine.IsReadFrom office kind accounts amount reviewed) :
    reviewed.ids.Nodup := by
  rw [isRead.ids_eq]
  exact nodup_eraseDups accounts

/-- The accounts that take part are those of the office. -/
theorem targets_eq
    (isRead : engine.IsReadFrom office kind accounts amount reviewed) :
    reviewed.targets = office.accounts.findEach reviewed.ids := by
  change reviewed.accounts.findEach reviewed.ids = _
  rw [isRead.accounts_eq, AccountBook.findEach_only]

/-- An account that is named is found as in the office. -/
theorem find?_eq
    (isRead : engine.IsReadFrom office kind accounts amount reviewed)
    {id : AccountId}
    (named : id ∈ reviewed.ids) :
    reviewed.accounts.find? id = office.accounts.find? id := by
  rw [isRead.accounts_eq, AccountBook.find?_only, if_pos named]

/-- The history of a refund is what was posted on its accounts and counts. -/
theorem history_refund
    (isRead : engine.IsReadFrom office .refund accounts amount reviewed)
    (recorded : office.ledger = Ledger.ofEntries entries) :
    reviewed.history =
      (postingsOnAny entries reviewed.ids).filter countsForRefunds := by
  rw [isRead.history_eq, if_pos rfl, map_posting_find recorded]

/-- Only postings on accounts that are named are in the history. -/
theorem covered
    (isRead : engine.IsReadFrom office kind accounts amount reviewed)
    (recorded : office.ledger = Ledger.ofEntries entries) :
    ∀ posting ∈ reviewed.history, posting.account ∈ reviewed.ids := by
  intro posting member
  by_cases refunds : kind = .refund
  · subst refunds
    rw [isRead.history_refund recorded] at member
    have named := (List.mem_filter.mp (List.mem_of_mem_filter member)).2
    exact List.contains_iff_mem.mp named
  · rw [isRead.history_eq, if_neg refunds] at member
    cases member

/-- Of each account that is named, a refund has the history that counts. -/
theorem historyOf_refund
    (isRead : engine.IsReadFrom office .refund accounts amount reviewed)
    (recorded : office.ledger = Ledger.ofEntries entries)
    {id : AccountId}
    (named : id ∈ reviewed.ids) :
    reviewed.historyOf id = (postingsOn entries id).filter countsForRefunds := by
  rw [Reviewed.historyOf, isRead.history_refund recorded, postingsOn_eq,
    postingsOnAny, List.filter_filter, List.filter_filter, List.filter_filter]
  apply List.filter_congr
  intro posting _
  by_cases same : posting.account = id
  · subst same
    simp [named]
  · simp [beq_false_of_ne same]

/-- A refund knows what was received on each account. -/
theorem unitsReceived_historyOf
    (isRead : engine.IsReadFrom office .refund accounts amount reviewed)
    (recorded : office.ledger = Ledger.ofEntries entries)
    {id : AccountId}
    (named : id ∈ reviewed.ids) :
    Refund.unitsReceived (reviewed.historyOf id) =
      Refund.unitsReceived (postingsOn entries id) := by
  rw [isRead.historyOf_refund recorded named, unitsReceived_filter]

/-- A refund knows what was refunded on each account. -/
theorem unitsRefunded_historyOf
    (isRead : engine.IsReadFrom office .refund accounts amount reviewed)
    (recorded : office.ledger = Ledger.ofEntries entries)
    {id : AccountId}
    (named : id ∈ reviewed.ids) :
    Refund.unitsRefunded (reviewed.historyOf id) =
      Refund.unitsRefunded (postingsOn entries id) := by
  rw [isRead.historyOf_refund recorded named, unitsRefunded_filter]

/-- What a review of stores in range accepts is in range. -/
theorem isAccepted
    (isRead : engine.IsReadFrom office kind accounts amount reviewed)
    (recorded : office.ledger = Ledger.ofEntries entries)
    (owed : office.accounts.IsInRange engine.scale)
    (posted : ArePostedInRange engine.scale entries) :
    reviewed.IsAccepted kind engine.scale := by
  have inRange :
      Validation.IsInRange engine.scale reviewed.targets reviewed.history := by
    rw [isRead.targets_eq, isRead.history_eq]
    exact isInRange_read recorded owed posted kind isRead.distinct
  exact
    { distinct := isRead.distinct
      covered := isRead.covered recorded
      inRange := inRange
      accepts := Validation.accepts_of_check inRange isRead.checked }

end IsReadFrom

end Engine

end PatronFees
