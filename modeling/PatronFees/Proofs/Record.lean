import PatronFees.Proofs.Account
import PatronFees.Proofs.Engine.Stores
import PatronFees.Record.Account

namespace PatronFees

/-!
# Accounts that were accepted

A record is accepted when its amounts are at the scale and its balance lies
between nothing and the amount, and is nothing if the account is closed. The
accounts that were accepted are in range if their amounts are together.
-/

/-- What is known of an account whose record was accepted at a scale. -/
structure Account.IsAccepted
    (scale : Nat)
    (account : Account) : Prop where
  amount_scale : account.amount.scale = scale
  remaining_scale : account.remaining.scale = scale
  nonneg : 0 ≤ account.remaining.minorUnits
  le : account.remaining.minorUnits ≤ account.amount.minorUnits
  settled : account.status = .closed → account.remaining.minorUnits = 0

/-- Amounts are read at the scale, or the greatest one below it. -/
theorem Money.scale_of_read
    {entered : String}
    {scale : Nat}
    {money : Money}
    (read : Money.read entered scale = .ok money) :
    money.scale = min scale maxScale := by
  rw [Money.read] at read
  split at read
  next =>
    obtain rfl := Except.ok.inj read
    rfl
  next =>
    cases read

/-- An account that owes within its amount owes between nothing and it. -/
theorem Account.owesWithinAmount_iff
    {account : Account}
    (same : account.amount.scale = account.remaining.scale) :
    account.owesWithinAmount = true ↔
      0 ≤ account.remaining.minorUnits ∧
        account.remaining.minorUnits ≤ account.amount.minorUnits := by
  rw [owesWithinAmount, Bool.and_eq_true, Bool.not_eq_true', Bool.eq_false_iff,
    decide_eq_true_eq, Money.le_iff same, ne_eq, Money.isNegative_iff]
  omega

namespace AccountRecord

variable {record : AccountRecord} {scale : Nat} {account : Account}

/-- The fields of a record are read at the scale. -/
theorem scale_of_readFields
    (read : record.readFields scale = .ok account) :
    account.amount.scale = min scale Money.maxScale ∧
      account.remaining.scale = min scale Money.maxScale := by
  obtain ⟨amount, amountRead, rest⟩ := Outcome.bind_eq_ok_iff.mp read
  obtain ⟨createdAt, _, rest⟩ := Outcome.bind_eq_ok_iff.mp rest
  obtain ⟨remaining, remainingRead, rest⟩ := Outcome.bind_eq_ok_iff.mp rest
  obtain ⟨status, _, last⟩ := Outcome.bind_eq_ok_iff.mp rest
  obtain rfl := Except.ok.inj last
  have amountScale := Money.scale_of_read amountRead
  refine ⟨amountScale, ?_⟩
  rw [readRemaining] at remainingRead
  split at remainingRead
  next =>
    obtain rfl := Except.ok.inj remainingRead
    exact amountScale
  next =>
    exact Money.scale_of_read remainingRead

/-- An account whose record is accepted owes within its amount. -/
theorem isAccepted_of_toAccount
    (accepted : record.toAccount scale = .ok account) :
    account.IsAccepted (min scale Money.maxScale) := by
  obtain ⟨fields, read, checked⟩ := Outcome.bind_eq_ok_iff.mp accepted
  obtain ⟨amountScale, remainingScale⟩ := scale_of_readFields read
  rw [Account.checkBalance] at checked
  split at checked
  next =>
    cases checked
  next within =>
    split at checked
    next =>
      cases checked
    next settled =>
      obtain rfl := Except.ok.inj checked
      have owes : fields.owesWithinAmount = true := by
        simpa using within
      obtain ⟨nonneg, le⟩ :=
        (Account.owesWithinAmount_iff
          (amountScale.trans remainingScale.symm)).mp owes
      exact
        { amount_scale := amountScale
          remaining_scale := remainingScale
          nonneg := nonneg
          le := le
          settled := by
            intro closed
            have isClosed : fields.isClosed = true := beq_iff_eq.mpr closed
            have nothing : fields.remaining.isZero = true := by
              simpa [isClosed] using settled
            exact fields.remaining.isZero_iff.mp nothing }

end AccountRecord

/-- The record of a lost item for which nothing was paid yet. -/
def AccountRecord.lostItem : AccountRecord where
  id := "a"
  user := "u"
  feeFineType := "Lost item"
  amount := "12.50"
  remaining := none
  status := none
  paymentStatus := none
  createdAt := none

/-- Accounts that were accepted and owe below `2 ^ 95` units are in range. -/
theorem AccountBook.isInRange_of_owed
    {scale : Nat}
    {accounts : List Account}
    (accepted : ∀ account ∈ accounts, account.IsAccepted scale)
    (owed : (accounts.map (·.remaining.minorUnits)).sum < twoTo 95) :
    (ofList accounts).IsInRange scale := by
  apply isInRange_of_listed mem_of_find?_ofList
  · intro money member
    obtain ⟨account, among, rfl⟩ := List.mem_map.mp member
    have isAccepted := accepted account among
    exact ⟨isAccepted.remaining_scale, isAccepted.nonneg⟩
  · rw [Money.unitsOf, List.map_map]
    exact owed

/-- Accounts that were accepted, below `2 ^ 95` units together, are in range. -/
theorem AccountBook.isInRange_ofList
    {scale : Nat}
    {accounts : List Account}
    (accepted : ∀ account ∈ accounts, account.IsAccepted scale)
    (inRange : (accounts.map (·.amount.minorUnits)).sum < twoTo 95) :
    (ofList accounts).IsInRange scale := by
  refine isInRange_of_owed accepted (Int.lt_of_le_of_lt ?_ inRange)
  apply List.sum_le_sum
  intro account member
  exact (accepted account member).le

/--
Accounts that owe within their amounts, below `2 ^ 95` units of them together,
are in range.
-/
theorem AccountBook.isInRange_of_amounts
    {scale : Nat}
    {book : AccountBook}
    (atScale :
      ∀ account ∈ book.accounts,
        account.amount.scale = scale ∧ account.remaining.scale = scale)
    (within : ∀ account ∈ book.accounts, account.owesWithinAmount = true)
    (inRange : (book.accounts.map (·.amount.minorUnits)).sum < twoTo 95) :
    book.IsInRange scale := by
  have owes :
      ∀ account ∈ book.accounts,
        0 ≤ account.remaining.minorUnits ∧
          account.remaining.minorUnits ≤ account.amount.minorUnits := by
    intro account member
    obtain ⟨amountScale, remainingScale⟩ := atScale account member
    exact (Account.owesWithinAmount_iff
      (amountScale.trans remainingScale.symm)).mp (within account member)
  apply isInRange_of_listed mem_of_find?
  · intro money member
    obtain ⟨account, among, rfl⟩ := List.mem_map.mp member
    exact ⟨(atScale account among).2, (owes account among).1⟩
  · refine Int.lt_of_le_of_lt ?_ inRange
    rw [Money.unitsOf, List.map_map]
    apply List.sum_le_sum
    intro account member
    exact (owes account member).2

end PatronFees
