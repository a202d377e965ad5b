import PatronFees.Account
import PatronFees.Proofs.Money.Arithmetic

namespace PatronFees.Account

/-!
# Accounts after an action

An action changes what is owed, the label and the status of an account and
leaves it the same fee or fine. It closes the account exactly when nothing is
owed any more.
-/

/-- Two accounts are the same fee or fine, whatever is still owed on it. -/
structure IsSameDebt (account other : Account) : Prop where
  id : account.id = other.id
  user : account.user = other.user
  feeFineType : account.feeFineType = other.feeFineType
  amount : account.amount = other.amount
  createdAt : account.createdAt = other.createdAt

namespace IsSameDebt

theorem refl (account : Account) :
    account.IsSameDebt account :=
  ⟨rfl, rfl, rfl, rfl, rfl⟩

theorem trans
    {first second third : Account}
    (later : third.IsSameDebt second)
    (earlier : second.IsSameDebt first) :
    third.IsSameDebt first :=
  ⟨later.id.trans earlier.id,
    later.user.trans earlier.user,
    later.feeFineType.trans earlier.feeFineType,
    later.amount.trans earlier.amount,
    later.createdAt.trans earlier.createdAt⟩

end IsSameDebt

section Apply

variable (account : Account) (label : String) (remaining : Money)

/-- An action leaves the same fee or fine. -/
theorem isSameDebt_apply :
    (account.apply label remaining).IsSameDebt account := by
  rw [apply]
  split <;> exact ⟨rfl, rfl, rfl, rfl, rfl⟩

@[simp] theorem paymentStatus_apply :
    (account.apply label remaining).paymentStatus = label := by
  rw [apply]
  split <;> rfl

/-- What is owed keeps the scale of what the action left. -/
@[simp] theorem scale_remaining_apply :
    (account.apply label remaining).remaining.scale = remaining.scale := by
  rw [apply]
  split
  · exact Money.scale_zero remaining.scale_le
  · rfl

/-- As much is owed as the action left. -/
@[simp] theorem minorUnits_remaining_apply :
    (account.apply label remaining).remaining.minorUnits =
      remaining.minorUnits := by
  rw [apply]
  split
  next nothing =>
    exact (Money.minorUnits_zero _).trans
      (remaining.isZero_iff.mp nothing).symm
  next =>
    rfl

theorem units_remaining_apply :
    (account.apply label remaining).remaining.units = remaining.units := by
  rw [Money.units_eq, Money.units_eq, minorUnits_remaining_apply,
    scale_remaining_apply]

/-- An action that leaves nothing closes the account, and any other opens it. -/
theorem status_apply :
    (account.apply label remaining).status = .closed ↔
      remaining.minorUnits = 0 := by
  rw [← remaining.isZero_iff, apply]
  split
  next nothing =>
    simp [nothing]
  next something =>
    simp [something]

end Apply

end PatronFees.Account
