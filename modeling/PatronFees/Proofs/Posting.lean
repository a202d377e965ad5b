import PatronFees.Ledger.Entry
import PatronFees.Proofs.Money.MinorUnits

namespace PatronFees

/-!
# Balances that follow from postings

Each posting names the balance that it leaves. Postings lead from one balance to
another when every balance differs from the one before by the amount posted:
the refund postings of a refund raise it, and all other postings lower it.
-/

/-- The kind of a label can be read off it. -/
@[simp] theorem ActionKind.ofLabel?_label
    (kind : ActionKind)
    (full : Bool) :
    ofLabel? (kind.label full) = some kind := by
  cases kind <;> cases full <;> decide

/-- How a posting of an action changes the balance, in minor units. -/
def Posting.change
    (kind : ActionKind)
    (posting : Posting) : Int :=
  if kind = .refund ∧ posting.kind? = some .refund then
    posting.amount.minorUnits
  else
    -posting.amount.minorUnits

/--
Postings, each with the kind of its action, lead from one balance to another,
both in minor units.
-/
def LeadsTo (scale : Nat) :
    Int → List (ActionKind × Posting) → Int → Prop
  | start, [], final => start = final
  | start, (kind, posting) :: rest, final =>
      posting.balance.scale = scale ∧
        posting.balance.minorUnits = start + posting.change kind ∧
          LeadsTo scale posting.balance.minorUnits rest final

namespace LeadsTo

variable {scale : Nat} {start middle final : Int}
  {first second : List (ActionKind × Posting)}

theorem append
    (leads : LeadsTo scale start first middle)
    (onward : LeadsTo scale middle second final) :
    LeadsTo scale start (first ++ second) final := by
  induction first generalizing start with
  | nil =>
      obtain rfl : start = middle := leads
      exact onward
  | cons step rest inductionHypothesis =>
      obtain ⟨atScale, follows, later⟩ := leads
      exact ⟨atScale, follows, inductionHypothesis later⟩

/-- The last balance is the one that the postings lead to. -/
theorem getLast?_balance
    (leads : LeadsTo scale start first final)
    {last : ActionKind × Posting}
    (isLast : first.getLast? = some last) :
    last.2.balance.scale = scale ∧ last.2.balance.minorUnits = final := by
  induction first generalizing start with
  | nil =>
      cases isLast
  | cons step rest inductionHypothesis =>
      obtain ⟨atScale, -, later⟩ := leads
      cases rest with
      | nil =>
          obtain rfl := Option.some.inj isLast
          exact ⟨atScale, later⟩
      | cons next others =>
          rw [List.getLast?_cons_cons] at isLast
          exact inductionHypothesis later isLast

end LeadsTo

end PatronFees
