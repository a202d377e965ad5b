import PatronFees.Proofs.Outcome
import Mathlib.Data.List.Perm.Basic

namespace PatronFees

open List

/-!
# Outcomes that are alike

Two computations end alike if both have results, which are related, or both
halt in one way. An account or an operation that a halt names may differ: which
of several is met first depends on the order in which they are looked at.
-/

/-- Two halts are of one kind, whichever account or operation they name. -/
inductive Halt.IsLike : Halt → Halt → Prop where
  | same (halt : Halt) : IsLike halt halt
  | notFound (first second : AccountId) :
      IsLike (.failed (.accountNotFound first)) (.failed (.accountNotFound second))
  | closed (first second : AccountId) :
      IsLike (.failed (.alreadyClosed first)) (.failed (.alreadyClosed second))
  | overflow (first second : Arithmetic) :
      IsLike (.overflow first) (.overflow second)

namespace Outcome

/-- Both have results that are related, or both halt in one way. -/
inductive Alike
    {First Second : Type}
    (related : First → Second → Prop) :
    Outcome First → Outcome Second → Prop where
  | results
      {first : First}
      {second : Second}
      (relation : related first second) :
      Alike related (.ok first) (.ok second)
  | halts
      {first second : Halt}
      (isLike : first.IsLike second) :
      Alike related (.error first) (.error second)

variable {First Second Third Fourth : Type}

theorem Alike.refl (outcome : Outcome First) :
    Alike Eq outcome outcome := by
  cases outcome with
  | ok result =>
      exact .results rfl
  | error halt =>
      exact .halts (.same halt)

theorem Alike.imp
    {related weaker : First → Second → Prop}
    {first : Outcome First}
    {second : Outcome Second}
    (alike : Alike related first second)
    (implies :
      ∀ firstResult secondResult,
        related firstResult secondResult → weaker firstResult secondResult) :
    Alike weaker first second := by
  cases alike with
  | results relation =>
      exact .results (implies _ _ relation)
  | halts isLike =>
      exact .halts isLike

/-- Outcomes that are alike stay so when what follows their results is. -/
theorem Alike.bind
    {related : First → Second → Prop}
    {onward : Third → Fourth → Prop}
    {first : Outcome First}
    {second : Outcome Second}
    {firstNext : First → Outcome Third}
    {secondNext : Second → Outcome Fourth}
    (alike : Alike related first second)
    (next :
      ∀ firstResult secondResult,
        first = .ok firstResult →
          second = .ok secondResult →
            related firstResult secondResult →
              Alike onward (firstNext firstResult) (secondNext secondResult)) :
    Alike onward (first >>= firstNext) (second >>= secondNext) := by
  cases alike with
  | results relation =>
      exact next _ _ rfl rfl relation
  | halts isLike =>
      exact .halts isLike

/-- Where steps in sequence halt, one of the steps does. -/
theorem exists_of_mapM_eq_error
    {step : First → Outcome Second}
    {members : List First}
    {halt : Halt}
    (halted : members.mapM step = .error halt) :
    ∃ member ∈ members, step member = .error halt := by
  induction members with
  | nil =>
      cases halted
  | cons member rest inductionHypothesis =>
      rw [List.mapM_cons] at halted
      cases stepped : step member with
      | error first =>
          rw [stepped] at halted
          exact ⟨member, List.mem_cons_self,
            stepped.trans (congrArg Except.error (Except.error.inj halted))⟩
      | ok result =>
          rw [stepped, ok_bind] at halted
          cases others : rest.mapM step with
          | error later =>
              rw [others] at halted
              obtain ⟨other, among, failed⟩ := inductionHypothesis
                (others.trans (congrArg Except.error (Except.error.inj halted)))
              exact ⟨other, List.mem_cons_of_mem _ among, failed⟩
          | ok results =>
              rw [others] at halted
              cases halted

/--
Steps for members in another order end alike, if those that halt do so in one
way.
-/
theorem mapM_perm
    {step : First → Outcome Second}
    {members others : List First}
    (same : members ~ others)
    (halts :
      ∀ first ∈ members,
        ∀ second ∈ members,
          ∀ firstHalt secondHalt,
            step first = .error firstHalt →
              step second = .error secondHalt →
                firstHalt.IsLike secondHalt) :
    Alike Perm (members.mapM step) (others.mapM step) := by
  -- One order has results exactly if the other one has, in that order.
  have ordered :
      ∀ {these those : List First} {results : List Second},
        these ~ those →
          these.mapM step = .ok results →
            ∃ permuted, those.mapM step = .ok permuted ∧ results ~ permuted := by
    intro these those results between done
    obtain ⟨permuted, stepped, order⟩ :=
      perm_comp_forall₂ between.symm (mapM_eq_ok_iff.mp done)
    exact ⟨permuted, mapM_eq_ok_iff.mpr stepped, order.symm⟩
  cases ended : members.mapM step with
  | ok results =>
      obtain ⟨permuted, done, order⟩ := ordered same ended
      rw [done]
      exact .results order
  | error halt =>
      cases otherEnded : others.mapM step with
      | ok results =>
          obtain ⟨permuted, done, -⟩ := ordered same.symm otherEnded
          rw [done] at ended
          cases ended
      | error other =>
          obtain ⟨first, member, failed⟩ := exists_of_mapM_eq_error ended
          obtain ⟨second, among, otherFailed⟩ :=
            exists_of_mapM_eq_error otherEnded
          exact .halts (halts first member second (same.mem_iff.mpr among)
            halt other failed otherFailed)

end Outcome

end PatronFees
