import PatronFees.Failure
import Mathlib.Data.List.Forall2

namespace PatronFees.Outcome

/-!
# Results in sequence

A computation in steps has a result exactly when each step has one, and it
halts where the first step halts.
-/

variable {Error First Second : Type}

/-- A result is passed on to the next step. -/
@[simp] theorem ok_bind
    (result : First)
    (next : First → Except Error Second) :
    (Except.ok result : Except Error First) >>= next = next result :=
  rfl

@[simp] theorem error_bind
    (error : Error)
    (next : First → Except Error Second) :
    (Except.error error : Except Error First) >>= next = .error error :=
  rfl

@[simp] theorem pure_eq
    (result : First) :
    (pure result : Except Error First) = .ok result :=
  rfl

/-- Two steps have a result when the first has one from which the second has it. -/
theorem bind_eq_ok_iff
    {outcome : Except Error First}
    {next : First → Except Error Second}
    {result : Second} :
    outcome >>= next = .ok result ↔
      ∃ first, outcome = .ok first ∧ next first = .ok result := by
  cases outcome with
  | ok first =>
      simp
  | error error =>
      simp

/-- A step for each member has results when each step has one. -/
theorem mapM_eq_ok_iff
    {step : First → Except Error Second}
    {members : List First}
    {results : List Second} :
    members.mapM step = .ok results ↔
      List.Forall₂ (fun member result => step member = .ok result)
        members results := by
  induction members generalizing results with
  | nil =>
      simp [eq_comm]
  | cons member rest inductionHypothesis =>
      rw [List.mapM_cons, bind_eq_ok_iff]
      constructor
      · rintro ⟨first, stepped, later⟩
        obtain ⟨others, restResults, same⟩ := bind_eq_ok_iff.mp later
        obtain rfl := Except.ok.inj same
        exact .cons stepped (inductionHypothesis.mp restResults)
      · rintro (_ | ⟨stepped, restResults⟩)
        exact ⟨_, stepped,
          bind_eq_ok_iff.mpr ⟨_, inductionHypothesis.mpr restResults, rfl⟩⟩

/-- Steps that have results of a kind for all members have them in sequence. -/
theorem mapM_of_forall
    {step : First → Except Error Second}
    {relation : First → Second → Prop}
    {members : List First}
    (steps :
      ∀ member ∈ members,
        ∃ result, step member = .ok result ∧ relation member result) :
    ∃ results,
      members.mapM step = .ok results ∧
        List.Forall₂ relation members results := by
  induction members with
  | nil =>
      exact ⟨[], rfl, .nil⟩
  | cons member rest inductionHypothesis =>
      obtain ⟨result, stepped, related⟩ := steps member List.mem_cons_self
      obtain ⟨results, others, restRelated⟩ := inductionHypothesis
        fun other among => steps other (List.mem_cons_of_mem _ among)
      refine ⟨result :: results, ?_, .cons related restRelated⟩
      rw [List.mapM_cons, stepped, ok_bind, others]
      rfl

/-- Two computations halt for the same reason, or have results that are related. -/
inductive Agree
    (related : First → Second → Prop) :
    Except Error First → Except Error Second → Prop where
  | ok
      {first : First}
      {second : Second}
      (same : related first second) :
      Agree related (.ok first) (.ok second)
  | error
      (error : Error) :
      Agree related (.error error) (.error error)

namespace Agree

variable {Third Fourth : Type}
  {related : First → Second → Prop} {onward : Third → Fourth → Prop}
  {outcome : Except Error First} {other : Except Error Second}

/-- A computation agrees with itself. -/
theorem refl
    {related : First → First → Prop}
    (same : ∀ result, related result result)
    (outcome : Except Error First) :
    Agree related outcome outcome := by
  cases outcome with
  | ok result => exact .ok (same result)
  | error error => exact .error error

/-- Computations that agree go on to agree. -/
theorem bind
    {next : First → Except Error Third}
    {otherNext : Second → Except Error Fourth}
    (agree : Agree related outcome other)
    (goOn :
      ∀ first second,
        related first second → Agree onward (next first) (otherNext second)) :
    Agree onward (outcome >>= next) (other >>= otherNext) := by
  cases agree with
  | ok same => exact goOn _ _ same
  | error error => exact .error error

/-- Steps that agree on related members agree in sequence. -/
theorem mapM
    {member : Third → Fourth → Prop}
    {members : List Third}
    {others : List Fourth}
    {step : Third → Except Error First}
    {otherStep : Fourth → Except Error Second}
    (each : List.Forall₂ member members others)
    (steps :
      ∀ first second,
        member first second → Agree related (step first) (otherStep second)) :
    Agree (List.Forall₂ related) (members.mapM step) (others.mapM otherStep) := by
  induction each with
  | nil =>
      exact .ok .nil
  | cons first rest inductionHypothesis =>
      rw [List.mapM_cons, List.mapM_cons]
      exact (steps _ _ first).bind fun _ _ same =>
        inductionHypothesis.bind fun _ _ others => .ok (.cons same others)

end Agree

section Ends

variable {outcome : Outcome First} {next : First → Outcome Second}

/-- A computation that comes to a result, a failure or an overflow. -/
def Ends (outcome : Outcome First) : Prop :=
  outcome ≠ .error .endless

theorem ends_ok (result : First) :
    Ends (.ok result) :=
  fun endless => by cases endless

theorem ends_fail (failure : Failure) :
    Ends (fail failure : Outcome First) :=
  fun endless => by cases endless

theorem ends_overflow (operation : Arithmetic) :
    Ends (.error (.overflow operation) : Outcome First) :=
  fun endless => by cases endless

/-- A step that never ends is the first, or comes after the result of the first. -/
theorem bind_endless_iff :
    outcome >>= next = .error .endless ↔
      outcome = .error .endless ∨
        ∃ result, outcome = .ok result ∧ next result = .error .endless := by
  cases outcome <;> simp

/-- Steps that end, end in sequence. -/
theorem Ends.bind
    (first : Ends outcome)
    (second : ∀ result, Ends (next result)) :
    Ends (outcome >>= next) := by
  intro endless
  rcases bind_endless_iff.mp endless with now | ⟨result, -, later⟩
  · exact first now
  · exact second result later

end Ends

end PatronFees.Outcome
