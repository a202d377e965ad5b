import PatronFees.Allocation
import PatronFees.Proofs.Money.Arithmetic

namespace PatronFees.Allocation

/-!
# Shares that spread a total

Every step of an allocation keeps shares between nothing and the capacity of
their target, and keeps the shares and what is left adding up to the total.
-/

/-- The units of shares together. -/
def unitsShared (shares : List Share) : Int :=
  (shares.map (·.amount.minorUnits)).sum

/-- The units that targets may receive together. -/
def unitsOfRoom (targets : List Target) : Int :=
  (targets.map (·.capacity.minorUnits)).sum

/-- A target at a scale with room for something, below `2 ^ 95` units of it. -/
structure IsOpenTo
    (scale : Nat)
    (target : Target) : Prop where
  scale_eq : target.capacity.scale = scale
  positive : 0 < target.capacity.minorUnits
  bounded : target.capacity.minorUnits < twoTo 95

/-- A share at a scale between nothing and the capacity of its target. -/
structure Fits
    (scale : Nat)
    (share : Share) : Prop where
  target : IsOpenTo scale share.target
  scale_eq : share.amount.scale = scale
  nonneg : 0 ≤ share.amount.minorUnits
  within : share.amount.minorUnits ≤ share.target.capacity.minorUnits

/-- Shares of the targets that leave some amount of a total. -/
structure Spreads
    (scale : Nat)
    (targets : List Target)
    (total : Int)
    (shares : List Share)
    (left : Money) : Prop where
  sameTargets : shares.map (·.target) = targets
  fits : ∀ share ∈ shares, Fits scale share
  left_scale : left.scale = scale
  left_nonneg : 0 ≤ left.minorUnits
  adds : unitsShared shares + left.minorUnits = total

@[simp] theorem unitsShared_nil : unitsShared [] = 0 :=
  rfl

@[simp] theorem unitsShared_cons
    (share : Share)
    (shares : List Share) :
    unitsShared (share :: shares) =
      share.amount.minorUnits + unitsShared shares := by
  simp [unitsShared]

@[simp] theorem unitsOfRoom_nil : unitsOfRoom [] = 0 :=
  rfl

@[simp] theorem unitsOfRoom_cons
    (target : Target)
    (targets : List Target) :
    unitsOfRoom (target :: targets) =
      target.capacity.minorUnits + unitsOfRoom targets := by
  simp [unitsOfRoom]

/-- Fitting shares are no more together than their targets have room for. -/
theorem unitsShared_le
    {scale : Nat}
    {shares : List Share}
    (fits : ∀ share ∈ shares, Fits scale share) :
    unitsShared shares ≤ unitsOfRoom (shares.map (·.target)) := by
  induction shares with
  | nil =>
      exact Int.le_refl _
  | cons share rest inductionHypothesis =>
      have first := (fits share List.mem_cons_self).within
      have others := inductionHypothesis
        fun other member => fits other (List.mem_cons_of_mem _ member)
      simp only [unitsShared_cons, List.map_cons, unitsOfRoom_cons]
      omega

/-- Fitting shares come to nothing or more. -/
theorem unitsShared_nonneg
    {scale : Nat}
    {shares : List Share}
    (fits : ∀ share ∈ shares, Fits scale share) :
    0 ≤ unitsShared shares := by
  apply List.sum_nonneg
  intro units member
  obtain ⟨share, among, rfl⟩ := List.mem_map.mp member
  exact (fits share among).nonneg

namespace Spreads

variable
  {scale : Nat}
  {targets : List Target}
  {total : Int}
  {shares : List Share}
  {left : Money}

theorem nil
    (left_scale : left.scale = scale)
    (left_nonneg : 0 ≤ left.minorUnits) :
    Spreads scale [] left.minorUnits [] left where
  sameTargets := rfl
  fits := fun _ member => by cases member
  left_scale := left_scale
  left_nonneg := left_nonneg
  adds := by simp

/-- A fitting share in front of others that divide the rest. -/
theorem cons
    {rest : Int}
    (share : Share)
    (fits : Fits scale share)
    (spreads : Spreads scale targets rest shares left)
    (together : share.amount.minorUnits + rest = total) :
    Spreads scale (share.target :: targets) total (share :: shares) left where
  sameTargets := by
    rw [List.map_cons, spreads.sameTargets]
  fits := by
    intro other member
    rcases List.mem_cons.mp member with isFirst | among
    · exact isFirst ▸ fits
    · exact spreads.fits other among
  left_scale := spreads.left_scale
  left_nonneg := spreads.left_nonneg
  adds := by
    have := spreads.adds
    rw [unitsShared_cons]
    omega

end Spreads

end PatronFees.Allocation
