import PatronFees.Account

namespace PatronFees

/-!
# Allocation

One amount is spread over several accounts, each of which takes at most its
capacity. Targets are served in order of capacity, then age, then identifier.
Each is offered an even share of what is left, rounded down; a target that
cannot take it takes its whole capacity, and the rest is shared anew among the
targets behind it. What rounding leaves over is handed out one smallest unit at
a time, in the same order, to targets that still have room.

The shares of an allocation add up to its total, or there is no allocation.
-/

/-- An account that takes part in an allocation. -/
structure Target where
  account : AccountId
  /-- The most it may receive. -/
  capacity : Money
  createdAt : Timestamp
  deriving Repr, DecidableEq

namespace Target

/-- A target that may receive all that is owed on an account. -/
def ofRemaining (account : Account) : Target :=
  ⟨account.id, account.remaining, account.createdAt⟩

/-- Targets are served by capacity, then age, then identifier. -/
def compare (first second : Target) : Ordering :=
  (first.capacity.compare second.capacity).then
    ((first.createdAt.compare second.createdAt).then
      (Ord.compare first.account second.account))

/-- The target is served before the other, or they tie. -/
def precedes (first second : Target) : Bool :=
  (first.compare second).isLE

end Target

/-- What a target receives. -/
structure Share where
  target : Target
  amount : Money
  deriving Repr, DecidableEq

/-- Shares by account, in the order in which targets were served. -/
structure Allocation where
  shares : List (AccountId × Money)
  deriving Repr, DecidableEq

namespace Allocation

/-- The allocation that gives nothing to anyone. -/
def empty : Allocation :=
  ⟨[]⟩

/-- The share of an account, if it received anything. -/
def get?
    (allocation : Allocation)
    (account : AccountId) :
    Option Money :=
  allocation.shares.lookup account

def total
    (allocation : Allocation)
    (scale : Nat) :
    Outcome Money :=
  Money.sum (allocation.shares.map Prod.snd) scale

/-- Targets with room for anything, in the order in which they are served. -/
def serviceOrder (targets : List Target) : List Target :=
  (targets.filter (·.capacity.isPositive)).mergeSort Target.precedes

/-- What is left, divided evenly and rounded down; nothing among none. -/
def evenShare
    (left : Money)
    (pending : Nat) :
    Outcome Money :=
  if pending = 0 then
    .ok (Money.zero left.scale)
  else
    match Decimal.make? pending 0 with
    | some count => left.divideDown (Money.ofDecimal count left.scale)
    | none => Outcome.fail .divisionByZero

/--
Offer each target the even share.

`pending` counts the targets that the even share was divided among. The result
is every target's share and what is left over.
-/
def offer
    (even : Money)
    (pending : Nat)
    (left : Money) :
    List Target → Outcome (List Share × Money)
  | [] => .ok ([], left)
  | target :: rest =>
      if even ≤ target.capacity then do
        let amount := min even left
        let (shares, leftover) ←
          offer even pending (← left.subtract amount) rest
        return (⟨target, amount⟩ :: shares, leftover)
      else do
        let stillLeft ← left.subtract target.capacity
        let nextEven ← evenShare stillLeft (pending - 1)
        let (shares, leftover) ←
          offer nextEven (pending - 1) stillLeft rest
        return (⟨target, target.capacity⟩ :: shares, leftover)

/-- Shares after some units were handed out. -/
structure HandOut where
  shares : List Share
  left : Money
  /-- Some target took a unit. -/
  progressed : Bool
  deriving Repr, DecidableEq

/-- Hand one unit to each target with room for it, while something is left. -/
def handOutOnce
    (unit left : Money) :
    List Share → Outcome HandOut
  | [] => .ok ⟨[], left, false⟩
  | share :: rest =>
      if left.isPositive then do
        let raised ← share.amount.add unit
        if raised ≤ share.target.capacity then
          let after ← handOutOnce unit (← left.subtract unit) rest
          return ⟨⟨share.target, raised⟩ :: after.shares, after.left, true⟩
        else
          let after ← handOutOnce unit left rest
          return ⟨share :: after.shares, after.left, after.progressed⟩
      else
        .ok ⟨share :: rest, left, false⟩

/-- What is left together with the room of all targets, in `10 ^ -28` parts. -/
def slack
    (left : Money)
    (shares : List Share) : Nat :=
  shares.foldr
    (fun share room =>
      (share.target.capacity.units - share.amount.units).toNat + room)
    left.units.toNat

/--
Hand out units round after round, until nothing is left or nobody has room.

A unit that is rounded away from the share that takes it and from what is left
changes nothing; a round of nothing else would be repeated forever.
-/
def handOut
    (unit left : Money)
    (shares : List Share) :
    Outcome (List Share) :=
  if left.isPositive then
    match handOutOnce unit left shares with
    | .error halt => .error halt
    | .ok round =>
        if round.progressed then
          if slack round.left round.shares < slack left shares then
            handOut unit round.left round.shares
          else
            .error .endless
        else
          .ok round.shares
  else
    .ok shares
termination_by slack left shares

/-- Spread `total` over the targets in service order. -/
def sharesAmong
    (total : Money)
    (ordered : List Target) :
    Outcome (List Share) := do
  let even ← evenShare total ordered.length
  let (shares, left) ← offer even ordered.length total ordered
  handOut (Money.smallestUnit total.scale) left shares

/-- The allocation of shares, those of nothing left out. -/
def ofShares (shares : List Share) : Allocation :=
  ⟨(shares.filter fun share => !share.amount.isZero).map fun share =>
    (share.target.account, share.amount)⟩

/-- Spread `total` over the targets without exceeding any capacity. -/
def split
    (total : Money)
    (targets : List Target) :
    Outcome Allocation :=
  if targets.isEmpty then
    .ok empty
  else do
    let shares ← sharesAmong total (serviceOrder targets)
    let allocation := ofShares shares
    let allocated ← allocation.total total.scale
    if allocated.equals total then
      return allocation
    else
      Outcome.fail (.unbalancedAllocation total.text allocated.text)

end Allocation

end PatronFees
