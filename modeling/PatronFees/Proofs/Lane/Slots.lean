import PatronFees.Proofs.Lane.Placing
import Mathlib.Data.List.Basic

namespace PatronFees.Lane

open List

/-!
# Lanes in slots

Dividing a batch by slots is placing its requests in lanes one by one. Between two
requests the slots that are not empty hold the lanes, and an account has the slot of
the lane that names it. So a request touches the slots of the lanes that it meets.
Joining them leaves one at the first of these slots, and its accounts there.
-/

variable {lane : Lane} {lanes : List Lane} {earlier : List PlacedRequest}
  {placed : PlacedRequest} {account : AccountId}

/-- Some request of the lane names the account. -/
def Names (lane : Lane) (account : AccountId) : Prop :=
  ∃ one ∈ lane, account ∈ one.request.accounts

/-- A request meets the lanes that name any of its accounts. -/
theorem meets_eq_true_iff :
    lane.meets placed = true ↔
      ∃ account ∈ placed.request.accounts, lane.Names account := by
  simp only [meets, List.any_eq_true, PlacedRequest.meets_eq_true_iff, Names]
  constructor
  · rintro ⟨one, member, account, inOne, inPlaced⟩
    exact ⟨account, inPlaced, one, member, inOne⟩
  · rintro ⟨account, inPlaced, one, member, inOne⟩
    exact ⟨one, member, account, inOne, inPlaced⟩

/-- The lane in a slot names the account. -/
def NamesAt
    (lanes : List Lane)
    (slot : Nat)
    (account : AccountId) : Prop :=
  ∃ lane, lanes[slot]? = some lane ∧ lane.Names account

theorem names_concat :
    Names (lane ++ [placed]) account ↔
      account ∈ placed.request.accounts ∨ lane.Names account := by
  simp [Names, or_and_right, exists_or, or_comm]

/-- An account is named where lanes are joined if one of them names it. -/
theorem names_joined :
    (joined lanes).Names account ↔ ∃ lane ∈ lanes, lane.Names account := by
  simp only [Names, mem_joined]
  constructor
  · rintro ⟨one, ⟨lane, isLane, member⟩, named⟩
    exact ⟨lane, isLane, one, member, named⟩
  · rintro ⟨lane, isLane, one, member, named⟩
    exact ⟨one, ⟨lane, isLane, member⟩, named⟩

/-- What stays in a slot when the lanes that a request meets are joined. -/
def leftBy
    (placed : PlacedRequest)
    (lane : Lane) : Lane :=
  if lane.meets placed then [] else lane

/-- Lanes that a request does not meet stay where they are. -/
theorem map_leftBy
    (unmet : ∀ lane ∈ lanes, lane.meets placed = false) :
    lanes.map (leftBy placed) = lanes := by
  refine (List.map_congr_left fun lane member => ?_).trans (List.map_id lanes)
  rw [leftBy, unmet lane member]
  rfl

/-- Of lanes that are joined, those that are not empty stay unless they are met. -/
theorem filter_map_leftBy (lanes : List Lane) :
    (lanes.map (leftBy placed)).filter (!·.isEmpty) =
      (lanes.filter (!·.isEmpty)).filter (!·.meets placed) := by
  induction lanes with
  | nil =>
      rfl
  | cons lane rest inductionHypothesis =>
      cases met : lane.meets placed <;> cases empty : lane.isEmpty <;>
        simp [leftBy, met, empty, inductionHypothesis]

/-- A request meets no empty lane. -/
theorem isEmpty_eq_false_of_meets
    (met : lane.meets placed = true) :
    lane.isEmpty = false := by
  cases lane with
  | nil =>
      cases met
  | cons one rest =>
      rfl

theorem filter_meets_filter (lanes : List Lane) :
    (lanes.filter (!·.isEmpty)).filter (·.meets placed) =
      lanes.filter (·.meets placed) := by
  rw [List.filter_filter]
  apply List.filter_congr
  intro lane _
  cases met : lane.meets placed with
  | false =>
      rfl
  | true =>
      rw [isEmpty_eq_false_of_meets met]
      rfl

theorem filter_meets_of_unmet
    (unmet : ∀ lane ∈ lanes, lane.meets placed = false) :
    lanes.filter (·.meets placed) = [] :=
  List.filter_eq_nil_iff.mpr (by simpa using unmet)

/-- A request that meets none has a lane of its own at the end. -/
theorem place_of_unmet
    (unmet : ∀ lane ∈ lanes, lane.meets placed = false) :
    place lanes placed = lanes ++ [[placed]] := by
  have allUnmet : ∀ lane ∈ lanes, (!lane.meets placed) = true := by
    simpa using unmet
  rw [place_eq, List.takeWhile_eq_self_iff.mpr allUnmet,
    List.dropWhile_eq_nil_iff.mpr allUnmet, filter_meets_of_unmet unmet]
  rfl

/-- A request goes to the first lane that it meets, and the others that it meets too. -/
theorem place_of_met
    {before after : List Lane}
    (unmet : ∀ lane ∈ before, lane.meets placed = false)
    (met : lane.meets placed = true) :
    place (before ++ lane :: after) placed =
      before ++
        (joined (lane :: after.filter (·.meets placed)) ++ [placed]) ::
          after.filter (!·.meets placed) := by
  have allUnmet : ∀ lane ∈ before, (!lane.meets placed) = true := by
    simpa using unmet
  rw [place_eq, List.takeWhile_append_of_pos allUnmet,
    List.dropWhile_append_of_pos allUnmet, List.filter_append,
    filter_meets_of_unmet unmet]
  simp [met]

theorem joined_singleton (lane : Lane) :
    joined [lane] = lane :=
  List.merge_right lane

/-- Joining lanes of a batch puts their requests in order. -/
theorem mergeSort_flatten
    (inOrder : ∀ lane ∈ lanes, lane.InOrder)
    (growing :
      earlier.Pairwise fun first second => first.position < second.position)
    (within : ∀ lane ∈ lanes, lane ⊆ earlier) :
    (lanes.flatten.mergeSort fun one another => one.position ≤ another.position) =
      joined lanes := by
  have positions : (earlier.map (·.position)).Nodup :=
    List.pairwise_map.mpr (growing.imp Nat.ne_of_lt)
  have inEarlier : ∀ one ∈ joined lanes, one ∈ earlier := by
    intro one member
    obtain ⟨lane, isLane, inside⟩ := mem_joined.mp member
    exact within lane isLane inside
  exact mergeSort_eq PlacedRequest.position (joined_perm lanes).symm
    (joined_inOrder inOrder) fun one isOne another isAnother same =>
      List.inj_on_of_nodup_map positions (inEarlier one isOne)
        (inEarlier another isAnother) same

namespace Slots

variable {slots : Slots} {before after : List Lane}

/-- The slot behind some lanes is that of the next one. -/
theorem modify_length
    (before after : List Lane)
    (lane : Lane)
    (change : Lane → Lane) :
    (before ++ lane :: after).modify before.length change =
      before ++ change lane :: after := by
  induction before with
  | nil =>
      rfl
  | cons first rest inductionHypothesis =>
      rw [List.cons_append, List.length_cons, List.modify_succ_cons,
        inductionHypothesis]
      rfl

/-- A lane moves to another that stands before it. -/
theorem move_eq
    (before middle after : List Lane)
    (lane other : Lane) :
    move before.length (before ++ lane :: (middle ++ other :: after))
        (before.length + 1 + middle.length) =
      before ++ (lane ++ other) :: (middle ++ [] :: after) := by
  have behind :
      ∀ lanes : List Lane,
        before ++ lane :: (middle ++ lanes) = (before ++ lane :: middle) ++ lanes := by
    simp
  have position :
      before.length + 1 + middle.length = (before ++ lane :: middle).length := by
    simp [Nat.add_assoc, Nat.add_comm 1]
  have emptied :
      (before ++ lane :: (middle ++ other :: after)).set
          (before.length + 1 + middle.length) [] =
        before ++ lane :: (middle ++ [] :: after) := by
    rw [behind, behind, position, List.set_append_right _ _ (Nat.le_refl _),
      Nat.sub_self, List.set_cons_zero]
  have moved :
      (before ++ lane :: (middle ++ other :: after)).getD
          (before.length + 1 + middle.length) [] =
        other := by
    rw [behind, position, List.getD_eq_getElem?_getD,
      List.getElem?_append_right (Nat.le_refl _), Nat.sub_self]
    rfl
  rw [move, emptied, moved, modify_length]

/-- The lanes that a request meets move, one after another, to one before them. -/
theorem foldl_move
    (placed : PlacedRequest)
    (before middle after : List Lane)
    (lane : Lane) :
    (after.findIdxs (·.meets placed) (before.length + 1 + middle.length)).foldl
        (move before.length) (before ++ lane :: (middle ++ after)) =
      before ++ (lane ++ (after.filter (·.meets placed)).flatten) ::
        (middle ++ after.map (leftBy placed)) := by
  induction after generalizing lane middle with
  | nil =>
      simp
  | cons next rest inductionHypothesis =>
      rw [List.findIdxs_cons]
      cases met : next.meets placed with
      | false =>
          have later := inductionHypothesis (middle ++ [next]) lane
          simpa [leftBy, met, Nat.add_assoc] using later
      | true =>
          have later := inductionHypothesis (middle ++ [[]]) (lane ++ next)
          rw [if_pos rfl, List.foldl_cons, move_eq]
          simpa [leftBy, met, Nat.add_assoc] using later

/-- The first slot that a request touches divides those before it from the rest. -/
theorem exists_split
    {lanes : List Lane}
    {first : Nat}
    {others : List Nat}
    (start : Nat)
    (found : lanes.findIdxs (·.meets placed) start = first :: others) :
    ∃ before lane after,
      lanes = before ++ lane :: after ∧
        first = start + before.length ∧
        (∀ lane ∈ before, lane.meets placed = false) ∧
        lane.meets placed = true ∧
        others = after.findIdxs (·.meets placed) (first + 1) := by
  induction lanes generalizing start with
  | nil =>
      cases found
  | cons lane rest inductionHypothesis =>
      rw [List.findIdxs_cons] at found
      cases met : lane.meets placed with
      | true =>
          rw [met, if_pos rfl] at found
          obtain ⟨rfl, rfl⟩ := List.cons.inj found
          exact ⟨[], lane, rest, rfl, rfl, by simp, met, rfl⟩
      | false =>
          rw [met, if_neg Bool.false_ne_true] at found
          obtain ⟨before, next, after, rfl, position, unmet, nextMet, behind⟩ :=
            inductionHypothesis (start + 1) found
          refine ⟨lane :: before, next, after, rfl, ?_, ?_, nextMet, behind⟩
          · rw [position, List.length_cons]
            omega
          · exact List.forall_mem_cons.mpr ⟨met, unmet⟩

theorem lookup_map
    (owners : List (AccountId × Nat))
    (change : Nat → Nat) :
    (owners.map (Prod.map id change)).lookup account =
      (owners.lookup account).map change := by
  induction owners with
  | nil =>
      rfl
  | cons owner rest inductionHypothesis =>
      rw [List.map_cons, List.lookup_cons, List.lookup_cons, inductionHypothesis,
        Prod.map_fst, id_eq]
      cases account == owner.1 <;> rfl

theorem lookup_assigned
    (accounts : List AccountId)
    (slot : Nat) :
    (accounts.map (·, slot)).lookup account =
      if account ∈ accounts then some slot else none := by
  induction accounts with
  | nil =>
      rfl
  | cons other rest inductionHypothesis =>
      rw [List.map_cons, List.lookup_cons, inductionHypothesis]
      by_cases same : account = other
      · simp [same]
      · simp [same, beq_eq_false_iff_ne.mpr same]

section Redirected

variable {first slot : Nat} {others : List Nat}

theorem redirected_of_mem (member : slot ∈ others) :
    redirected first others slot = first :=
  if_pos (List.contains_iff_mem.mpr member)

theorem redirected_of_not_mem (notMember : slot ∉ others) :
    redirected first others slot = slot :=
  if_neg fun member => notMember (List.contains_iff_mem.mp member)

theorem map_redirected_nil
    (first : Nat)
    (owners : List (AccountId × Nat)) :
    owners.map (Prod.map id (redirected first [])) = owners := by
  have unchanged : redirected first [] = id := by
    funext slot
    exact redirected_of_not_mem List.not_mem_nil
  rw [unchanged, Prod.map_id, List.map_id]

end Redirected

/--
Slots hold lanes: those that are not empty are the lanes in their order, and an
account has the slot of the lane that names it.
-/
structure Hold
    (slots : Slots)
    (lanes : List Lane) : Prop where
  filled : slots.lanes.filter (!·.isEmpty) = lanes
  owned :
    ∀ account slot,
      slots.owners.lookup account = some slot ↔ NamesAt slots.lanes slot account

theorem mem_touched_iff
    {slot : Nat}
    {accounts : List AccountId} :
    slot ∈ slots.touched accounts ↔
      ∃ account ∈ accounts, slots.owners.lookup account = some slot := by
  rw [touched, (List.mergeSort_perm _ _).mem_iff, List.mem_eraseDups,
    List.mem_filterMap]

/-- A request touches the slots of the lanes that it meets. -/
theorem Hold.touched_eq
    (hold : slots.Hold lanes) :
    slots.touched placed.request.accounts =
      slots.lanes.findIdxs (·.meets placed) := by
  have same :
      ∀ slot,
        slot ∈
            (placed.request.accounts.filterMap fun account =>
              slots.owners.lookup account).eraseDups ↔
          slot ∈ slots.lanes.findIdxs (·.meets placed) := by
    intro slot
    rw [List.mem_eraseDups, List.mem_filterMap,
      List.mem_findIdxs_iff_exists_getElem_pos]
    simp only [hold.owned, NamesAt, meets_eq_true_iff, List.getElem?_eq_some_iff]
    constructor
    · rintro ⟨account, member, lane, ⟨inside, rfl⟩, names⟩
      exact ⟨inside, account, member, names⟩
    · rintro ⟨inside, account, member, names⟩
      exact ⟨account, member, _, ⟨inside, rfl⟩, names⟩
  exact mergeSort_eq id
    ((List.perm_ext_iff_of_nodup (nodup_eraseDups _) List.nodup_findIdxs).mpr same)
    (List.pairwise_findIdxs.imp Nat.le_of_lt) fun _ _ _ _ alike => alike

/-- Joined lanes stand in order at the first of their slots, and leave the others. -/
theorem lanes_join
    (placed : PlacedRequest)
    (split : slots.lanes = before ++ lane :: after)
    (inOrder : ∀ other ∈ lane :: after, other.InOrder)
    (growing :
      earlier.Pairwise fun first second => first.position < second.position)
    (within : ∀ other ∈ lane :: after, other ⊆ earlier) :
    (slots.join before.length
        (after.findIdxs (·.meets placed) (before.length + 1))).lanes =
      before ++ joined (lane :: after.filter (·.meets placed)) ::
        after.map (leftBy placed) := by
  have moved := foldl_move placed before [] after lane
  have among : lane :: after.filter (·.meets placed) ⊆ lane :: after :=
    List.cons_subset_cons lane List.filter_sublist.subset
  have sorted :=
    mergeSort_flatten (fun other member => inOrder other (among member)) growing
      fun other member => within other (among member)
  rw [List.flatten_cons] at sorted
  rw [join]
  split
  next none =>
    have unmet : ∀ other ∈ after, other.meets placed = false :=
      List.findIdxs_eq_nil_iff.mp (List.isEmpty_iff.mp none)
    rw [split, filter_meets_of_unmet unmet, map_leftBy unmet, joined_singleton]
  next =>
    dsimp only
    rw [split]
    rw [List.length_nil, Nat.add_zero, List.nil_append, List.nil_append] at moved
    rw [moved, modify_length, sorted]

/-- Accounts of the lanes that are joined have the slot of the first. -/
theorem owners_join
    (slots : Slots)
    (first : Nat)
    (others : List Nat) :
    (slots.join first others).owners =
      slots.owners.map (Prod.map id (redirected first (first :: others))) := by
  have same : redirected first (first :: others) = redirected first others := by
    funext slot
    by_cases isFirst : slot = first <;> simp [redirected, isFirst]
  rw [same, join]
  split
  next none =>
    rw [List.isEmpty_iff.mp none, map_redirected_nil]
  next =>
    rfl

section Named

variable {slot : Nat}

/-- The lanes that a request meets are those in the slots that it touches. -/
theorem exists_namesAt_iff (lanes : List Lane) :
    (∃ other ∈ lanes.findIdxs (·.meets placed), NamesAt lanes other account) ↔
      ∃ lane ∈ lanes.filter (·.meets placed), lane.Names account := by
  simp only [List.mem_findIdxs_iff_exists_getElem_pos, NamesAt,
    List.getElem?_eq_some_iff, List.mem_filter]
  constructor
  · rintro ⟨other, ⟨_, met⟩, lane, ⟨inside, rfl⟩, names⟩
    exact ⟨_, ⟨List.getElem_mem inside, met⟩, names⟩
  · rintro ⟨lane, ⟨member, met⟩, names⟩
    obtain ⟨other, inside, rfl⟩ := List.getElem_of_mem member
    exact ⟨other, ⟨inside, met⟩, _, ⟨inside, rfl⟩, names⟩

/-- Lanes that a request meets leave nothing that is named, others stay. -/
theorem namesAt_map_leftBy (lanes : List Lane) :
    NamesAt (lanes.map (leftBy placed)) slot account ↔
      NamesAt lanes slot account ∧ slot ∉ lanes.findIdxs (·.meets placed) := by
  rw [NamesAt, List.getElem?_map, List.mem_findIdxs_iff_exists_getElem_pos]
  simp only [NamesAt, Option.map_eq_some_iff, List.getElem?_eq_some_iff]
  constructor
  · rintro ⟨_, ⟨other, ⟨within, rfl⟩, rfl⟩, names⟩
    rw [leftBy] at names
    split at names
    next =>
      obtain ⟨one, member, -⟩ := names
      cases member
    next unmet =>
      exact ⟨⟨_, ⟨within, rfl⟩, names⟩, fun ⟨_, met⟩ => unmet met⟩
  · rintro ⟨⟨_, ⟨within, rfl⟩, names⟩, unmet⟩
    refine ⟨_, ⟨_, ⟨within, rfl⟩, rfl⟩, ?_⟩
    rwa [leftBy, if_neg fun met => unmet ⟨within, met⟩]

/--
Once a request was placed where lanes are joined, their accounts and its own are
named there, and other accounts where they were.
-/
theorem namesAt_joined
    (split : lanes = before ++ lane :: after)
    (unmet : ∀ lane ∈ before, lane.meets placed = false)
    (met : lane.meets placed = true) :
    NamesAt
        (before ++
          (joined (lane :: after.filter (·.meets placed)) ++ [placed]) ::
            after.map (leftBy placed))
        slot account ↔
      if slot = before.length then
        account ∈ placed.request.accounts ∨
          ∃ other ∈ lanes.findIdxs (·.meets placed), NamesAt lanes other account
      else
        NamesAt lanes slot account ∧ slot ∉ lanes.findIdxs (·.meets placed) := by
  have metLanes :
      lanes.filter (·.meets placed) = lane :: after.filter (·.meets placed) := by
    rw [split, List.filter_append, filter_meets_of_unmet unmet, List.nil_append,
      List.filter_cons, if_pos met]
  have inSlots :
      before ++
          (joined (lane :: after.filter (·.meets placed)) ++ [placed]) ::
            after.map (leftBy placed) =
        (lanes.map (leftBy placed)).set before.length
          (joined (lane :: after.filter (·.meets placed)) ++ [placed]) := by
    rw [split, List.map_append, map_leftBy unmet, List.map_cons,
      List.set_append_right _ _ (Nat.le_refl _), Nat.sub_self, List.set_cons_zero]
  have inside : before.length < (lanes.map (leftBy placed)).length := by
    rw [split]
    simp
  rw [inSlots]
  split
  next atFirst =>
    rw [NamesAt, atFirst, List.getElem?_set_self inside, exists_namesAt_iff, metLanes]
    simp only [Option.some.injEq, exists_eq_left', names_concat, names_joined]
  next elsewhere =>
    rw [NamesAt, List.getElem?_set_ne (Ne.symm elsewhere)]
    exact namesAt_map_leftBy lanes

/-- A lane of its own at the end names the accounts of its request there. -/
theorem namesAt_concat (lanes : List Lane) :
    NamesAt (lanes ++ [[placed]]) slot account ↔
      if slot = lanes.length then
        account ∈ placed.request.accounts
      else
        NamesAt lanes slot account := by
  rw [NamesAt, List.getElem?_append]
  split
  next inside =>
    rw [if_neg (Nat.ne_of_lt inside)]
    rfl
  next outside =>
    split
    next atEnd =>
      simp [atEnd, Names]
    next behind =>
      have none : lanes[slot]? = none := List.getElem?_eq_none (by omega)
      have noneOwn : ([[placed]] : List Lane)[slot - lanes.length]? = Option.none :=
        List.getElem?_eq_none (by rw [List.length_singleton]; omega)
      rw [NamesAt, none, noneOwn]

/-- Accounts have the slots where they are named, once a request was placed. -/
theorem Hold.owned_of_place
    {target : List Lane}
    (hold : slots.Hold lanes)
    {first : Nat}
    (start :
      ∀ account, NamesAt slots.lanes first account →
        first ∈ slots.touched placed.request.accounts)
    (names :
      ∀ account slot,
        NamesAt target slot account ↔
          if slot = first then
            account ∈ placed.request.accounts ∨
              ∃ other ∈ slots.touched placed.request.accounts,
                NamesAt slots.lanes other account
          else
            NamesAt slots.lanes slot account ∧
              slot ∉ slots.touched placed.request.accounts)
    (account : AccountId)
    (slot : Nat) :
    (placed.request.accounts.map (·, first) ++
          slots.owners.map (Prod.map id
            (redirected first (slots.touched placed.request.accounts)))).lookup
        account =
        some slot ↔
      NamesAt target slot account := by
  rw [names, List.lookup_append, lookup_assigned, lookup_map]
  by_cases named : account ∈ placed.request.accounts
  · rw [if_pos named, Option.some_or, Option.some_inj]
    constructor
    · rintro rfl
      rw [if_pos rfl]
      exact .inl named
    · intro there
      by_contra elsewhere
      rw [if_neg (Ne.symm elsewhere)] at there
      exact there.2
        (mem_touched_iff.mpr ⟨account, named, (hold.owned account slot).mpr there.1⟩)
  · rw [if_neg named, Option.none_or, Option.map_eq_some_iff]
    simp only [hold.owned, named, false_or]
    constructor
    · rintro ⟨other, namesOther, rfl⟩
      by_cases touched : other ∈ slots.touched placed.request.accounts
      · rw [redirected_of_mem touched, if_pos rfl]
        exact ⟨other, touched, namesOther⟩
      · have elsewhere : other ≠ first := by
          intro atFirst
          rw [atFirst] at namesOther touched
          exact touched (start account namesOther)
        rw [redirected_of_not_mem touched, if_neg elsewhere]
        exact ⟨namesOther, touched⟩
    · intro there
      split at there
      next atFirst =>
        obtain ⟨other, touched, namesOther⟩ := there
        exact ⟨other, namesOther, (redirected_of_mem touched).trans atFirst.symm⟩
      next =>
        exact ⟨slot, there.1, redirected_of_not_mem there.2⟩

end Named

section Placed

variable (hold : slots.Hold lanes)

include hold

/-- A request that touches no slot gets one of its own. -/
theorem Hold.place_of_untouched
    (untouched : slots.touched placed.request.accounts = []) :
    (slots.place placed).Hold (Lane.place lanes placed) := by
  have placedIn :
      slots.place placed =
        ⟨slots.lanes ++ [[placed]],
          placed.request.accounts.map (·, slots.lanes.length) ++ slots.owners⟩ := by
    simp only [Slots.place, slotFor, untouched, modify_length, List.nil_append]
  have unmet : ∀ lane ∈ slots.lanes, lane.meets placed = false := by
    rw [← List.findIdxs_eq_nil_iff, ← hold.touched_eq, untouched]
  have start :
      ∀ account, NamesAt slots.lanes slots.lanes.length account →
        slots.lanes.length ∈ slots.touched placed.request.accounts := by
    rintro account ⟨lane, found, -⟩
    rw [List.getElem?_eq_none (Nat.le_refl _)] at found
    cases found
  have owned := hold.owned_of_place start fun account slot => by
    rw [untouched]
    simpa using namesAt_concat slots.lanes
  rw [untouched, map_redirected_nil] at owned
  rw [placedIn]
  constructor
  · rw [List.filter_append, hold.filled, place_of_unmet]
    · rfl
    · rw [← hold.filled]
      exact fun lane member => unmet lane (List.mem_of_mem_filter member)
  · exact owned

/-- A lane in a slot has requests that were placed, in the order of the batch. -/
theorem Hold.ofEarlier (divide : Divide lanes earlier) :
    ∀ other ∈ slots.lanes, other.InOrder ∧ other ⊆ earlier := by
  intro other member
  cases other with
  | nil =>
      exact ⟨List.Pairwise.nil, List.nil_subset _⟩
  | cons one rest =>
      have isLane : one :: rest ∈ lanes := by
        rw [← hold.filled]
        exact List.mem_filter.mpr ⟨member, rfl⟩
      exact ⟨divide.inOrder _ isLane, fun another inside =>
        divide.all.mem_iff.mp (List.mem_flatten.mpr ⟨_, isLane, inside⟩)⟩

/-- A request that touches slots has the lanes there joined and goes with them. -/
theorem Hold.place_of_touched
    (divide : Divide lanes earlier)
    (growing :
      earlier.Pairwise fun first second => first.position < second.position)
    {first : Nat}
    {others : List Nat}
    (touched : slots.touched placed.request.accounts = first :: others) :
    (slots.place placed).Hold (Lane.place lanes placed) := by
  obtain ⟨before, lane, after, split, position, unmet, met, rfl⟩ :=
    exists_split 0 (hold.touched_eq.symm.trans touched)
  rw [Nat.zero_add] at position
  subst position
  have ofEarlier := hold.ofEarlier divide
  have among : lane :: after ⊆ slots.lanes := by
    rw [split]
    exact List.subset_append_right _ _
  have joinedIn :=
    lanes_join placed split
      (fun other member => (ofEarlier other (among member)).1) growing
      fun other member => (ofEarlier other (among member)).2
  have placedIn :
      slots.place placed =
        ⟨before ++
            (joined (lane :: after.filter (·.meets placed)) ++ [placed]) ::
              after.map (leftBy placed),
          placed.request.accounts.map (·, before.length) ++
            slots.owners.map (Prod.map id
              (redirected before.length
                (slots.touched placed.request.accounts)))⟩ := by
    simp only [Slots.place, slotFor, touched, joinedIn, owners_join, modify_length]
  rw [placedIn]
  constructor
  · have nonempty : (!lane.isEmpty) = true := by
      rw [isEmpty_eq_false_of_meets met]
      rfl
    have own :
        (!(joined (lane :: after.filter (·.meets placed)) ++ [placed]).isEmpty) =
          true := by
      simp
    have held :
        lanes =
          before.filter (!·.isEmpty) ++ lane :: after.filter (!·.isEmpty) := by
      rw [← hold.filled, split, List.filter_append, List.filter_cons, if_pos nonempty]
    rw [List.filter_append, List.filter_cons, if_pos own, filter_map_leftBy, held,
      place_of_met (fun other member => unmet other (List.mem_of_mem_filter member))
        met,
      filter_meets_filter]
  · apply hold.owned_of_place
    · intro account _
      rw [touched]
      exact List.mem_cons_self
    · intro account slot
      rw [namesAt_joined split unmet met, hold.touched_eq]

/-- Slots that hold lanes hold them with one more request of the batch. -/
theorem Hold.place
    (divide : Divide lanes earlier)
    (growing :
      earlier.Pairwise fun first second => first.position < second.position) :
    (slots.place placed).Hold (Lane.place lanes placed) := by
  cases touched : slots.touched placed.request.accounts with
  | nil =>
      exact hold.place_of_untouched touched
  | cons first others =>
      exact hold.place_of_touched divide growing touched

/-- Slots that hold lanes hold them with all further requests of the batch. -/
theorem Hold.placeAll
    {rest : List PlacedRequest}
    (divide : Divide lanes earlier)
    (growing :
      (earlier ++ rest).Pairwise fun first second =>
        first.position < second.position) :
    (rest.foldl Slots.place slots).Hold (rest.foldl Lane.place lanes) := by
  induction rest generalizing slots lanes earlier with
  | nil =>
      exact hold
  | cons placed rest inductionHypothesis =>
      obtain ⟨growingEarlier, -, behind⟩ := List.pairwise_append.mp growing
      have later := divide.place fun one member =>
        Nat.le_of_lt (behind one member placed List.mem_cons_self)
      rw [List.append_cons] at growing
      exact inductionHypothesis (hold.place divide growingEarlier) later growing

end Placed

end Slots

/-- The lanes of a batch are those that its requests are placed in one by one. -/
theorem ofBatch_eq (batch : List ActionRequest) :
    ofBatch batch = (placedBatch batch).foldl place [] := by
  have empty : Slots.empty.Hold [] :=
    ⟨rfl, fun account slot => by simp [Slots.empty, NamesAt]⟩
  exact (empty.placeAll divide_nil (growing_placedBatch batch)).filled

end PatronFees.Lane
