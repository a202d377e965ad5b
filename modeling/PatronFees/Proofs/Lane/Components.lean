import PatronFees.Proofs.Lane
import Mathlib.Logic.Relation

namespace PatronFees.Lane

open List

/-!
# Lanes are components

Requests that name a common account are linked, and so are those that a chain of
such requests leads between. A lane is one component of the batch: the requests
linked to its first, in the order of the batch. Lanes stand in the order of their
first requests.
-/

/-- Two of some requests name a common account. -/
structure Meet
    (placed : List PlacedRequest)
    (first second : PlacedRequest) : Prop where
  first_mem : first ∈ placed
  second_mem : second ∈ placed
  common : ∃ id ∈ first.request.accounts, id ∈ second.request.accounts

/-- A chain of some requests, neighbours of which meet, leads from one to another. -/
def Linked (placed : List PlacedRequest) :
    PlacedRequest → PlacedRequest → Prop :=
  Relation.ReflTransGen (Meet placed)

/-- Every request of a lane comes behind the first one of another. -/
def StartsBefore (lane other : Lane) : Prop :=
  ∀ first ∈ lane.head?, ∀ second ∈ other, first.position < second.position

variable {lane : Lane} {lanes : List Lane} {earlier : List PlacedRequest}
  {placed first second : PlacedRequest}

section Links

theorem Meet.meets
    (meet : Meet earlier first second) :
    first.meets second = true :=
  PlacedRequest.meets_eq_true_iff.mpr meet.common

instance (placed : List PlacedRequest) : Std.Symm (Meet placed) where
  symm first second meet := by
    obtain ⟨id, inFirst, inSecond⟩ := meet.common
    exact ⟨meet.second_mem, meet.first_mem, id, inSecond, inFirst⟩

theorem Linked.symm
    (linked : Linked earlier first second) :
    Linked earlier second first :=
  Relation.ReflTransGen.stdSymm.symm first second linked

/-- A chain of some requests is one of these and more. -/
theorem Linked.mono
    {more : List PlacedRequest}
    (among : earlier ⊆ more)
    (linked : Linked earlier first second) :
    Linked more first second := by
  induction linked with
  | refl =>
      exact .refl
  | tail _ meet inductionHypothesis =>
      exact inductionHypothesis.tail
        ⟨among meet.first_mem, among meet.second_mem, meet.common⟩

/-- A request that meets none is linked to none but itself. -/
theorem Linked.eq_of_meets_none
    (alone : ∀ another, first.meets another = false)
    (linked : Linked earlier first second) :
    second = first := by
  rcases linked.cases_head with same | ⟨next, meet, -⟩
  · exact same.symm
  · have meets := meet.meets
    rw [alone next] at meets
    cases meets

/-- A chain does not leave the lane that it starts in. -/
theorem Divide.mem_of_linked
    (divide : Divide lanes earlier)
    (isLane : lane ∈ lanes)
    (member : first ∈ lane)
    (linked : Linked earlier first second) :
    second ∈ lane := by
  induction linked with
  | refl =>
      exact member
  | tail _ meet inductionHypothesis =>
      obtain ⟨next, isNext, inside⟩ :=
        List.mem_flatten.mp (divide.all.mem_iff.mpr meet.second_mem)
      by_cases same : lane = next
      · exact same ▸ inside
      · have apart := divide.apart.forall isLane isNext same
          _ inductionHypothesis _ inside
        rw [meet.meets] at apart
        cases apart

end Links

/-- The first request of a lane in order comes before all others. -/
theorem InOrder.head_le
    (inOrder : lane.InOrder)
    (isFirst : first ∈ lane.head?)
    (member : second ∈ lane) :
    first.position ≤ second.position := by
  obtain ⟨rest, rfl⟩ := List.head?_eq_some_iff.mp isFirst
  rcases List.mem_cons.mp member with same | behind
  · exact Nat.le_of_eq (congrArg _ same.symm)
  · exact (List.pairwise_cons.mp inOrder).1 second behind

/-- A lane after a request was placed is its own or one that it does not meet. -/
theorem mem_place :
    lane ∈ place lanes placed ↔
      lane = joined (lanes.filter (·.meets placed)) ++ [placed] ∨
        lane ∈ lanes ∧ lane.meets placed = false := by
  rw [(place_perm lanes placed).mem_iff, List.mem_cons, List.mem_filter,
    Bool.not_eq_true']

/-- Lanes that divide some requests into components, ordered by where these start. -/
structure AreComponents
    (lanes : List Lane)
    (earlier : List PlacedRequest) : Prop where
  divide : Divide lanes earlier
  nonempty : ∀ lane ∈ lanes, lane ≠ []
  linked :
    ∀ lane ∈ lanes, ∀ first ∈ lane, ∀ second ∈ lane, Linked earlier first second
  byStart : lanes.Pairwise StartsBefore

namespace AreComponents

theorem mem_earlier
    (components : AreComponents lanes earlier)
    (isLane : lane ∈ lanes)
    (member : first ∈ lane) :
    first ∈ earlier :=
  components.divide.all.mem_iff.mp (List.mem_flatten.mpr ⟨lane, isLane, member⟩)

/-- All requests of the lanes that a new one meets are linked to it. -/
theorem linked_placed
    (components : AreComponents lanes earlier)
    (member : first ∈ joined (lanes.filter (·.meets placed)) ++ [placed]) :
    Linked (earlier ++ [placed]) first placed := by
  rcases List.mem_append.mp member with isJoined | isPlaced
  · obtain ⟨lane, among, inside⟩ := mem_joined.mp isJoined
    obtain ⟨isLane, meets⟩ := List.mem_filter.mp among
    obtain ⟨neighbour, inLane, meet⟩ := List.any_eq_true.mp meets
    have chain := components.linked lane isLane first inside neighbour inLane
    refine Relation.ReflTransGen.tail
      (chain.mono (List.subset_append_left earlier [placed]))
      ⟨?_, ?_, PlacedRequest.meets_eq_true_iff.mp meet⟩
    · exact List.mem_append_left _ (components.mem_earlier isLane inLane)
    · exact List.mem_append_right _ List.mem_cons_self
  · rw [List.mem_singleton.mp isPlaced]
    exact Relation.ReflTransGen.refl

/-- Lanes in front of all that a request meets start before its own lane. -/
theorem startsBefore_joined
    (components : AreComponents lanes earlier)
    (behind : ∀ one ∈ earlier, one.position < placed.position)
    (isBefore : lane ∈ lanes.takeWhile (!·.meets placed)) :
    StartsBefore lane (joined (lanes.filter (·.meets placed)) ++ [placed]) := by
  have parts :
      lanes.takeWhile (!·.meets placed) ++ lanes.dropWhile (!·.meets placed) =
        lanes :=
    List.takeWhile_append_dropWhile
  have unmet : ∀ lane ∈ lanes.takeWhile (!·.meets placed), (!lane.meets placed) :=
    fun lane member =>
      List.mem_takeWhile_imp (p := fun lane : Lane => !lane.meets placed) member
  have byStart := components.byStart
  rw [← parts] at byStart
  intro first isFirst second member
  have isLane : lane ∈ lanes := List.takeWhile_subset _ isBefore
  rcases List.mem_append.mp member with isJoined | isPlaced
  · obtain ⟨other, among, inside⟩ := mem_joined.mp isJoined
    obtain ⟨isOther, met⟩ := List.mem_filter.mp among
    rw [← parts] at isOther
    rcases List.mem_append.mp isOther with inFront | onward
    · have notMet := unmet other inFront
      rw [met] at notMet
      cases notMet
    · exact (List.pairwise_append.mp byStart).2.2 lane isBefore other onward
        first isFirst second inside
  · rw [List.mem_singleton.mp isPlaced]
    exact behind first (components.mem_earlier isLane (List.mem_of_mem_head? isFirst))

/-- The lane of a request starts before those behind the first that it meets. -/
theorem joined_startsBefore
    (components : AreComponents lanes earlier)
    (isBehind :
      lane ∈ (lanes.dropWhile (!·.meets placed)).filter (!·.meets placed)) :
    StartsBefore (joined (lanes.filter (·.meets placed)) ++ [placed]) lane := by
  obtain ⟨onward, unmet⟩ := List.mem_filter.mp isBehind
  have within : lanes.dropWhile (!·.meets placed) <+ lanes :=
    List.dropWhile_sublist _
  have byStart := components.byStart.sublist within
  have met := List.head?_dropWhile_not (fun lane : Lane => !lane.meets placed) lanes
  rcases opened : lanes.dropWhile (!·.meets placed) with _ | ⟨foremost, rest⟩
  · rw [opened] at onward
    cases onward
  · rw [opened] at onward within byStart met
    have foremostMet : foremost.meets placed = true := by simpa using met
    have isForemost : foremost ∈ lanes := within.subset List.mem_cons_self
    have behind : lane ∈ rest := by
      rcases List.mem_cons.mp onward with same | isRest
      · rw [same, foremostMet] at unmet
        cases unmet
      · exact isRest
    obtain ⟨start, others, rfl⟩ :=
      List.exists_cons_of_ne_nil (components.nonempty foremost isForemost)
    have startJoined : start ∈ joined (lanes.filter (·.meets placed)) :=
      mem_joined.mpr ⟨start :: others,
        List.mem_filter.mpr ⟨isForemost, foremostMet⟩, List.mem_cons_self⟩
    have inOrder : InOrder (joined (lanes.filter (·.meets placed))) :=
      joined_inOrder fun other among =>
        components.divide.inOrder other (List.mem_of_mem_filter among)
    intro first isFirst second inside
    -- What was joined starts no later than the foremost lane that it has.
    have firstJoined :
        first ∈ (joined (lanes.filter (·.meets placed))).head? := by
      rwa [List.head?_append_of_ne_nil _ (List.ne_nil_of_mem startJoined)]
        at isFirst
    exact Nat.lt_of_le_of_lt (inOrder.head_le firstJoined startJoined)
      ((List.pairwise_cons.mp byStart).1 lane behind start rfl second inside)

/-- Placing a request behind all others makes components of them and it. -/
theorem place
    (components : AreComponents lanes earlier)
    (behind : ∀ one ∈ earlier, one.position < placed.position) :
    AreComponents (place lanes placed) (earlier ++ [placed]) where
  divide :=
    components.divide.place fun one member => Nat.le_of_lt (behind one member)
  nonempty := by
    intro lane isLane
    rcases mem_place.mp isLane with rfl | ⟨among, -⟩
    · exact List.concat_ne_nil _ _
    · exact components.nonempty lane among
  linked := by
    intro lane isLane first firstIn second secondIn
    rcases mem_place.mp isLane with rfl | ⟨among, -⟩
    · exact (components.linked_placed firstIn).trans
        (components.linked_placed secondIn).symm
    · exact (components.linked lane among first firstIn second secondIn).mono
        (List.subset_append_left earlier [placed])
  byStart := by
    rw [place_eq, List.pairwise_append, List.pairwise_cons]
    refine ⟨components.byStart.sublist (List.takeWhile_sublist _),
      ⟨fun lane isBehind => components.joined_startsBefore isBehind, ?_⟩, ?_⟩
    · exact components.byStart.sublist
        (List.filter_sublist.trans (List.dropWhile_sublist _))
    · intro lane isBefore other isOther
      rcases List.mem_cons.mp isOther with rfl | isBehind
      · exact components.startsBefore_joined behind isBefore
      · have byStart := components.byStart
        rw [← List.takeWhile_append_dropWhile
          (p := fun lane : Lane => !lane.meets placed) (l := lanes)] at byStart
        exact (List.pairwise_append.mp byStart).2.2 lane isBefore other
          (List.mem_of_mem_filter isBehind)

/-- Placing requests in order behind all others makes components of them all. -/
theorem placeAll
    {rest : List PlacedRequest}
    (components : AreComponents lanes earlier)
    (growing :
      (earlier ++ rest).Pairwise fun first second =>
        first.position < second.position) :
    AreComponents (rest.foldl Lane.place lanes) (earlier ++ rest) := by
  induction rest generalizing lanes earlier with
  | nil =>
      rwa [List.append_nil]
  | cons placed rest inductionHypothesis =>
      have behind : ∀ one ∈ earlier, one.position < placed.position :=
        fun one member =>
          (List.pairwise_append.mp growing).2.2 one member placed
            List.mem_cons_self
      rw [List.append_cons] at growing ⊢
      exact inductionHypothesis (components.place behind) growing

end AreComponents

/-- The lanes of a batch are its components. -/
theorem areComponents_ofBatch (batch : List ActionRequest) :
    AreComponents (ofBatch batch) (placedBatch batch) := by
  have empty : AreComponents [] [] :=
    ⟨divide_nil, by simp, by simp, List.Pairwise.nil⟩
  rw [ofBatch_eq]
  exact empty.placeAll (growing_placedBatch batch)

/--
The lanes of a batch have each of its requests once. None is empty, each has its
requests in the order of the batch, and each starts before those behind it. Two
requests are in one lane exactly if a chain of requests links them, neighbours of
which name a common account; a request that names none is alone.
-/
theorem lanes_are_components (batch : List ActionRequest) :
    (ofBatch batch).flatten ~ placedBatch batch ∧
      (∀ lane ∈ ofBatch batch, lane ≠ [] ∧ lane <+ placedBatch batch) ∧
      (ofBatch batch).Pairwise StartsBefore ∧
      (∀ first ∈ placedBatch batch, ∀ second ∈ placedBatch batch,
        (∃ lane ∈ ofBatch batch, first ∈ lane ∧ second ∈ lane) ↔
          Linked (placedBatch batch) first second) ∧
      ∀ one ∈ placedBatch batch,
        one.request.accounts = [] → [one] ∈ ofBatch batch := by
  have components := areComponents_ofBatch batch
  have divide := components.divide
  have inBatchOrder : ∀ lane ∈ ofBatch batch, lane <+ placedBatch batch := by
    intro lane isLane
    conv_lhs => rw [← filter_contains_placedBatch isLane]
    exact List.filter_sublist
  refine ⟨divide.all,
    fun lane isLane => ⟨components.nonempty lane isLane, inBatchOrder lane isLane⟩,
    components.byStart, ?_, ?_⟩
  · intro first firstIn second _
    constructor
    · rintro ⟨lane, isLane, firstInside, secondInside⟩
      exact components.linked lane isLane first firstInside second secondInside
    · intro linked
      obtain ⟨lane, isLane, inside⟩ :=
        List.mem_flatten.mp (divide.all.mem_iff.mpr firstIn)
      exact ⟨lane, isLane, inside, divide.mem_of_linked isLane inside linked⟩
  · intro one isOne namesNone
    obtain ⟨lane, isLane, inside⟩ :=
      List.mem_flatten.mp (divide.all.mem_iff.mpr isOne)
    have meetsNone : ∀ another, one.meets another = false := by
      intro another
      rw [PlacedRequest.meets, namesNone]
      rfl
    have onlyOne : ∀ another ∈ lane, another = one := fun another member =>
      (components.linked lane isLane one inside another member).eq_of_meets_none
        meetsNone
    have distinct : lane.Nodup :=
      (inBatchOrder lane isLane).nodup (nodup_placedBatch batch)
    have alone : lane = [one] :=
      List.perm_singleton.mp
        ((List.perm_ext_iff_of_nodup distinct (List.nodup_singleton one)).mpr
          fun another => by
            rw [List.mem_singleton]
            exact ⟨onlyOne another, fun same => same ▸ inside⟩)
    exact alone ▸ isLane

end PatronFees.Lane
