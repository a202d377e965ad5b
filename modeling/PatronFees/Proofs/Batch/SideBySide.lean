import PatronFees.Proofs.Batch.Turns
import PatronFees.Proofs.Batch.Work
import PatronFees.Proofs.Lane

namespace PatronFees.Batch

/-!
# Lanes side by side

The lanes of a batch can be carried out side by side, a request to the stores at
a time and in any order. With identifiers that are fresh, and amounts that stay in
range, everything but the stamps comes out as if the requests of the batch were
carried out one after another.
-/

open Engine

variable {engine : Engine} {office : Office} {batch : List ActionRequest}
  {results : List Processed}

/-- The lanes of a batch, each to be carried out from its first request on. -/
def lanesOf
    (engine : Engine)
    (batch : List ActionRequest) :
    List (Procedure (Outcome (List Processed))) :=
  (Lane.ofBatch batch).map fun lane =>
    ExceptT.run (processLane engine (lane.map (·.request)))

/-- The lanes of a batch once they took turns, and the office then. -/
def inTurns
    (engine : Engine)
    (batch : List ActionRequest)
    (office : Office)
    (schedule : List Nat) :
    List (Procedure (Outcome (List Processed))) × Office :=
  Procedure.takeTurns Office.answer schedule (lanesOf engine batch, office)

/-- The requests of a lane ended as those at their positions did, stamps aside. -/
def Repeats
    (results : List Processed)
    (lane : Lane)
    (outcome : Outcome (List Processed)) : Prop :=
  ∃ laneResults : List Processed,
    outcome = .ok laneResults ∧
      laneResults.map (fun processed => some processed.told) =
        lane.map fun one => (results[one.position]?).map Processed.told

/-- What lanes ended with is what the batch ends with in its order. -/
structure AgreesWith
    (batch : List ActionRequest)
    (before : Office)
    (results : List Processed)
    (inOrder : Office)
    (outcomes : List (Outcome (List Processed)))
    (after : Office) : Prop where
  /-- Each request of the batch is in one lane, once. -/
  requests : ((Lane.ofBatch batch).flatten).Perm (Lane.placedBatch batch)
  /-- Every request ended the same. -/
  results : List.Forall₂ (Repeats results) (Lane.ofBatch batch) outcomes
  accounts : ∀ id, after.accounts.find? id = inOrder.accounts.find? id
  histories :
    ∀ id,
      (after.ledger.historyOf id).map (·.posting) =
        (inOrder.ledger.historyOf id).map (·.posting)
  /-- Accounts that no request names are as they were. -/
  untouched : ∀ id ∉ batch.flatMap (·.accounts), before.SameAt id after

/-- The requests at a desk with the books of an office. -/
def worker
    (engine : Engine)
    (office : Office)
    (requests : List ActionRequest) :
    Worker (Outcome (List Processed)) where
  duty :=
    { accounts := requests.flatMap (·.accounts)
      goal :=
        IsSettled (List.map Processed.told)
          ⟨office.books, [], 4 * (requests.flatMap (·.accounts)).length⟩
          (4 * (requests.flatMap (·.accounts)).length)
          (engine.tellAll office.books requests) }
  desk := ⟨office.books, [], 4 * (requests.flatMap (·.accounts)).length⟩
  procedure := ExceptT.run (processLane engine requests)

/-- Each worker will reach what is told of its requests. -/
theorem isOnCourse_worker
    (engine : Engine)
    (office : Office)
    (requests : List ActionRequest) :
    (worker engine office requests).IsOnCourse office where
  same := .refl _ office.books
  ensures := by
    apply ensures_processLane
    · exact fun request member id named =>
        List.mem_flatMap.mpr ⟨request, member, named⟩
    · exact ⟨rfl, Nat.le_refl _⟩

/-- The workers may draw four identifiers for each account that they name. -/
theorem sum_budgets
    (engine : Engine)
    (office : Office)
    (parts : List (List ActionRequest)) :
    ((parts.map (worker engine office)).map (·.desk.budget)).sum =
      4 * (parts.flatten.flatMap (·.accounts)).length := by
  induction parts with
  | nil =>
      rfl
  | cons requests rest inductionHypothesis =>
      rw [List.map_cons, List.map_cons, List.sum_cons, inductionHypothesis,
        List.flatten_cons, List.flatMap_append, List.length_append,
        Nat.mul_add]
      rfl

/-- The office hosts workers on different accounts while identifiers are fresh. -/
theorem hosts_workers
    {parts : List (List ActionRequest)}
    (recorded : office.ledger.IsRecorded)
    (fresh :
      office.DrawsFresh (4 * (parts.flatten.flatMap (·.accounts)).length))
    (elsewhere :
      parts.Pairwise fun first second =>
        (first.flatMap (·.accounts)).Disjoint (second.flatMap (·.accounts))) :
    office.Hosts (parts.map (worker engine office)) where
  recorded := recorded
  onCourse := by
    intro one member
    obtain ⟨requests, -, rfl⟩ := List.mem_map.mp member
    exact isOnCourse_worker engine office requests
  elsewhere := List.pairwise_map.mpr elsewhere
  apart := by
    have nothing :
        (parts.map (worker engine office)).flatMap (·.desk.drawn) = [] := by
      apply List.flatMap_eq_nil_iff.mpr
      intro one member
      obtain ⟨requests, -, rfl⟩ := List.mem_map.mp member
      rfl
    rw [nothing, sum_budgets]
    exact fresh.keepsApart

/-- One after another, the requests of a batch come to what is told of them. -/
theorem told_of_run
    (recorded : office.ledger.IsRecorded)
    (fresh : office.DrawsFresh (4 * (batch.flatMap (·.accounts)).length))
    (inOrder : (office.run (processLane engine batch)).1 = .ok results) :
    ∃ last,
      engine.tellAll office.books batch = .ok (results.map Processed.told, last) ∧
        Books.SameOn (batch.flatMap (·.accounts))
          (office.run (processLane engine batch)).2.books last ∧
        (office.run (processLane engine batch)).2.ledger.IsRecorded ∧
        ∀ id ∉ batch.flatMap (·.accounts),
          office.SameAt id (office.run (processLane engine batch)).2 := by
  have oneLane : [batch].flatten = batch := List.flatten_singleton
  have hosts : office.Hosts ([batch].map (worker engine office)) :=
    hosts_workers recorded (by rwa [oneLane]) (List.pairwise_singleton _ _)
  obtain ⟨schedule, ran⟩ :
      ∃ schedule,
        Procedure.takeTurns Office.answer schedule
            (([batch].map (worker engine office)).map (·.procedure), office) =
          ([.done (office.run (processLane engine batch)).1],
            (office.run (processLane engine batch)).2) :=
    Procedure.exists_takeTurns_run Office.answer [] [] _ office
  obtain ⟨later, furtherOn⟩ := hosts.takeTurns schedule
  rw [ran] at furtherOn
  have isDone :
      (worker engine office batch).duty.IsDone
        (office.run (processLane engine batch)).2
        (office.run (processLane engine batch)).1 :=
    (List.forall₂_cons.mp (furtherOn.isDone List.map_singleton.symm)).1
  obtain ⟨desk, reached, same⟩ := isDone
  rw [inOrder] at reached
  have told := IsSettled.told_eq reached
  refine ⟨desk.books, told, same, furtherOn.hosts.recorded, fun id outside => ?_⟩
  apply furtherOn.unchanged id
  intro one member
  rw [List.mem_singleton.mp member]
  exact outside

/-- What is told of a batch is told at the positions of its requests. -/
theorem map_lookUp_placedBatch
    {tolds : List Told}
    (each : tolds.length = batch.length) :
    (Lane.placedBatch batch).map (fun one => tolds[one.position]?) =
      tolds.map some := by
  have positions :
      (Lane.placedBatch batch).map (fun one => tolds[one.position]?) =
        ((Lane.placedBatch batch).map (·.position)).map (tolds[·]?) := by
    rw [List.map_map]
    rfl
  rw [positions, Lane.map_position_placedBatch, ← each]
  apply List.ext_getElem?
  intro position
  rw [List.getElem?_map, List.getElem?_map]
  by_cases inside : position < tolds.length
  · rw [List.getElem?_range inside, Option.map_some,
      List.getElem?_eq_getElem inside]
    rfl
  · have outside := Nat.le_of_not_lt inside
    rw [List.getElem?_eq_none (by rwa [List.length_range]),
      List.getElem?_eq_none outside]
    rfl

/-- In its lane, too, every request comes to what is told of it. -/
theorem tellAll_lane
    {lane : Lane}
    {tolds : List Told}
    {last : Books}
    (isLane : lane ∈ Lane.ofBatch batch)
    (tells : engine.tellAll office.books batch = .ok (tolds, last)) :
    ∃ laneTolds laneLast,
      engine.tellAll office.books (lane.map (·.request)) =
          .ok (laneTolds, laneLast) ∧
        lane.map (fun one => tolds[one.position]?) = laneTolds.map some ∧
        Books.SameOn (lane.flatMap (·.request.accounts)) last laneLast := by
  have each := congrArg List.length (map_request_of_tellAll tells)
  rw [List.length_map] at each
  rw [← Lane.map_request_placedBatch batch] at tells
  have named :
      ∀ one ∈ Lane.placedBatch batch,
        lane.contains one = true →
          one.request.accounts ⊆ lane.flatMap (·.request.accounts) :=
    fun one _ inside id named =>
      List.mem_flatMap.mpr ⟨one, List.contains_iff_mem.mp inside, named⟩
  have apart :
      ∀ one ∈ Lane.placedBatch batch,
        lane.contains one = false →
          (lane.flatMap (·.request.accounts)).Disjoint one.request.accounts := by
    intro one inBatch outside
    apply Lane.disjoint_of_not_mem isLane inBatch
    intro member
    rw [List.contains_iff_mem.mpr member] at outside
    cases outside
  have own :=
    tellAll_filter lane.contains named apart (.refl _ office.books) tells
      (map_lookUp_placedBatch each)
  rwa [Lane.filter_contains_placedBatch isLane] at own

/-- The requests of the lanes, lane by lane. -/
def partsOf (batch : List ActionRequest) : List (List ActionRequest) :=
  (Lane.ofBatch batch).map fun lane => lane.map (·.request)

theorem lanesOf_eq
    (engine : Engine)
    (batch : List ActionRequest)
    (office : Office) :
    lanesOf engine batch =
      ((partsOf batch).map (worker engine office)).map (·.procedure) := by
  rw [partsOf, List.map_map, List.map_map]
  rfl

/-- The lanes have all requests of the batch. -/
theorem flatten_partsOf_perm (batch : List ActionRequest) :
    (partsOf batch).flatten.Perm batch := by
  have all := (Lane.divide_ofBatch batch).all.map (·.request)
  rwa [List.map_flatten, Lane.map_request_placedBatch] at all

/-- The lanes are about different accounts. -/
theorem pairwise_disjoint_partsOf (batch : List ActionRequest) :
    (partsOf batch).Pairwise fun first second =>
      (first.flatMap (·.accounts)).Disjoint (second.flatMap (·.accounts)) := by
  rw [partsOf, List.pairwise_map]
  refine (Lane.divide_ofBatch batch).apart.imp fun {first second} apart => ?_
  rw [List.flatMap_map, List.flatMap_map]
  intro id here there
  obtain ⟨one, inFirst, named⟩ := List.mem_flatMap.mp here
  obtain ⟨other, inSecond, alsoNamed⟩ := List.mem_flatMap.mp there
  exact PlacedRequest.disjoint_of_meets_eq_false
    (apart one inFirst other inSecond) named alsoNamed

/-- The office hosts the lanes of a batch side by side. -/
theorem hosts_lanes
    (engine : Engine)
    (recorded : office.ledger.IsRecorded)
    (fresh : office.DrawsFresh (4 * (batch.flatMap (·.accounts)).length)) :
    office.Hosts ((partsOf batch).map (worker engine office)) := by
  have all :=
    ((flatten_partsOf_perm batch).flatMap_right (·.accounts)).length_eq
  exact hosts_workers recorded (by rwa [all]) (pairwise_disjoint_partsOf batch)

/-- Every account that is named in a batch is named in a lane. -/
theorem exists_lane_of_mem
    {id : AccountId}
    (named : id ∈ batch.flatMap (·.accounts)) :
    ∃ lane ∈ Lane.ofBatch batch, id ∈ lane.flatMap (·.request.accounts) := by
  rw [← Lane.map_request_placedBatch batch, List.flatMap_map] at named
  obtain ⟨one, inBatch, here⟩ := List.mem_flatMap.mp named
  obtain ⟨lane, isLane, inside⟩ :=
    List.mem_flatten.mp ((Lane.divide_ofBatch batch).all.mem_iff.mpr inBatch)
  exact ⟨lane, isLane, List.mem_flatMap.mpr ⟨one, inside, here⟩⟩

end PatronFees.Batch
