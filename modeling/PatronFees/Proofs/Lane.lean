import PatronFees.Proofs.Lane.Slots

namespace PatronFees

open List

/-!
# Dividing a batch into lanes

The lanes of a batch have each of its requests once, in the order of the batch,
and no account is named in two of them.
-/

namespace Lane

variable {lane : Lane} {batch : List ActionRequest} {one : PlacedRequest}

/-- The lanes of a batch divide it. -/
theorem divide_ofBatch (batch : List ActionRequest) :
    Divide (ofBatch batch) (placedBatch batch) := by
  rw [ofBatch_eq]
  exact divide_nil.placeAll (inOrder_placedBatch batch)

theorem nodup_placedBatch (batch : List ActionRequest) :
    (placedBatch batch).Nodup := by
  apply List.Nodup.of_map (·.position)
  rw [map_position_placedBatch]
  exact List.nodup_range

/-- Each request of a lane is one of the batch. -/
theorem mem_placedBatch_of_mem
    (isLane : lane ∈ ofBatch batch)
    (member : one ∈ lane) :
    one ∈ placedBatch batch :=
  (divide_ofBatch batch).all.mem_iff.mp
    (List.mem_flatten.mpr ⟨lane, isLane, member⟩)

/-- A lane has its requests in the order of the batch. -/
theorem filter_contains_placedBatch
    (isLane : lane ∈ ofBatch batch) :
    (placedBatch batch).filter lane.contains = lane := by
  have divide := divide_ofBatch batch
  have distinct : lane.Nodup :=
    (List.sublist_flatten_of_mem isLane).nodup
      (divide.all.nodup_iff.mpr (nodup_placedBatch batch))
  have same : (placedBatch batch).filter lane.contains ~ lane := by
    refine (List.perm_ext_iff_of_nodup
      ((nodup_placedBatch batch).filter _) distinct).mpr fun one => ?_
    rw [List.mem_filter, List.contains_iff_mem]
    exact ⟨And.right, fun member => ⟨mem_placedBatch_of_mem isLane member, member⟩⟩
  -- Positions tell the requests apart, so there is one order by position.
  have identified :
      ∀ first ∈ placedBatch batch, ∀ second ∈ placedBatch batch,
        first.position = second.position → first = second := by
    intro first firstIn second secondIn
    apply List.inj_on_of_nodup_map _ firstIn secondIn
    rw [map_position_placedBatch]
    exact List.nodup_range
  refine List.Perm.eq_of_pairwise ?_
    ((inOrder_placedBatch batch).filter _) (divide.inOrder lane isLane) same
  intro first second firstIn secondIn lower upper
  exact identified first (List.mem_of_mem_filter firstIn) second
    (mem_placedBatch_of_mem isLane secondIn) (Nat.le_antisymm lower upper)

/-- A request outside of a lane names no account of the lane. -/
theorem disjoint_of_not_mem
    (isLane : lane ∈ ofBatch batch)
    (inBatch : one ∈ placedBatch batch)
    (outside : one ∉ lane) :
    (lane.flatMap (·.request.accounts)).Disjoint one.request.accounts := by
  have divide := divide_ofBatch batch
  obtain ⟨other, isOther, inside⟩ :=
    List.mem_flatten.mp (divide.all.mem_iff.mpr inBatch)
  have different : lane ≠ other := by
    intro same
    exact outside (same ▸ inside)
  have apart := divide.apart.forall isLane isOther different
  intro id inLane named
  obtain ⟨first, member, here⟩ := List.mem_flatMap.mp inLane
  exact PlacedRequest.disjoint_of_meets_eq_false
    (apart first member one inside) here named

end Lane

end PatronFees
