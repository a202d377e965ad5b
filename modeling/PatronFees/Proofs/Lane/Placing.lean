import PatronFees.Lane
import PatronFees.Proofs.Lists
import Mathlib.Data.List.Lattice
import Mathlib.Data.List.Pairwise
import Mathlib.Data.List.TakeWhile

namespace PatronFees

open List

/-!
# Placing requests in lanes

Lanes divide requests: they have each of them once, in the order of the batch, and
no account is named in two of them. Placing one more request behind all others keeps
this: it goes with all lanes that it meets, and no other names any of its accounts.
-/

namespace PlacedRequest

variable {first second : PlacedRequest}

/-- The two requests name a common account. -/
def meets (first second : PlacedRequest) : Bool :=
  first.request.accounts.any second.request.accounts.contains

/-- Two requests meet when they name a common account. -/
theorem meets_eq_true_iff :
    first.meets second = true ↔
      ∃ id ∈ first.request.accounts, id ∈ second.request.accounts := by
  rw [meets, List.any_eq_true]
  simp only [List.contains_iff_mem]

theorem meets_comm
    (first second : PlacedRequest) :
    first.meets second = second.meets first := by
  rw [Bool.eq_iff_iff, meets_eq_true_iff, meets_eq_true_iff]
  simp only [and_comm]

/-- Requests that do not meet name different accounts. -/
theorem disjoint_of_meets_eq_false
    (apart : first.meets second = false) :
    first.request.accounts.Disjoint second.request.accounts := by
  intro id here there
  have meet := meets_eq_true_iff.mpr ⟨id, here, there⟩
  rw [apart] at meet
  cases meet

end PlacedRequest

namespace Lane

variable {lane other : Lane} {lanes : List Lane} {earlier : List PlacedRequest}
  {placed : PlacedRequest}

/-- Some request of the lane shares an account with the given one. -/
def meets
    (lane : Lane)
    (placed : PlacedRequest) : Bool :=
  lane.any (·.meets placed)

/-- One lane of several, in the order of the batch. -/
def joined (lanes : List Lane) : Lane :=
  lanes.foldr
    (fun lane others =>
      List.merge lane others fun first second =>
        first.position ≤ second.position)
    []

/--
Place the next request of a batch: in a lane with all the lanes it meets, where
the first of them stood, or else in a lane of its own at the end.
-/
def place
    (lanes : List Lane)
    (placed : PlacedRequest) :
    List Lane :=
  let before := lanes.takeWhile fun lane => !lane.meets placed
  let onward := lanes.dropWhile fun lane => !lane.meets placed
  let met := onward.filter fun lane => lane.meets placed
  let unmet := onward.filter fun lane => !lane.meets placed
  before ++ (joined met ++ [placed]) :: unmet

/-- The requests of a batch with their positions. -/
def placedBatch (batch : List ActionRequest) : List PlacedRequest :=
  batch.zipIdx.map fun (request, position) => ⟨position, request⟩

theorem map_request_placedBatch (batch : List ActionRequest) :
    (placedBatch batch).map (·.request) = batch := by
  rw [placedBatch, List.map_map]
  exact List.zipIdx_map_fst 0 batch

theorem map_position_placedBatch (batch : List ActionRequest) :
    (placedBatch batch).map (·.position) = List.range batch.length := by
  rw [placedBatch, List.map_map, List.range_eq_range']
  exact List.zipIdx_map_snd 0 batch

/-- Two lanes have no requests that meet. -/
def AreApart (lane other : Lane) : Prop :=
  ∀ first ∈ lane, ∀ second ∈ other, first.meets second = false

theorem AreApart.symm
    (apart : AreApart lane other) :
    AreApart other lane := by
  intro first member second among
  rw [PlacedRequest.meets_comm]
  exact apart second among first member

/-- The requests are in the order of the batch. -/
def InOrder (lane : Lane) : Prop :=
  lane.Pairwise fun first second => first.position ≤ second.position

instance : Std.Symm AreApart where
  symm _ _ := AreApart.symm

theorem meets_eq_false_iff :
    lane.meets placed = false ↔ ∀ one ∈ lane, one.meets placed = false := by
  rw [meets, List.any_eq_false]
  simp only [Bool.not_eq_true]

/-- Joining lanes keeps their requests. -/
theorem joined_perm (lanes : List Lane) :
    joined lanes ~ lanes.flatten := by
  induction lanes with
  | nil =>
      exact .refl _
  | cons lane rest inductionHypothesis =>
      exact (List.merge_perm_append _).trans
        (inductionHypothesis.append_left lane)

/-- A request among those that lanes were joined of is in a lane that it came of. -/
theorem mem_joined :
    placed ∈ joined lanes ↔ ∃ lane ∈ lanes, placed ∈ lane :=
  (joined_perm lanes).mem_iff.trans List.mem_flatten

/-- Joining lanes keeps the order of the batch. -/
theorem joined_inOrder
    (inOrder : ∀ lane ∈ lanes, lane.InOrder) :
    (joined lanes).InOrder := by
  induction lanes with
  | nil =>
      exact List.Pairwise.nil
  | cons lane rest inductionHypothesis =>
      have first := inOrder lane List.mem_cons_self
      have others := inductionHypothesis
        fun other member => inOrder other (List.mem_cons_of_mem _ member)
      have merged :=
        List.pairwise_merge
          (fun (first second third : PlacedRequest)
              (lower : decide (first.position ≤ second.position) = true)
              (upper : decide (second.position ≤ third.position) = true) => by
            rw [decide_eq_true_eq] at lower upper ⊢
            exact Nat.le_trans lower upper)
          (fun first second => by
            rw [Bool.or_eq_true, decide_eq_true_eq, decide_eq_true_eq]
            exact Nat.le_total _ _)
          lane (joined rest)
          (first.imp fun lower => decide_eq_true lower)
          (others.imp fun lower => decide_eq_true lower)
      exact merged.imp fun lower => of_decide_eq_true lower

/-- The lanes have the given requests once each, in order, and do not meet. -/
structure Divide
    (lanes : List Lane)
    (placed : List PlacedRequest) : Prop where
  all : lanes.flatten ~ placed
  inOrder : ∀ lane ∈ lanes, lane.InOrder
  apart : lanes.Pairwise AreApart

theorem divide_nil : Divide [] [] :=
  ⟨.refl _, by simp, List.Pairwise.nil⟩

/-- The order of the lanes does not matter. -/
theorem Divide.perm
    {reordered : List Lane}
    (divide : Divide lanes earlier)
    (permuted : lanes ~ reordered) :
    Divide reordered earlier where
  all := permuted.symm.flatten.trans divide.all
  inOrder := fun lane member => divide.inOrder lane (permuted.mem_iff.mpr member)
  apart := divide.apart.perm permuted AreApart.symm

/-- The lanes in front of all that a request meets stay in front of its own. -/
theorem place_eq
    (lanes : List Lane)
    (placed : PlacedRequest) :
    place lanes placed =
      lanes.takeWhile (!·.meets placed) ++
        (joined (lanes.filter (·.meets placed)) ++ [placed]) ::
          (lanes.dropWhile (!·.meets placed)).filter (!·.meets placed) := by
  have parts :
      lanes.takeWhile (!·.meets placed) ++ lanes.dropWhile (!·.meets placed) =
        lanes :=
    List.takeWhile_append_dropWhile
  have met :
      lanes.filter (·.meets placed) =
        (lanes.dropWhile (!·.meets placed)).filter (·.meets placed) := by
    have none :
        (lanes.takeWhile (!·.meets placed)).filter (·.meets placed) = [] := by
      apply List.filter_eq_nil_iff.mpr
      intro lane member
      simpa using
        List.mem_takeWhile_imp (p := fun lane : Lane => !lane.meets placed) member
    conv_lhs => rw [← parts, List.filter_append, none, List.nil_append]
  rw [place, met]

/-- A request is placed with all lanes that it meets, the others stay. -/
theorem place_perm
    (lanes : List Lane)
    (placed : PlacedRequest) :
    place lanes placed ~
      (joined (lanes.filter (·.meets placed)) ++ [placed]) ::
        lanes.filter (!·.meets placed) := by
  have unmet : ∀ lane ∈ lanes.takeWhile (!·.meets placed), (!lane.meets placed) :=
    fun lane member =>
      List.mem_takeWhile_imp (p := fun lane : Lane => !lane.meets placed) member
  have others :
      lanes.filter (!·.meets placed) =
        lanes.takeWhile (!·.meets placed) ++
          (lanes.dropWhile (!·.meets placed)).filter (!·.meets placed) := by
    conv_lhs =>
      rw [← List.takeWhile_append_dropWhile (p := fun lane : Lane =>
          !lane.meets placed) (l := lanes),
        List.filter_append, List.filter_eq_self.mpr unmet]
  rw [place_eq, others]
  exact List.perm_middle

/-- Placing a request behind all others divides the requests with it. -/
theorem Divide.place
    (divide : Divide lanes earlier)
    (behind : ∀ one ∈ earlier, one.position ≤ placed.position) :
    Divide (place lanes placed) (earlier ++ [placed]) := by
  apply Divide.perm _ (place_perm lanes placed).symm
  have joining := joined_perm (lanes.filter (·.meets placed))
  have within : ∀ one ∈ joined (lanes.filter (·.meets placed)), one ∈ earlier := by
    intro one member
    obtain ⟨lane, among, inside⟩ := List.mem_flatten.mp (joining.mem_iff.mp member)
    exact divide.all.mem_iff.mp
      (List.mem_flatten.mpr ⟨lane, List.mem_of_mem_filter among, inside⟩)
  refine ⟨?_, ?_, ?_⟩
  · calc
      ((joined (lanes.filter (·.meets placed)) ++ [placed]) ::
            lanes.filter (!·.meets placed)).flatten
        ~ (lanes.filter (·.meets placed)).flatten ++ [placed] ++
            (lanes.filter (!·.meets placed)).flatten :=
          (joining.append_right _).append_right _
      _ ~ (lanes.filter (·.meets placed)).flatten ++
            (lanes.filter (!·.meets placed)).flatten ++ [placed] := by
          rw [List.append_assoc, List.append_assoc]
          exact List.perm_append_comm.append_left _
      _ ~ lanes.flatten ++ [placed] := by
          rw [← List.flatten_append]
          exact (List.filter_append_perm _ _).flatten.append_right _
      _ ~ earlier ++ [placed] := divide.all.append_right _
  · intro lane member
    rcases List.mem_cons.mp member with rfl | among
    · rw [InOrder, List.pairwise_append]
      refine ⟨joined_inOrder fun lane among =>
          divide.inOrder lane (List.mem_of_mem_filter among),
        List.pairwise_singleton _ _, ?_⟩
      intro one among last isLast
      rw [List.mem_singleton.mp isLast]
      exact behind one (within one among)
    · exact divide.inOrder lane (List.mem_of_mem_filter among)
  · refine List.pairwise_cons.mpr
      ⟨?_, divide.apart.sublist List.filter_sublist⟩
    intro other isOther first member second among
    obtain ⟨inLanes, unmet⟩ := List.mem_filter.mp isOther
    have otherUnmet : other.meets placed = false := by simpa using unmet
    rcases List.mem_append.mp member with joinedIn | isPlaced
    · obtain ⟨lane, isMet, inside⟩ :=
        List.mem_flatten.mp (joining.mem_iff.mp joinedIn)
      obtain ⟨laneIn, laneMet⟩ := List.mem_filter.mp isMet
      have different : lane ≠ other := by
        intro same
        rw [same, otherUnmet] at laneMet
        cases laneMet
      exact divide.apart.forall laneIn inLanes different
        first inside second among
    · rw [List.mem_singleton.mp isPlaced, PlacedRequest.meets_comm]
      exact meets_eq_false_iff.mp otherUnmet second among

/-- Placing requests in order behind all others divides them all. -/
theorem Divide.placeAll
    {rest : List PlacedRequest}
    (divide : Divide lanes earlier)
    (inOrder : InOrder (earlier ++ rest)) :
    Divide (rest.foldl Lane.place lanes) (earlier ++ rest) := by
  induction rest generalizing lanes earlier with
  | nil =>
      rwa [List.append_nil]
  | cons placed rest inductionHypothesis =>
      have behind : ∀ one ∈ earlier, one.position ≤ placed.position :=
        fun one member =>
          (List.pairwise_append.mp inOrder).2.2 one member placed
            List.mem_cons_self
      have split : earlier ++ placed :: rest = earlier ++ [placed] ++ rest := by
        rw [List.append_assoc]
        rfl
      rw [split] at inOrder ⊢
      exact inductionHypothesis (divide.place behind) inOrder

/-- Positions grow along a batch. -/
theorem growing_placedBatch (batch : List ActionRequest) :
    (placedBatch batch).Pairwise fun first second =>
      first.position < second.position := by
  rw [← List.pairwise_map, map_position_placedBatch]
  exact List.pairwise_lt_range

/-- Requests of a batch are in order. -/
theorem inOrder_placedBatch (batch : List ActionRequest) :
    InOrder (placedBatch batch) :=
  (growing_placedBatch batch).imp Nat.le_of_lt

end Lane

end PatronFees
