import Mathlib.Algebra.BigOperators.Group.List.Basic
import Mathlib.Algebra.Order.Ring.Int
import Mathlib.Data.List.Forall2
import Mathlib.Data.List.Nodup

namespace PatronFees

open List

/-!
# Lists

Removing repetitions leaves none, and picking members key by key, for keys
without repetitions, picks each member with one of the keys once. Of two lists
whose members are related one to one, each member of the second has one of the
first. Lists with a bound on their lengths have one together. Members that numbers
tell apart have one order by number.
-/

/-- Each member of the second list is related to one of the first. -/
theorem exists_of_forall₂
    {First Second : Type}
    {relation : First → Second → Prop}
    {firsts : List First}
    {seconds : List Second}
    (related : Forall₂ relation firsts seconds)
    {second : Second}
    (member : second ∈ seconds) :
    ∃ first ∈ firsts, relation first second := by
  induction related with
  | nil =>
      cases member
  | cons here rest inductionHypothesis =>
      rcases List.mem_cons.mp member with rfl | among
      · exact ⟨_, List.mem_cons_self, here⟩
      · obtain ⟨first, inside, there⟩ := inductionHypothesis among
        exact ⟨first, List.mem_cons_of_mem _ inside, there⟩

/-- Members that agree on a value give lists of the same values. -/
theorem map_eq_map_of_forall₂
    {First Second Value : Type}
    {firstValue : First → Value}
    {secondValue : Second → Value}
    {firsts : List First}
    {seconds : List Second}
    (agree :
      Forall₂ (fun first second => secondValue second = firstValue first)
        firsts seconds) :
    seconds.map secondValue = firsts.map firstValue := by
  have same : Forall₂ Eq (firsts.map firstValue) (seconds.map secondValue) := by
    rw [forall₂_map_left_iff, forall₂_map_right_iff]
    exact agree.imp fun _ _ => Eq.symm
  rw [forall₂_eq_eq_eq] at same
  exact same.symm

/-- Lists of one member each have together one for each member related to them. -/
theorem map_flatMap_of_forall₂
    {First Second Member Value : Type}
    {firstValue : First → Value}
    {membersOf : Second → List Member}
    {memberValue : Member → Value}
    {firsts : List First}
    {seconds : List Second}
    (single :
      Forall₂
        (fun first second =>
          ∃ member,
            membersOf second = [member] ∧ memberValue member = firstValue first)
        firsts seconds) :
    (seconds.flatMap membersOf).map memberValue = firsts.map firstValue := by
  induction single with
  | nil =>
      rfl
  | cons here _ inductionHypothesis =>
      obtain ⟨member, alone, same⟩ := here
      rw [List.flatMap_cons, List.map_append, alone, inductionHypothesis,
        List.map_singleton, List.map_cons, same]
      rfl

/-- Lists of few members each have few members together. -/
theorem length_flatMap_le
    {First Second : Type}
    {membersOf : First → List Second}
    {bound : Nat}
    {firsts : List First}
    (few : ∀ first ∈ firsts, (membersOf first).length ≤ bound) :
    (firsts.flatMap membersOf).length ≤ bound * firsts.length := by
  induction firsts with
  | nil =>
      exact Nat.zero_le _
  | cons first rest inductionHypothesis =>
      have here := few first List.mem_cons_self
      have others := inductionHypothesis
        fun other member => few other (List.mem_cons_of_mem _ member)
      rw [List.flatMap_cons, List.length_append, List.length_cons, Nat.mul_succ]
      omega

/-- Members that numbers tell apart are sorted by number where they are in order. -/
theorem mergeSort_eq
    {Member : Type}
    (number : Member → Nat)
    {shuffled ordered : List Member}
    (same : shuffled ~ ordered)
    (inOrder :
      ordered.Pairwise fun first second => number first ≤ number second)
    (identified :
      ∀ first ∈ ordered, ∀ second ∈ ordered,
        number first = number second → first = second) :
    (shuffled.mergeSort fun first second => number first ≤ number second) =
      ordered := by
  have sorted :
      (shuffled.mergeSort fun first second =>
          number first ≤ number second).Pairwise
        fun first second => number first ≤ number second := by
    have pairwise :=
      List.pairwise_mergeSort
        (fun (first second third : Member)
            (lower : decide (number first ≤ number second) = true)
            (upper : decide (number second ≤ number third) = true) => by
          rw [decide_eq_true_eq] at lower upper ⊢
          exact Nat.le_trans lower upper)
        (fun first second => by
          rw [Bool.or_eq_true, decide_eq_true_eq, decide_eq_true_eq]
          exact Nat.le_total _ _)
        shuffled
    exact pairwise.imp fun ordered => of_decide_eq_true ordered
  have permuted := (List.mergeSort_perm shuffled
    fun first second => number first ≤ number second).trans same
  refine permuted.eq_of_pairwise ?_ sorted inOrder
  intro first second isFirst isSecond lower upper
  exact identified first (permuted.subset isFirst) second isSecond
    (Nat.le_antisymm lower upper)

variable {Member Key : Type} [DecidableEq Key]

/-- Removing repetitions leaves none. -/
theorem nodup_eraseDups (keys : List Key) :
    keys.eraseDups.Nodup := by
  induction length : keys.length using Nat.strongRecOn generalizing keys with
  | ind _ inductionHypothesis =>
      cases keys with
      | nil =>
          exact List.nodup_nil
      | cons key rest =>
          rw [List.eraseDups_cons, List.nodup_cons]
          constructor
          · rw [List.mem_eraseDups, List.mem_filter]
            simp
          · refine inductionHypothesis _ ?_ _ rfl
            have := List.length_filter_le (fun other => !other == key) rest
            rw [List.length_cons] at length
            omega

/-- Members with keys of their own are found by their keys in any order. -/
theorem find?_eq_of_perm
    (keyOf : Member → Key)
    {members others : List Member}
    (distinct : (members.map keyOf).Nodup)
    (same : members ~ others)
    (key : Key) :
    members.find? (keyOf · == key) = others.find? (keyOf · == key) := by
  cases found : members.find? (keyOf · == key) with
  | none =>
      rw [List.find?_eq_none] at found
      exact (List.find?_eq_none.mpr fun other among =>
        found other (same.mem_iff.mpr among)).symm
  | some member =>
      have isKey : keyOf member = key := by
        simpa using List.find?_some found
      have among := List.mem_of_find?_eq_some found
      cases otherFound : others.find? (keyOf · == key) with
      | none =>
          have missing :=
            List.find?_eq_none.mp otherFound member (same.mem_iff.mp among)
          exact (missing (beq_iff_eq.mpr isKey)).elim
      | some other =>
          have otherKey : keyOf other = key := by
            simpa using List.find?_some otherFound
          have otherAmong := List.mem_of_find?_eq_some otherFound
          rw [List.inj_on_of_nodup_map distinct among
            (same.mem_iff.mpr otherAmong) (isKey.trans otherKey.symm)]

/-- Members picked key by key are those with one of the keys. -/
theorem flatMap_filter_perm
    (keyOf : Member → Key)
    (members : List Member)
    {keys : List Key}
    (distinct : keys.Nodup) :
    (keys.flatMap fun key => members.filter (keyOf · == key)) ~
      members.filter (keys.contains <| keyOf ·) := by
  induction keys with
  | nil =>
      simp
  | cons key rest inductionHypothesis =>
      obtain ⟨fresh, restDistinct⟩ := List.nodup_cons.mp distinct
      have first :
          members.filter (keyOf · == key) =
            (members.filter ((key :: rest).contains <| keyOf ·)).filter
              (keyOf · == key) := by
        rw [List.filter_filter]
        apply List.filter_congr
        intro member _
        by_cases same : keyOf member = key <;> simp [same]
      have others :
          members.filter (rest.contains <| keyOf ·) =
            (members.filter ((key :: rest).contains <| keyOf ·)).filter
              (!keyOf · == key) := by
        rw [List.filter_filter]
        apply List.filter_congr
        intro member _
        by_cases same : keyOf member = key
        · simp [same, fresh]
        · simp [same]
      rw [List.flatMap_cons]
      refine ((inductionHypothesis restDistinct).append_left _).trans ?_
      rw [first, others]
      exact List.filter_append_perm _ _

/-- What members count for, key by key, is what those with the keys count for. -/
theorem sum_map_filter
    (keyOf : Member → Key)
    (count : Member → Int)
    (members : List Member)
    {keys : List Key}
    (distinct : keys.Nodup) :
    (keys.map fun key =>
        ((members.filter (keyOf · == key)).map count).sum).sum =
      ((members.filter (keys.contains <| keyOf ·)).map count).sum := by
  rw [← ((flatMap_filter_perm keyOf members distinct).map count).sum_eq]
  clear distinct
  induction keys with
  | nil =>
      rfl
  | cons key rest inductionHypothesis =>
      rw [List.map_cons, List.sum_cons, List.flatMap_cons, List.map_append,
        List.sum_append, inductionHypothesis]

end PatronFees
