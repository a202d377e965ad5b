import PatronFees.AccountBook
import Mathlib.Algebra.Order.BigOperators.Group.List
import Mathlib.Algebra.Order.Ring.Int
import Mathlib.Data.List.Nodup
import Mathlib.Data.List.Perm.Subperm

namespace PatronFees.AccountBook

/-!
# Looking accounts up

What is saved is found under its identifier, and nothing else changes. A part
of a book finds what the book finds, and accounts found under different
identifiers count each account of the book at most once.
-/

/-- The accounts under some identifiers, as far as the book has them. -/
def findEach
    (book : AccountBook)
    (ids : List AccountId) :
    List Account :=
  ids.filterMap book.find?

@[simp] theorem find?_empty (id : AccountId) :
    empty.find? id = none :=
  rfl

/-- An account is found under its own identifier. -/
theorem id_of_find?
    {book : AccountBook}
    {id : AccountId}
    {account : Account}
    (found : book.find? id = some account) :
    account.id = id := by
  simpa using List.find?_some found

theorem mem_of_find?
    {book : AccountBook}
    {id : AccountId}
    {account : Account}
    (found : book.find? id = some account) :
    account ∈ book.accounts :=
  List.mem_of_find?_eq_some found

/-- A saved account is found under its identifier, every other as before. -/
theorem find?_save
    (book : AccountBook)
    (account : Account)
    (id : AccountId) :
    (book.save account).find? id =
      if account.id = id then some account else book.find? id := by
  rcases book with ⟨accounts⟩
  change (place account accounts).find? (·.id == id) =
    if account.id = id then some account else accounts.find? (·.id == id)
  induction accounts with
  | nil =>
      simp only [place, List.find?_cons, List.find?_nil]
      split <;> simp_all
  | cons first rest inductionHypothesis =>
      rw [place]
      split
      next before =>
        rw [List.find?_cons]
        split <;> simp_all
      next same =>
        have sameId : account.id = first.id := Std.compare_eq_iff_eq.mp same
        rw [List.find?_cons, List.find?_cons, sameId]
        split <;> simp_all
      next behind =>
        have different : account.id ≠ first.id := by
          intro sameId
          rw [sameId, Std.ReflOrd.compare_self] at behind
          cases behind
        rw [List.find?_cons, List.find?_cons, inductionHypothesis]
        cases isFirst : first.id == id with
        | false => rfl
        | true =>
            have notSaved : account.id ≠ id :=
              fun same => different (same.trans (beq_iff_eq.mp isFirst).symm)
            exact (if_neg notSaved).symm

/-- It does not matter which of two accounts is put in its place first. -/
theorem place_place_of_lt
    {low high : Account}
    (before : compare low.id high.id = .lt)
    (accounts : List Account) :
    place low (place high accounts) = place high (place low accounts) := by
  have behind : compare high.id low.id = .gt :=
    Std.OrientedCmp.gt_iff_lt.mpr before
  induction accounts with
  | nil =>
      simp only [place, before, behind]
  | cons first rest inductionHypothesis =>
      cases next : compare high.id first.id with
      | lt =>
          have lowNext : compare low.id first.id = .lt :=
            Std.TransCmp.lt_trans before next
          simp only [place, next, lowNext, before, behind]
      | eq =>
          have lowNext : compare low.id first.id = .lt := by
            rwa [← Std.compare_eq_iff_eq.mp next]
          simp only [place, next, lowNext, before, behind]
      | gt =>
          cases lowNext : compare low.id first.id with
          | lt | eq => simp only [place, next, lowNext, behind]
          | gt => simp only [place, next, lowNext, inductionHypothesis]

section SavingAll

variable {book : AccountBook} {saved : List Account} {id : AccountId}

/-- An identifier that no saved account has finds what it found before. -/
theorem find?_saveAll_of_forall_ne
    (different : ∀ account ∈ saved, account.id ≠ id) :
    (saved.foldl save book).find? id = book.find? id := by
  induction saved generalizing book with
  | nil =>
      rfl
  | cons account rest inductionHypothesis =>
      rw [List.foldl_cons,
        inductionHypothesis
          fun other member => different other (List.mem_cons_of_mem _ member),
        find?_save, if_neg (different account List.mem_cons_self)]

/-- Of accounts with identifiers of their own, each saved one is found. -/
theorem find?_saveAll_of_mem
    (distinct : (saved.map (·.id)).Nodup)
    {account : Account}
    (member : account ∈ saved) :
    (saved.foldl save book).find? account.id = some account := by
  induction saved generalizing book with
  | nil =>
      cases member
  | cons first rest inductionHypothesis =>
      rw [List.map_cons, List.nodup_cons] at distinct
      rw [List.foldl_cons]
      rcases List.mem_cons.mp member with isFirst | among
      · rw [isFirst, find?_saveAll_of_forall_ne, find?_save, if_pos rfl]
        intro other inside same
        exact distinct.1 (same ▸ List.mem_map_of_mem inside)
      · exact inductionHypothesis distinct.2 among

/-- Accounts with identifiers of their own can be saved in any order. -/
theorem saveAll_perm
    {others : List Account}
    (distinct : (saved.map (·.id)).Nodup)
    (same : saved.Perm others) :
    saved.foldl save book = others.foldl save book := by
  refine same.foldl_eq' (fun first member second among between => ?_) book
  cases order : compare first.id second.id with
  | lt =>
      exact (congrArg mk (place_place_of_lt order between.accounts)).symm
  | eq =>
      rw [List.inj_on_of_nodup_map distinct member among
        (Std.compare_eq_iff_eq.mp order)]
  | gt =>
      have before := Std.OrientedCmp.gt_iff_lt.mp order
      exact congrArg mk (place_place_of_lt before between.accounts)

/-- What is found after saving was saved or found before. -/
theorem mem_or_find?_of_saveAll
    {account : Account}
    (found : (saved.foldl save book).find? id = some account) :
    account ∈ saved ∨ book.find? id = some account := by
  induction saved generalizing book with
  | nil =>
      exact Or.inr found
  | cons first rest inductionHypothesis =>
      rcases inductionHypothesis found with among | before
      · exact Or.inl (List.mem_cons_of_mem _ among)
      · rw [find?_save] at before
        split at before
        next =>
          obtain rfl := Option.some.inj before
          exact Or.inl List.mem_cons_self
        next =>
          exact Or.inr before

/-- What the book of some accounts finds is among them. -/
theorem mem_of_find?_ofList
    {accounts : List Account}
    {account : Account}
    (found : (ofList accounts).find? id = some account) :
    account ∈ accounts := by
  rcases mem_or_find?_of_saveAll found with among | nowhere
  · exact among
  · cases nowhere

end SavingAll

/-- Saving accounts that a book finds replaces what another one finds. -/
theorem find?_saveAll_findEach
    (book other : AccountBook)
    (ids : List AccountId)
    (id : AccountId) :
    ((book.findEach ids).foldl save other).find? id =
      if id ∈ ids ∧ (book.find? id).isSome then
        book.find? id
      else
        other.find? id := by
  induction ids generalizing other with
  | nil =>
      simp [findEach]
  | cons first rest inductionHypothesis =>
      simp only [findEach] at inductionHypothesis ⊢
      cases found : book.find? first with
      | none =>
          rw [List.filterMap_cons_none found, inductionHypothesis]
          by_cases same : id = first
          · subst same
            simp [found]
          · simp [same]
      | some account =>
          rw [List.filterMap_cons_some found, List.foldl_cons,
            inductionHypothesis, find?_save, id_of_find? found]
          by_cases same : id = first
          · subst same
            simp [found]
          · simp [same, Ne.symm same]

/-- A part of a book finds what the book finds under the part's identifiers. -/
theorem find?_only
    (book : AccountBook)
    (ids : List AccountId)
    (id : AccountId) :
    (book.only ids).find? id = if id ∈ ids then book.find? id else none := by
  change ((book.findEach ids).foldl save empty).find? id = _
  rw [find?_saveAll_findEach, find?_empty]
  by_cases member : id ∈ ids
  · cases found : book.find? id with
    | none => simp
    | some account => simp [member]
  · simp [member]

/-- A part of a book finds the same accounts as the book. -/
theorem findEach_only
    (book : AccountBook)
    (ids : List AccountId) :
    (book.only ids).findEach ids = book.findEach ids := by
  apply List.filterMap_congr
  intro id member
  rw [find?_only, if_pos member]

section FindEach

variable {book : AccountBook} {ids : List AccountId}

/-- Each account found is the one under its identifier. -/
theorem find?_of_mem_findEach
    {account : Account}
    (member : account ∈ book.findEach ids) :
    account.id ∈ ids ∧ book.find? account.id = some account := by
  obtain ⟨id, among, found⟩ := List.mem_filterMap.mp member
  rw [id_of_find? found]
  exact ⟨among, found⟩

/-- What is counted on the accounts that are found is counted id by id. -/
theorem sum_findEach
    (count : Account → Int)
    (book : AccountBook)
    (ids : List AccountId) :
    ((book.findEach ids).map count).sum =
      (ids.map fun id => (book.find? id).elim 0 count).sum := by
  induction ids with
  | nil =>
      rfl
  | cons id rest inductionHypothesis =>
      simp only [findEach] at inductionHypothesis ⊢
      rw [List.map_cons, List.sum_cons]
      cases found : book.find? id with
      | none =>
          rw [List.filterMap_cons_none found, inductionHypothesis]
          exact (Int.zero_add _).symm
      | some account =>
          rw [List.filterMap_cons_some found, List.map_cons, List.sum_cons,
            inductionHypothesis]
          rfl

/-- Where every account is found, those found have the identifiers in order. -/
theorem ids_findEach
    (found : ∀ id ∈ ids, (book.find? id).isSome) :
    (book.findEach ids).map (·.id) = ids := by
  induction ids with
  | nil =>
      rfl
  | cons id rest inductionHypothesis =>
      obtain ⟨account, first⟩ :=
        Option.isSome_iff_exists.mp (found id List.mem_cons_self)
      have others := inductionHypothesis
        fun other member => found other (List.mem_cons_of_mem _ member)
      rw [findEach, List.filterMap_cons_some first, List.map_cons,
        id_of_find? first]
      exact congrArg (id :: ·) others

/-- Accounts found under different identifiers have different identifiers. -/
theorem nodup_ids_findEach
    (distinct : ids.Nodup) :
    ((book.findEach ids).map (·.id)).Nodup := by
  induction ids with
  | nil =>
      exact List.nodup_nil
  | cons id rest inductionHypothesis =>
      obtain ⟨fresh, restDistinct⟩ := List.nodup_cons.mp distinct
      have others := inductionHypothesis restDistinct
      simp only [findEach] at others ⊢
      cases found : book.find? id with
      | none =>
          rw [List.filterMap_cons_none found]
          exact others
      | some account =>
          rw [List.filterMap_cons_some found, List.map_cons,
            List.nodup_cons, id_of_find? found]
          refine ⟨?_, others⟩
          intro member
          obtain ⟨other, among, same⟩ := List.mem_map.mp member
          have inside := (find?_of_mem_findEach among).1
          rw [same] at inside
          exact fresh inside

/--
Accounts found under different identifiers, all of them in a list, come to no
more than the list, counted by anything that is zero or more.
-/
theorem sum_findEach_le
    (distinct : ids.Nodup)
    {accounts : List Account}
    (listed : ∀ account ∈ book.findEach ids, account ∈ accounts)
    (count : Account → Int)
    (nonneg : ∀ account ∈ accounts, 0 ≤ count account) :
    ((book.findEach ids).map count).sum ≤ (accounts.map count).sum := by
  have foundDistinct : (book.findEach ids).Nodup :=
    .of_map _ (nodup_ids_findEach distinct)
  obtain ⟨part, permuted, sublist⟩ := foundDistinct.subperm listed
  rw [← (permuted.map count).sum_eq]
  apply (sublist.map count).sum_le_sum
  intro units member
  obtain ⟨account, among, rfl⟩ := List.mem_map.mp member
  exact nonneg account among

end FindEach

/-- The accounts are in the order of their identifiers, with one account for each. -/
def IsOrdered (book : AccountBook) : Prop :=
  book.accounts.Pairwise fun first second => compare first.id second.id = .lt

theorem isOrdered_empty : empty.IsOrdered :=
  .nil

/-- An account that is put in its place was put there or was there before. -/
theorem mem_place
    {account other : Account}
    {accounts : List Account}
    (member : other ∈ place account accounts) :
    other = account ∨ other ∈ accounts := by
  induction accounts with
  | nil =>
      exact .inl (List.mem_singleton.mp member)
  | cons first rest inductionHypothesis =>
      rw [place] at member
      split at member
      next =>
        exact List.mem_cons.mp member
      next =>
        exact (List.mem_cons.mp member).imp_right (List.mem_cons_of_mem _)
      next =>
        rcases List.mem_cons.mp member with rfl | among
        · exact .inr List.mem_cons_self
        · exact (inductionHypothesis among).imp_right (List.mem_cons_of_mem _)

/-- A book has the accounts that were saved and those it had before. -/
theorem mem_saveAll
    {book : AccountBook}
    {saved : List Account}
    {account : Account}
    (member : account ∈ (saved.foldl save book).accounts) :
    account ∈ saved ∨ account ∈ book.accounts := by
  induction saved generalizing book with
  | nil =>
      exact .inr member
  | cons first rest inductionHypothesis =>
      rcases inductionHypothesis member with among | before
      · exact .inl (List.mem_cons_of_mem first among)
      · rcases mem_place before with rfl | here
        · exact .inl List.mem_cons_self
        · exact .inr here

/-- Saving keeps the accounts in order. -/
theorem IsOrdered.save
    {book : AccountBook}
    (ordered : book.IsOrdered)
    (account : Account) :
    (book.save account).IsOrdered := by
  rcases book with ⟨accounts⟩
  change (place account accounts).Pairwise _
  change accounts.Pairwise _ at ordered
  induction accounts with
  | nil =>
      exact List.pairwise_singleton _ _
  | cons first rest inductionHypothesis =>
      obtain ⟨behind, restOrdered⟩ := List.pairwise_cons.mp ordered
      rw [place]
      split
      next before =>
        refine List.pairwise_cons.mpr ⟨fun other member => ?_, ordered⟩
        rcases List.mem_cons.mp member with rfl | among
        · exact before
        · exact Std.TransCmp.lt_trans before (behind other among)
      next same =>
        refine List.pairwise_cons.mpr ⟨fun other among => ?_, restOrdered⟩
        rw [Std.compare_eq_iff_eq.mp same]
        exact behind other among
      next after =>
        refine List.pairwise_cons.mpr
          ⟨fun other member => ?_, inductionHypothesis restOrdered⟩
        rcases mem_place member with rfl | among
        · exact Std.OrientedCmp.gt_iff_lt.mp after
        · exact behind other among

/-- Saving one account after another keeps the accounts in order. -/
theorem IsOrdered.saveAll
    {book : AccountBook}
    (ordered : book.IsOrdered)
    (accounts : List Account) :
    (accounts.foldl AccountBook.save book).IsOrdered := by
  induction accounts generalizing book with
  | nil =>
      exact ordered
  | cons account rest inductionHypothesis =>
      exact inductionHypothesis (ordered.save account)

/-- A book made by saving accounts is in order. -/
theorem isOrdered_ofList (accounts : List Account) :
    (ofList accounts).IsOrdered :=
  isOrdered_empty.saveAll accounts

/-- What a book in order has is found there. -/
theorem IsOrdered.find?_eq_some_iff
    {book : AccountBook}
    (ordered : book.IsOrdered)
    {account : Account} :
    book.find? account.id = some account ↔ account ∈ book.accounts := by
  refine ⟨mem_of_find?, fun member => ?_⟩
  rcases book with ⟨accounts⟩
  change accounts.find? (·.id == account.id) = some account
  change accounts.Pairwise _ at ordered
  change account ∈ accounts at member
  induction accounts with
  | nil =>
      cases member
  | cons first rest inductionHypothesis =>
      obtain ⟨behind, restOrdered⟩ := List.pairwise_cons.mp ordered
      rcases List.mem_cons.mp member with rfl | among
      · exact List.find?_cons_of_pos (beq_self_eq_true _)
      · have different : (first.id == account.id) = false := by
          rw [beq_eq_false_iff_ne]
          intro same
          have before := behind account among
          rw [same, Std.ReflOrd.compare_self] at before
          cases before
        rw [List.find?_cons, different]
        exact inductionHypothesis restOrdered among

/-- Books in order that find the same have the same accounts. -/
theorem IsOrdered.eq_of_find?_eq
    {book other : AccountBook}
    (ordered : book.IsOrdered)
    (otherOrdered : other.IsOrdered)
    (same : ∀ id, book.find? id = other.find? id) :
    book = other := by
  have sameMembers :
      ∀ account, account ∈ book.accounts ↔ account ∈ other.accounts := by
    intro account
    rw [← ordered.find?_eq_some_iff, ← otherOrdered.find?_eq_some_iff, same]
  have distinct {some : AccountBook} (isOrdered : some.IsOrdered) :
      some.accounts.Nodup := by
    refine isOrdered.imp fun before same => ?_
    rw [same, Std.ReflOrd.compare_self] at before
    cases before
  have permuted :=
    (List.perm_ext_iff_of_nodup (distinct ordered) (distinct otherOrdered)).mpr
      sameMembers
  refine congrArg mk (permuted.eq_of_pairwise ?_ ordered otherOrdered)
  intro first second _ _ before after
  have behind := Std.OrientedCmp.gt_iff_lt.mpr before
  rw [after] at behind
  cases behind

end PatronFees.AccountBook
