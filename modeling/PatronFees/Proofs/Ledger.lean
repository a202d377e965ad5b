import PatronFees.Ledger.Basic
import PatronFees.Proofs.Lists
import Mathlib.Data.List.Induction

namespace PatronFees.Ledger

open List

/-!
# The ledger as a list

A ledger into which entries were recorded is their list: it lists them in the
order of recording, and what it finds for some accounts and kinds are the
entries of the list that have them, in the same order.
-/

/-- The ledger of entries recorded one after another. -/
def ofEntries (entries : List LedgerEntry) : Ledger :=
  entries.foldl append empty

/-- Entries with their numbers in the order of recording. -/
def numbered (entries : List LedgerEntry) : List NumberedEntry :=
  entries.mapIdx fun number entry => ⟨number, entry⟩

theorem ofEntries_concat
    (entries : List LedgerEntry)
    (entry : LedgerEntry) :
    ofEntries (entries ++ [entry]) = (ofEntries entries).append entry := by
  simp [ofEntries]

theorem ofEntries_append
    (earlier later : List LedgerEntry) :
    ofEntries (earlier ++ later) = later.foldl append (ofEntries earlier) := by
  simp [ofEntries]

theorem numbered_concat
    (entries : List LedgerEntry)
    (entry : LedgerEntry) :
    numbered (entries ++ [entry]) =
      numbered entries ++ [⟨entries.length, entry⟩] := by
  simp [numbered]

/-- Without their numbers the numbered entries are the entries. -/
theorem map_entry_numbered (entries : List LedgerEntry) :
    (numbered entries).map (·.entry) = entries := by
  induction entries using List.reverseRecOn with
  | nil =>
      rfl
  | append_singleton entries entry inductionHypothesis =>
      rw [numbered_concat, List.map_append, inductionHypothesis]
      rfl

/-- Numbers are below the count of entries. -/
theorem number_lt_of_mem_numbered
    {entries : List LedgerEntry}
    {entry : NumberedEntry}
    (member : entry ∈ numbered entries) :
    entry.number < entries.length := by
  obtain ⟨number, bound, rfl⟩ := List.mem_mapIdx.mp member
  exact bound

/-- Numbers grow in the order of recording. -/
theorem numbered_pairwise (entries : List LedgerEntry) :
    (numbered entries).Pairwise
      fun first second => first.number < second.number := by
  induction entries using List.reverseRecOn with
  | nil =>
      exact List.Pairwise.nil
  | append_singleton entries entry inductionHypothesis =>
      rw [numbered_concat, List.pairwise_append]
      refine ⟨inductionHypothesis, List.pairwise_singleton _ _, ?_⟩
      intro first member last isLast
      rw [List.mem_singleton.mp isLast]
      exact number_lt_of_mem_numbered member

theorem next_ofEntries (entries : List LedgerEntry) :
    (ofEntries entries).next = entries.length := by
  induction entries using List.reverseRecOn with
  | nil =>
      rfl
  | append_singleton entries entry inductionHypothesis =>
      rw [ofEntries_concat, append, inductionHypothesis, List.length_append]
      rfl

/-- Filing an entry adds it to the history of its account alone. -/
theorem lookup_file
    (entry : NumberedEntry)
    (histories : List (AccountId × List NumberedEntry))
    (account : AccountId) :
    ((file entry histories).lookup account).getD [] =
      (histories.lookup account).getD [] ++
        if entry.entry.account = account then [entry] else [] := by
  induction histories with
  | nil =>
      by_cases same : account = entry.entry.account
      · simp [file, same]
      · simp [file, List.lookup_cons, beq_false_of_ne same, Ne.symm same]
  | cons first rest inductionHypothesis =>
      rcases first with ⟨owner, history⟩
      rw [file]
      split
      next own =>
        subst own
        by_cases same : account = entry.entry.account
        · simp [same]
        · simp [List.lookup_cons, beq_false_of_ne same, Ne.symm same]
      next other =>
        by_cases same : account = owner
        · subst same
          simp [Ne.symm other]
        · simpa [List.lookup_cons, beq_false_of_ne same]
            using inductionHypothesis

/-- Entries that are appended come last in the histories of their accounts. -/
theorem historyOf_foldl_append
    (ledger : Ledger)
    (entries : List LedgerEntry)
    (account : AccountId) :
    (entries.foldl append ledger).historyOf account =
      ledger.historyOf account ++ entries.filter (·.account == account) := by
  induction entries generalizing ledger with
  | nil =>
      simp
  | cons entry rest inductionHypothesis =>
      rw [List.foldl_cons, inductionHypothesis]
      have first :
          (ledger.append entry).historyOf account =
            ledger.historyOf account ++
              if entry.account = account then [entry] else [] := by
        simp only [historyOf, numberedOf, append, lookup_file]
        by_cases same : entry.account = account <;> simp [same]
      rw [first]
      by_cases same : entry.account = account <;> simp [same]

/-- Filing an entry adds it once to all histories together. -/
theorem flatMap_file_perm
    (entry : NumberedEntry)
    (histories : List (AccountId × List NumberedEntry)) :
    (file entry histories).flatMap Prod.snd ~
      histories.flatMap Prod.snd ++ [entry] := by
  induction histories with
  | nil =>
      exact .refl _
  | cons first rest inductionHypothesis =>
      rcases first with ⟨owner, history⟩
      rw [file]
      split
      next =>
        simp only [List.flatMap_cons, List.append_assoc]
        exact (List.perm_append_comm).append_left history
      next =>
        simp only [List.flatMap_cons, List.append_assoc]
        exact inductionHypothesis.append_left history

/-- An account's numbered entries are those among all that are on it. -/
theorem numberedOf_ofEntries
    (entries : List LedgerEntry)
    (account : AccountId) :
    (ofEntries entries).numberedOf account =
      (numbered entries).filter (·.entry.account == account) := by
  induction entries using List.reverseRecOn with
  | nil =>
      rfl
  | append_singleton entries entry inductionHypothesis =>
      rw [numberedOf] at inductionHypothesis ⊢
      rw [ofEntries_concat, append, lookup_file, inductionHypothesis,
        next_ofEntries, numbered_concat, List.filter_append]
      by_cases same : entry.account = account <;> simp [same]

/-- All histories together are the numbered entries. -/
theorem histories_ofEntries_perm (entries : List LedgerEntry) :
    (ofEntries entries).histories.flatMap Prod.snd ~ numbered entries := by
  induction entries using List.reverseRecOn with
  | nil =>
      exact .refl _
  | append_singleton entries entry inductionHypothesis =>
      rw [ofEntries_concat, append, numbered_concat, next_ofEntries]
      exact (flatMap_file_perm _ _).trans (inductionHypothesis.append_right _)

/-- Entries with growing numbers, in any order, are listed by their numbers. -/
theorem inOrder_eq
    {shuffled ordered : List NumberedEntry}
    (permuted : shuffled ~ ordered)
    (growing :
      ordered.Pairwise fun first second => first.number < second.number) :
    inOrder shuffled = ordered.map (·.entry) := by
  -- Numbers tell the entries apart, so there is one order by number.
  have distinct : (ordered.map (·.number)).Nodup :=
    List.pairwise_map.mpr (growing.imp Nat.ne_of_lt)
  rw [inOrder,
    mergeSort_eq (·.number) permuted (growing.imp Nat.le_of_lt)
      fun _ isFirst _ isSecond same =>
        List.inj_on_of_nodup_map distinct isFirst isSecond same]

/-- The ledger lists the entries in the order of recording. -/
theorem entries_ofEntries (entries : List LedgerEntry) :
    (ofEntries entries).entries = entries := by
  rw [Ledger.entries,
    inOrder_eq (histories_ofEntries_perm entries) (numbered_pairwise entries),
    map_entry_numbered]

/-- Picking numbered entries by what they record picks the entries. -/
theorem map_entry_filter_numbered
    (keep : LedgerEntry → Bool)
    (entries : List LedgerEntry) :
    ((numbered entries).filter (keep ·.entry)).map (·.entry) =
      entries.filter keep := by
  have mapped :
      ((numbered entries).map (·.entry)).filter keep =
        ((numbered entries).filter (keep ·.entry)).map (·.entry) :=
    List.filter_map
  rw [map_entry_numbered] at mapped
  exact mapped.symm

/-- The history of an account is what was recorded on it. -/
theorem historyOf_ofEntries
    (entries : List LedgerEntry)
    (account : AccountId) :
    (ofEntries entries).historyOf account =
      entries.filter (·.account == account) := by
  rw [historyOf, numberedOf_ofEntries]
  exact map_entry_filter_numbered (·.account == account) entries

/-- What is found are the entries of the accounts and kinds asked for. -/
theorem find_ofEntries
    (entries : List LedgerEntry)
    (accounts : List AccountId)
    (kinds : List ActionKind) :
    (ofEntries entries).find accounts kinds =
      entries.filter fun entry =>
        accounts.contains entry.account &&
          (kinds.isEmpty || entry.isOneOf kinds) := by
  let ofKinds : List NumberedEntry :=
    (numbered entries).filter fun numbered =>
      kinds.isEmpty || numbered.entry.isOneOf kinds
  have perAccount :
      (accounts.eraseDups.flatMap fun account =>
          ((ofEntries entries).numberedOf account).filter fun numbered =>
            kinds.isEmpty || numbered.entry.isOneOf kinds) =
        accounts.eraseDups.flatMap fun account =>
          ofKinds.filter (·.entry.account == account) := by
    congr 1
    funext account
    rw [numberedOf_ofEntries, List.filter_filter, List.filter_filter]
    simp only [Bool.and_comm]
  have picked :=
    flatMap_filter_perm (fun numbered : NumberedEntry => numbered.entry.account)
      ofKinds (nodup_eraseDups accounts)
  have growing :
      (ofKinds.filter
          (accounts.eraseDups.contains <| ·.entry.account)).Pairwise
        fun first second => first.number < second.number :=
    ((numbered_pairwise entries).filter _).filter _
  rw [find, perAccount, inOrder_eq picked growing, List.filter_filter]
  rw [← map_entry_filter_numbered]
  congr 2
  funext numbered
  congr 1
  rw [Bool.eq_iff_iff, List.contains_iff_mem, List.contains_iff_mem,
    List.mem_eraseDups]

/-- The ledger is the one of its entries. -/
def IsRecorded (ledger : Ledger) : Prop :=
  ledger = ofEntries ledger.entries

theorem isRecorded_ofEntries (entries : List LedgerEntry) :
    (ofEntries entries).IsRecorded := by
  rw [IsRecorded, entries_ofEntries]

/-- Recorded entries come last in the list of entries. -/
theorem foldl_append_eq
    {ledger : Ledger}
    (isRecorded : ledger.IsRecorded)
    (entries : List LedgerEntry) :
    entries.foldl append ledger = ofEntries (ledger.entries ++ entries) := by
  rw [ofEntries_append, ← isRecorded]

/-- The identifiers of entries come on top of those before. -/
theorem ids_foldl_append
    (ledger : Ledger)
    (entries : List LedgerEntry) :
    (entries.foldl append ledger).ids =
      (entries.map (·.id)).reverse ++ ledger.ids := by
  induction entries generalizing ledger with
  | nil =>
      rfl
  | cons entry rest inductionHypothesis =>
      rw [List.foldl_cons, inductionHypothesis, List.map_cons,
        List.reverse_cons, List.append_assoc]
      rfl

end PatronFees.Ledger
