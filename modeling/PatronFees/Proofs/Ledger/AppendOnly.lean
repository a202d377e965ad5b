import PatronFees.Proofs.Engine.Fresh
import PatronFees.Proofs.Ledger

namespace PatronFees

/-!
# The ledger as an append-only list

The ledger keeps its entries by account, with their identifiers and the number
of the next entry beside them. Who writes to it and reads from it sees none of
that, but a plain list: a call adds its entries at the end, all of them or, if
that would repeat an identifier, none, and what is read are the entries of the
list that were asked for, in order.
-/

/-- A call that writes to the ledger. -/
inductive Writing where
  | one (entry : LedgerEntry)
  | batch (entries : List LedgerEntry)
  deriving Repr, DecidableEq

namespace Writing

def entries : Writing → List LedgerEntry
  | .one entry => [entry]
  | .batch entries => entries

/-- An identifier of the call is listed already, or the call has it twice. -/
def Repeats
    (listed : List LedgerEntry)
    (writing : Writing) : Prop :=
  ¬ (writing.entries.map (·.id)).Nodup ∨
    ∃ entry ∈ writing.entries, entry.id ∈ listed.map (·.id)

instance (listed : List LedgerEntry) (writing : Writing) :
    Decidable (writing.Repeats listed) :=
  inferInstanceAs (Decidable (_ ∨ _))

/-- The list after a call: with all entries of the call, or as it was. -/
def addTo
    (listed : List LedgerEntry)
    (writing : Writing) : List LedgerEntry :=
  if writing.Repeats listed then listed else listed ++ writing.entries

/-- The list after calls, empty at first. -/
def listAfter (writings : List Writing) : List LedgerEntry :=
  writings.foldl addTo []

/-- The refusal of an entry whose identifier is listed. -/
def conflict (entry : LedgerEntry) : StoreFailure :=
  .conflict entry.id.text "ledger entry already exists"

/--
What the refusal of a call says: a batch is refused as a whole, for the first
of its entries that repeats an identifier.
-/
def IsRefusedWith
    (listed : List LedgerEntry) :
    Writing → StoreFailure → Prop
  | .one entry, failure => failure = conflict entry
  | .batch entries, failure =>
      ∃ before repeated after,
        entries = before ++ repeated :: after ∧
          ¬ (batch before).Repeats listed ∧
          (batch (before ++ [repeated])).Repeats listed ∧
          failure = .batchRejected entries.length (conflict repeated).message

end Writing

/-- Answer a call that writes to the ledger. -/
def Office.write
    (office : Office) :
    Writing → Except StoreFailure Unit × Office
  | .one entry => office.recordEntry entry
  | .batch entries => office.recordBatch entries

/-- The office after calls that write to the ledger. -/
def Office.afterWritings
    (office : Office)
    (writings : List Writing) : Office :=
  writings.foldl (fun office writing => (office.write writing).2) office

/-- Whatever is read from the ledger is what the list has. -/
structure Ledger.ReadsAs
    (ledger : Ledger)
    (listed : List LedgerEntry) : Prop where
  entries : ledger.entries = listed
  size : ledger.size = listed.length
  isEmpty : ledger.isEmpty = listed.isEmpty
  historyOf :
    ∀ account,
      ledger.historyOf account =
        listed.filter fun entry => entry.account = account
  find :
    ∀ accounts kinds,
      ledger.find accounts kinds =
        listed.filter fun entry =>
          entry.account ∈ accounts ∧
            (kinds = [] ∨ ∃ kind ∈ kinds, entry.kind? = some kind)
  nodup : ∀ accounts kinds, (ledger.find accounts kinds).Nodup

variable {listed : List LedgerEntry}

namespace Ledger

theorem ids_ofEntries (entries : List LedgerEntry) :
    (ofEntries entries).ids = (entries.map (·.id)).reverse := by
  rw [ofEntries, ids_foldl_append]
  exact List.append_nil _

/-- An entry is of one of the kinds given, or no kind is. -/
theorem isEmpty_or_isOneOf
    (kinds : List ActionKind)
    (entry : LedgerEntry) :
    (kinds.isEmpty || entry.isOneOf kinds) =
      decide (kinds = [] ∨ ∃ kind ∈ kinds, entry.kind? = some kind) := by
  rw [Bool.eq_iff_iff, decide_eq_true_iff, Bool.or_eq_true, List.isEmpty_iff,
    LedgerEntry.isOneOf]
  cases entry.kind? with
  | none =>
      simp
  | some kind =>
      simp

/-- The ledger of listed entries, none twice, reads as the list. -/
theorem readsAs_ofEntries
    (distinct : (listed.map (·.id)).Nodup) :
    (ofEntries listed).ReadsAs listed where
  entries := entries_ofEntries listed
  size := by
    rw [size, ids_ofEntries, List.length_reverse, List.length_map]
  isEmpty := by
    rw [isEmpty, ids_ofEntries, List.isEmpty_reverse, List.isEmpty_map]
  historyOf account := by
    rw [historyOf_ofEntries]
    rfl
  find accounts kinds := by
    rw [find_ofEntries]
    congr 1
    funext entry
    rw [isEmpty_or_isOneOf, List.contains_eq_mem, Bool.decide_and]
  nodup accounts kinds := by
    rw [find_ofEntries]
    exact (List.Nodup.of_map _ distinct).filter _

/-- A batch that repeats no identifier has no first entry that does. -/
theorem firstRepeated?_of_not_repeats
    {entries : List LedgerEntry}
    (fresh : ¬ (Writing.batch entries).Repeats listed) :
    firstRepeated? (ofEntries listed).ids entries = none := by
  rw [Writing.Repeats, not_or, not_not] at fresh
  apply firstRepeated?_eq_none fresh.1
  intro entry member used
  rw [ids_ofEntries, List.mem_reverse] at used
  exact fresh.2 ⟨entry, member, used⟩

/-- The first entry that repeats an identifier, and those before it do not. -/
theorem split_of_firstRepeated?
    {used : List EntryId}
    {entries : List LedgerEntry}
    {repeated : LedgerEntry}
    (found : firstRepeated? used entries = some repeated) :
    ∃ before after,
      entries = before ++ repeated :: after ∧
        firstRepeated? used before = none ∧
        repeated.id ∈ (before.map (·.id)).reverse ++ used := by
  induction entries generalizing used with
  | nil =>
      cases found
  | cons entry rest inductionHypothesis =>
      rw [firstRepeated?] at found
      split at found
      next inUse =>
        obtain rfl := Option.some.inj found
        exact ⟨[], rest, rfl, rfl, List.contains_iff_mem.mp inUse⟩
      next unused =>
        obtain ⟨before, after, same, fresh, repeats⟩ :=
          inductionHypothesis found
        refine ⟨entry :: before, after, congrArg (entry :: ·) same, ?_, ?_⟩
        · rw [firstRepeated?, if_neg unused, fresh]
        · rw [List.map_cons, List.reverse_cons, List.append_assoc]
          exact repeats

/-- Entries none of which repeats an identifier have identifiers of their own. -/
theorem distinct_of_firstRepeated?
    {used : List EntryId}
    {entries : List LedgerEntry}
    (fresh : firstRepeated? used entries = none) :
    (entries.map (·.id)).Nodup ∧ ∀ entry ∈ entries, entry.id ∉ used := by
  induction entries generalizing used with
  | nil =>
      exact ⟨List.nodup_nil, fun _ member => (List.not_mem_nil member).elim⟩
  | cons entry rest inductionHypothesis =>
      rw [firstRepeated?] at fresh
      split at fresh
      next =>
        cases fresh
      next unused =>
        rw [List.contains_iff_mem] at unused
        obtain ⟨distinct, others⟩ := inductionHypothesis fresh
        constructor
        · rw [List.map_cons, List.nodup_cons]
          refine ⟨fun again => ?_, distinct⟩
          obtain ⟨other, member, same⟩ := List.mem_map.mp again
          exact others other member (same ▸ List.mem_cons_self)
        · intro other member
          rcases List.mem_cons.mp member with rfl | behind
          · exact unused
          · exact fun before =>
              others other behind (List.mem_cons_of_mem _ before)

/-- A call repeats an identifier of the list exactly if the ledger finds so. -/
theorem not_repeats_of_firstRepeated?
    {entries : List LedgerEntry}
    (fresh : firstRepeated? (ofEntries listed).ids entries = none) :
    ¬ (Writing.batch entries).Repeats listed := by
  obtain ⟨distinct, unused⟩ := distinct_of_firstRepeated? fresh
  rintro (twice | ⟨entry, member, before⟩)
  · exact twice distinct
  · refine unused entry member ?_
    rw [ids_ofEntries, List.mem_reverse]
    exact before

/-- A batch that repeats an identifier is refused for the first that does. -/
theorem exists_refusal
    {entries : List LedgerEntry}
    (repeats : (Writing.batch entries).Repeats listed) :
    ∃ failure,
      (Writing.batch entries).IsRefusedWith listed failure ∧
        (ofEntries listed).recordBatch entries = .error failure := by
  rw [recordBatch]
  cases found : firstRepeated? (ofEntries listed).ids entries with
  | none =>
      exact (not_repeats_of_firstRepeated? found repeats).elim
  | some repeated =>
      obtain ⟨before, after, same, fresh, again⟩ := split_of_firstRepeated? found
      refine ⟨_, ⟨before, repeated, after, same,
        not_repeats_of_firstRepeated? fresh, ?_, rfl⟩, rfl⟩
      rw [ids_ofEntries, List.mem_append, List.mem_reverse, List.mem_reverse]
        at again
      rcases again with within | before
      · left
        intro distinct
        rw [Writing.entries, List.map_append, List.nodup_append'] at distinct
        exact distinct.2.2 within List.mem_cons_self
      · right
        exact ⟨repeated, List.mem_append_right _ List.mem_cons_self, before⟩

end Ledger

namespace Office

variable {office : Office} {writing : Writing}

/-- The office keeps the listed entries in its ledger, none twice. -/
structure KeepsList
    (office : Office)
    (listed : List LedgerEntry) : Prop where
  ledger : office.ledger = Ledger.ofEntries listed
  distinct : (listed.map (·.id)).Nodup

/-- A single entry repeats an identifier if its own is listed. -/
theorem repeats_one_iff (entry : LedgerEntry) :
    (Writing.one entry).Repeats listed ↔ entry.id ∈ listed.map (·.id) := by
  simp [Writing.Repeats, Writing.entries]

/-- A call that repeats an identifier is refused and changes nothing. -/
theorem KeepsList.write_refused
    (keeps : office.KeepsList listed)
    (repeats : writing.Repeats listed) :
    ∃ failure,
      writing.IsRefusedWith listed failure ∧
        office.write writing = (.error failure, office) := by
  cases writing with
  | one entry =>
      rw [repeats_one_iff] at repeats
      refine ⟨_, rfl, ?_⟩
      have refused :
          office.ledger.record entry = .error (Ledger.conflict entry) := by
        rw [Ledger.record, if_pos]
        rw [keeps.ledger, Ledger.ids_ofEntries, List.contains_iff_mem,
          List.mem_reverse]
        exact repeats
      simp only [write, recordEntry, refused]
      rfl
  | batch entries =>
      obtain ⟨failure, isRefused, refused⟩ := Ledger.exists_refusal repeats
      refine ⟨failure, isRefused, ?_⟩
      rw [← keeps.ledger] at refused
      simp only [write, recordBatch, refused]

/-- A call that repeats no identifier adds its entries to the ledger. -/
theorem KeepsList.write_added
    (keeps : office.KeepsList listed)
    (fresh : ¬ writing.Repeats listed) :
    office.write writing = (.ok (), Engine.withEntries office writing.entries) := by
  cases writing with
  | one entry =>
      apply Engine.answer_recordEntry
      rw [repeats_one_iff] at fresh
      rw [keeps.ledger, Ledger.ids_ofEntries, List.contains_iff_mem,
        List.mem_reverse]
      exact fresh
  | batch entries =>
      apply Engine.answer_recordBatch
      rw [keeps.ledger]
      exact Ledger.firstRepeated?_of_not_repeats fresh

/-- Added entries come last in the list and repeat no identifier. -/
theorem KeepsList.withEntries
    (keeps : office.KeepsList listed)
    (fresh : ¬ writing.Repeats listed) :
    (Engine.withEntries office writing.entries).KeepsList
      (listed ++ writing.entries) where
  ledger := by
    rw [Ledger.ofEntries_append, ← keeps.ledger]
    rfl
  distinct := by
    rw [Writing.Repeats, not_or, not_not] at fresh
    rw [List.map_append, List.nodup_append']
    refine ⟨keeps.distinct, fresh.1, fun id before within => ?_⟩
    obtain ⟨entry, member, rfl⟩ := List.mem_map.mp within
    exact fresh.2 ⟨entry, member, before⟩

/-- A call does to the ledger what it does to the list. -/
theorem KeepsList.write
    (keeps : office.KeepsList listed)
    (writing : Writing) :
    (office.write writing).2.KeepsList (writing.addTo listed) := by
  rw [Writing.addTo]
  split
  next repeats =>
    obtain ⟨failure, -, refused⟩ := keeps.write_refused repeats
    rw [refused]
    exact keeps
  next fresh =>
    rw [keeps.write_added fresh]
    exact keeps.withEntries fresh

/-- So do calls one after another. -/
theorem KeepsList.afterWritings
    (keeps : office.KeepsList listed)
    (writings : List Writing) :
    (office.afterWritings writings).KeepsList
      (writings.foldl Writing.addTo listed) := by
  induction writings generalizing office listed with
  | nil =>
      exact keeps
  | cons writing rest inductionHypothesis =>
      exact inductionHypothesis (keeps.write writing)

end Office

/--
From an empty ledger on, calls that write to it do what they do to a plain list.
At every point what is read from the ledger is what the list has, and the next
call is refused, with nothing changed, exactly if it repeats an identifier.
-/
theorem ledger_is_list
    (accounts : AccountBook)
    (firstId : Nat)
    (clock : Timestamp)
    (writings : List Writing) :
    let office := (Office.opened accounts firstId clock).afterWritings writings
    let listed := Writing.listAfter writings
    office.ledger.ReadsAs listed ∧
      ∀ writing : Writing,
        if writing.Repeats listed then
          ∃ failure,
            writing.IsRefusedWith listed failure ∧
              office.write writing = (.error failure, office)
        else
          (office.write writing).1 = .ok () := by
  intro office listed
  have opened : (Office.opened accounts firstId clock).KeepsList [] :=
    ⟨rfl, List.nodup_nil⟩
  have keeps : office.KeepsList listed := opened.afterWritings writings
  constructor
  · rw [keeps.ledger]
    exact Ledger.readsAs_ofEntries keeps.distinct
  · intro writing
    split
    next repeats =>
      exact keeps.write_refused repeats
    next fresh =>
      rw [keeps.write_added fresh]

end PatronFees
