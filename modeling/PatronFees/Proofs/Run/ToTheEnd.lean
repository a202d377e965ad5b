import PatronFees.Proofs.Run
import PatronFees.Proofs.Table.ToTheEnd

namespace PatronFees

/-!
# Runs to the end

A run carries out the batches of its actions until one counts no row, and so
does what it would do with those batches in hand. Under a header that is text
these are all batches of the table. Under one that is no text the run comes to a
batch that counts a row and uses none up, and stays there.
-/

open TableReader

namespace Run

/-- Carry out batches that have been read, one after another. -/
def carryOutEach
    (engine : Engine) :
    List (TableBatch ActionRequest) → Attempt (List Processed)
  | [] => return []
  | batch :: rest => do
      reportAll batch.warnings
      let processed ← Batch.process engine batch.values
      reportAll (processed.filterMap Processed.refusal?)
      return processed ++ (← carryOutEach engine rest)

/--
Carry out so many batches of a size, and then stop with the batch behind them.

It is the last one if it counts no row; otherwise there is no end.
-/
def carryOutUpTo
    (engine : Engine)
    (size : Nat)
    (reader : TableReader)
    (calls : Nat) :
    Attempt (List Processed) := do
  let (batches, behind) :=
    readBatches TableFormat.actions (List.replicate calls size) reader
  let processed ← carryOutEach engine batches
  let last := behind.readBatch TableFormat.actions size
  reportAll last.warnings
  if last.reader.rowsRead = behind.rowsRead then
    return processed
  else
    throw .endless

/--
A run over a table is a run up to some batch: the first that counts no row, or
else the first that uses none up.
-/
theorem exists_carryOutUpTo
    (engine : Engine)
    (size : Nat)
    (reader : TableReader) :
    ∃ calls ≤ reader.rows.length,
      (¬ (reader.behind TableFormat.actions size calls).Counts
            TableFormat.actions size ∨
          ¬ (reader.behind TableFormat.actions size calls).UsesUp
            TableFormat.actions size) ∧
        carryOut engine size reader =
          carryOutUpTo engine size reader calls := by
  fun_induction TableReader.readAll TableFormat.actions size reader with
  | case1 reader batch same =>
      refine ⟨0, Nat.zero_le _, .inl fun counts => Nat.ne_of_gt counts same, ?_⟩
      rw [carryOut, if_pos same]
      simp only [carryOutUpTo, readBatches, carryOutEach, List.replicate_zero, pure_bind]
      rw [if_pos same]
  | case2 reader batch counted fewer inductionHypothesis =>
      obtain ⟨calls, bounded, stops, later⟩ := inductionHypothesis
      refine ⟨calls + 1, by omega, stops, ?_⟩
      rw [carryOut, if_neg counted, if_pos fewer, later]
      simp only [carryOutUpTo, List.replicate_succ, readBatches, carryOutEach, batch,
        bind_assoc, pure_bind]
      refine bind_congr fun _ => bind_congr fun _ => bind_congr fun _ =>
        bind_congr fun _ => bind_congr fun _ => ?_
      split
      next =>
        rfl
      next =>
        rfl
  | case3 reader batch counted notFewer =>
      refine ⟨0, Nat.zero_le _, .inr notFewer, ?_⟩
      rw [carryOut, if_neg counted, if_neg notFewer]
      simp only [carryOutUpTo, readBatches, carryOutEach, List.replicate_zero, pure_bind]
      rw [if_neg counted]

end Run

/--
Reading ends exactly under a header that is text, or none at all: then whatever
counts a row uses one up, and a table is read, and a run over it carried out, in no
more batches than it has rows. A header that is no text is counted by every batch,
some batch uses nothing up, and nothing that reads until no row is counted ends.
-/
theorem reading_ends
    {Value : Type}
    (format : TableFormat Value)
    (engine : Engine)
    (bytes : List UInt8)
    (size : Nat)
    (positive : 0 < size) :
    let reader := TableReader.ofBytes bytes
    (Table.HasTextHeader bytes →
      (∀ calls,
        (reader.behind format size calls).Counts format size →
          (reader.behind format size calls).UsesUp format size) ∧
        (∃ calls ≤ reader.rows.length,
          ¬ (reader.behind format size calls).Counts format size) ∧
        (∃ table, reader.readAll format size = .ok table) ∧
        ∃ calls ≤ reader.rows.length,
          ¬ (reader.behind TableFormat.actions size calls).Counts
              TableFormat.actions size ∧
            Run.carryOut engine size reader =
              Run.carryOutUpTo engine size reader calls) ∧
      (¬ Table.HasTextHeader bytes →
        (∀ calls, (reader.behind format size calls).Counts format size) ∧
          (∃ calls, ¬ (reader.behind format size calls).UsesUp format size) ∧
          reader.readAll format size = .error .endless ∧
          ∀ office : Office, ∃ halt after,
            office.run (Run.carryOut engine size reader) =
              (.error halt, after)) := by
  intro reader
  rw [← header_ne_unreadable_iff]
  constructor
  · intro named
    have text {Value : Type} {format : TableFormat Value} (calls : Nat) :
        (reader.behind format size calls).header ≠ .unreadable := by
      rw [behind_eq named]
      exact named
    refine ⟨fun calls => usesUp_of_counts (text calls), ⟨reader.rows.length, le_rfl, ?_⟩,
      ⟨_, readAll_eq format named positive⟩, ?_⟩
    · rw [counts_iff (text _) positive, behind_eq named, not_not]
      exact List.drop_eq_nil_of_le (Nat.le_mul_of_pos_right _ positive)
    · obtain ⟨calls, bounded, stops, same⟩ :=
        Run.exists_carryOutUpTo engine size reader
      refine ⟨calls, bounded, fun counts => ?_, same⟩
      rcases stops with uncounted | unused
      · exact uncounted counts
      · exact unused (usesUp_of_counts (text calls) counts)
  · intro unnamed
    have unreadable : reader.header = .unreadable := not_not.mp unnamed
    exact ⟨fun calls =>
        counts_of_unreadable (header_behind unreadable positive calls) positive,
      exists_not_usesUp unreadable positive,
      readAll_of_unreadable unreadable format positive,
      Run.exists_carryOut_error
        (readAll_of_unreadable unreadable TableFormat.actions positive)⟩

/-- A row that is no text and a quote that is never closed are read to their end. -/
theorem reading_ends_unclosedQuote :
    let bytes :=
      "action,accounts\npay,".toUTF8.toList ++ [0xff] ++ "\npay,\"a\n".toUTF8.toList
    let reader := TableReader.ofBytes bytes
    0 < 1 ∧
      Table.HasTextHeader bytes ∧
      (∃ calls ≤ reader.rows.length,
        ¬ (reader.behind TableFormat.actions 1 calls).Counts TableFormat.actions 1) ∧
      (∃ table, reader.readAll TableFormat.actions 1 = .ok table) ∧
      ((reader.readAll TableFormat.actions 1).map fun table =>
          (table.warnings, table.reader.rowsRead)) =
        .ok ([.recordUnreadable 2], 2) := by
  intro bytes reader
  have text : Table.HasTextHeader bytes :=
    (header_ne_unreadable_iff bytes).mp (by decide +kernel)
  obtain ⟨-, stops, ends, -⟩ :=
    (reading_ends TableFormat.actions (Engine.new 2) bytes 1 (by decide)).1 text
  exact ⟨by decide, text, stops, ends, by decide +kernel⟩

/-- Row by row, a header that is no text is read forever, and the row behind it never. -/
theorem reading_never_ends_unreadableHeader :
    let reader :=
      TableReader.ofBytes
        ("action,accounts".toUTF8.toList ++ [0xff] ++ "\npay,a\n".toUTF8.toList)
    reader.rows.length = 1 ∧
      (∀ calls,
        (reader.behind TableFormat.actions 1 calls).Counts TableFormat.actions 1 ∧
          ¬ (reader.behind TableFormat.actions 1 calls).UsesUp TableFormat.actions 1) ∧
      reader.readAll TableFormat.actions 1 = .error .endless ∧
      ∀ office : Office, ∃ halt after,
        office.run (Run.carryOut (Engine.new 2) 1 reader) = (.error halt, after) := by
  intro reader
  have unreadable : reader.header = .unreadable := by
    decide +kernel
  have one : 0 < 1 := by
    decide
  have endless := readAll_of_unreadable unreadable TableFormat.actions one
  refine ⟨by decide +kernel, fun calls => ?_, endless, Run.exists_carryOut_error endless⟩
  have later : (reader.behind TableFormat.actions 1 calls).header = .unreadable :=
    header_behind unreadable one calls
  refine ⟨counts_of_unreadable later one, fun uses => ?_⟩
  rw [UsesUp, reader_readBatch later TableFormat.actions one] at uses
  exact Nat.lt_irrefl _ uses

end PatronFees
