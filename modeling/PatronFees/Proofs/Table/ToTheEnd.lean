import PatronFees.Proofs.Table.Reading

namespace PatronFees

/-!
# Reading to the end

Batches are read until one counts no row. Under a header that is text a batch
counts the rows that it uses up, so that there are no more batches than rows. A
header that is no text is counted anew by every batch: none is the last, and the
rows that are left say nothing about how long reading goes on.
-/

/-- The first row of a table, if it has any, is text. -/
def Table.HasTextHeader (bytes : List UInt8) : Prop :=
  ∀ header ∈ (Table.rows bytes).head?, header.texts? ≠ none

namespace TableReader

variable {Value : Type} {format : TableFormat Value} {reader : TableReader}
  {size : Nat}

/-- The reader behind so many batches of a size. -/
def behind
    (format : TableFormat Value)
    (size calls : Nat)
    (reader : TableReader) : TableReader :=
  (readBatches format (List.replicate calls size) reader).2

/-- The next batch of a size counts a row. -/
def Counts
    (format : TableFormat Value)
    (size : Nat)
    (reader : TableReader) : Prop :=
  reader.rowsRead < (readBatch format size reader).reader.rowsRead

/-- The next batch of a size uses up a row. -/
def UsesUp
    (format : TableFormat Value)
    (size : Nat)
    (reader : TableReader) : Prop :=
  (readBatch format size reader).reader.rows.length < reader.rows.length

theorem header_ne_unreadable_iff (bytes : List UInt8) :
    (ofBytes bytes).header ≠ .unreadable ↔ Table.HasTextHeader bytes := by
  rw [ofBytes, Table.HasTextHeader]
  cases Table.rows bytes with
  | nil =>
      simp
  | cons header rest =>
      cases texts : header.texts? <;> simp [Table.Header.ofRow, texts]

section Named

variable (named : reader.header ≠ .unreadable)

include named

/-- Behind batches under a header that is text are the rows behind theirs. -/
theorem behind_eq (calls : Nat) :
    reader.behind format size calls = reader.skip (calls * size) := by
  have read := (readBatches_eq format named (List.replicate calls size)).1
  rwa [List.sum_replicate_nat] at read

/-- A batch counts a row where there is one. -/
theorem counts_iff (positive : 0 < size) :
    reader.Counts format size ↔ reader.rows ≠ [] := by
  rw [Counts, readBatch_eq format named, ← List.length_pos_iff]
  simp only [skip]
  omega

/-- A batch that counts a row uses one up. -/
theorem usesUp_of_counts
    (counts : reader.Counts format size) :
    reader.UsesUp format size := by
  rw [Counts, readBatch_eq format named] at counts
  rw [UsesUp, readBatch_eq format named]
  simp only [skip, List.length_drop] at counts ⊢
  omega

end Named

section Unreadable

variable (unreadable : reader.header = .unreadable)

include unreadable

/-- A header that is no text counts as a row, and the rows of the batch are one fewer. -/
theorem reader_readBatch
    (format : TableFormat Value)
    (positive : 0 < size) :
    (readBatch format size reader).reader =
      { reader.skip (size - 1) with
        rowsRead := reader.rowsRead + 1 + min (size - 1) reader.rows.length } := by
  obtain ⟨later, rfl⟩ := Nat.exists_eq_add_of_lt positive
  rcases reader with ⟨header, rows, rowsRead⟩
  cases unreadable
  simp [readBatch, readRows, skip, List.length_take]

theorem counts_of_unreadable
    (positive : 0 < size) :
    reader.Counts format size := by
  rw [Counts, reader_readBatch unreadable format positive]
  dsimp only
  omega

/-- No batch makes the header text. -/
theorem header_behind
    (positive : 0 < size)
    (calls : Nat) :
    (reader.behind format size calls).header = .unreadable := by
  induction calls generalizing reader with
  | zero =>
      exact unreadable
  | succ calls inductionHypothesis =>
      apply inductionHypothesis
      rw [reader_readBatch unreadable format positive]
      exact unreadable

/-- The rows are used up by what a batch has room for behind the header. -/
theorem rows_behind
    (positive : 0 < size)
    (calls : Nat) :
    (reader.behind format size calls).rows =
      reader.rows.drop (calls * (size - 1)) := by
  induction calls generalizing reader with
  | zero =>
      rw [Nat.zero_mul, List.drop_zero]
      rfl
  | succ calls inductionHypothesis =>
      have read := reader_readBatch unreadable format positive
      have later : (readBatch format size reader).reader.header = .unreadable := by
        rw [read]
        exact unreadable
      change ((readBatch format size reader).reader.behind format size calls).rows = _
      rw [inductionHypothesis later, read]
      simp only [skip, List.drop_drop]
      congr 1
      rw [Nat.succ_mul, Nat.add_comm]

/-- Some batch counts a row and uses none up. -/
theorem exists_not_usesUp
    (positive : 0 < size) :
    ∃ calls, ¬ (reader.behind format size calls).UsesUp format size := by
  refine ⟨reader.rows.length, ?_⟩
  have later : (reader.behind format size reader.rows.length).header = .unreadable :=
    header_behind unreadable positive _
  rw [UsesUp, reader_readBatch later format positive]
  simp only [skip, rows_behind unreadable positive, List.length_drop]
  rcases Nat.eq_zero_or_pos (size - 1) with none | room
  · rw [none]
    omega
  · have enough := Nat.le_mul_of_pos_right reader.rows.length room
    omega

/-- Reading under a header that is no text goes on forever. -/
theorem readAll_of_unreadable
    (format : TableFormat Value)
    (positive : 0 < size) :
    readAll format size reader = .error .endless := by
  fun_induction readAll format size reader with
  | case1 reader batch same =>
      have counts : reader.Counts format size :=
        counts_of_unreadable unreadable positive
      rw [Counts] at counts
      exact absurd same (Nat.ne_of_gt counts)
  | case2 reader batch counted fewer inductionHypothesis =>
      have later : batch.reader.header = .unreadable := by
        rw [show batch.reader = _ from reader_readBatch unreadable format positive]
        exact unreadable
      rw [inductionHypothesis later]
      rfl
  | case3 =>
      rfl

end Unreadable

end TableReader

end PatronFees
