import PatronFees.Proofs.Table.Writing
import PatronFees.Proofs.Text.Bytes
import PatronFees.Record.Tables

namespace PatronFees

/-!
# Written ledgers

A written ledger has a row for each entry: its identifier, then what was posted,
and its time at the end. So ledgers with the same history of an account have,
identifiers and times aside, the same rows on the account.
-/

/-- Texts with the same bytes are the same. -/
theorem Text.toList_toUTF8_inj
    {first second : String}
    (same : first.toUTF8.toList = second.toUTF8.toList) :
    first = second := by
  rw [toList_eq, toList_eq] at same
  exact String.toByteArray_inj.mp (ByteArray.ext (Array.toList_inj.mp same))

/-- What was posted, in the columns between an entry's identifier and its time. -/
def Posting.texts (posting : Posting) : List String :=
  [posting.account, posting.user, posting.actionType, posting.amount.text,
    posting.balance.text, posting.paymentMethod.getD "",
    posting.transactionInformation.getD "", posting.servicePoint.getD "",
    posting.source.getD "", posting.comments.getD "",
    if posting.notify then "true" else "false"]

namespace LedgerEntry

/-- A written ledger has the rows that were written. -/
theorem rows_bytes (entries : List LedgerEntry) :
    Table.rows (Table.bytes (rows entries)) = rows entries := by
  apply Table.rows_bytes
  · intro row member
    rw [rows] at member
    split at member
    · cases member
    · rcases List.mem_cons.mp member with rfl | other
      · simp [Table.rowOfTexts, columns]
      · obtain ⟨entry, -, rfl⟩ := List.mem_map.mp other
        simp [Table.rowOfTexts, texts]
  · rw [rows]
    split
    · rfl
    · -- The header begins with a letter, not with a byte order mark.
      have first :
          (Table.rowPieces (Table.rowOfTexts columns)).flatten.head? = some 105 := by
        decide +kernel
      obtain ⟨more, header⟩ := List.head?_eq_some_iff.mp first
      simp only [Table.bytes, Table.pieces, List.flatMap_cons,
        List.flatten_append, header]
      rfl

/-- The rows of a written ledger on an account, identifiers and times left out. -/
def rowsOn
    (id : AccountId)
    (bytes : List UInt8) : List Table.Row :=
  ((Table.rows bytes).tail.filter
      fun row => row[1]? == some id.toUTF8.toList).map
    fun row => row.tail.dropLast

/-- The rows of a written ledger on an account are what was posted on it. -/
theorem rowsOn_bytes
    (id : AccountId)
    (entries : List LedgerEntry) :
    rowsOn id (Table.bytes (rows entries)) =
      (entries.filter (·.account == id)).map fun entry =>
        Table.rowOfTexts entry.posting.texts := by
  have entryRows :
      (rows entries).tail =
        entries.map fun entry => Table.rowOfTexts entry.texts := by
    cases entries <;> rfl
  have onAccount (entry : LedgerEntry) :
      ((Table.rowOfTexts entry.texts)[1]? == some id.toUTF8.toList) =
        (entry.account == id) := by
    have second :
        (Table.rowOfTexts entry.texts)[1]? =
          some entry.account.toUTF8.toList :=
      rfl
    rw [second, Bool.eq_iff_iff, beq_iff_eq, beq_iff_eq, Option.some_inj]
    exact ⟨Text.toList_toUTF8_inj, fun same => by rw [same]⟩
  have between (entry : LedgerEntry) :
      (Table.rowOfTexts entry.texts).tail.dropLast =
        Table.rowOfTexts entry.posting.texts :=
    rfl
  rw [rowsOn, rows_bytes, entryRows, List.filter_map, List.map_map]
  simp only [Function.comp_def, onAccount, between]

/-- Entries with the same history on an account have the same rows on it. -/
theorem rowsOn_eq
    {entries others : List LedgerEntry}
    {id : AccountId}
    (same :
      (entries.map (·.posting)).filter (·.account == id) =
        (others.map (·.posting)).filter (·.account == id)) :
    rowsOn id (Table.bytes (rows entries)) =
      rowsOn id (Table.bytes (rows others)) := by
  have posted (some : List LedgerEntry) :
      rowsOn id (Table.bytes (rows some)) =
        ((some.map (·.posting)).filter (·.account == id)).map fun posting =>
          Table.rowOfTexts posting.texts := by
    rw [rowsOn_bytes, List.filter_map, List.map_map]
    rfl
  rw [posted, posted, same]

end LedgerEntry

end PatronFees
