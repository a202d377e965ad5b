import PatronFees.Proofs.Table.Accounts
import PatronFees.Proofs.Table.Entries

namespace PatronFees

/-!
# Texts of tables

The text of a table has its rows one behind the other, whatever pieces it is written
in. A table of records begins with the names of its columns, and has a row for each
record with what the columns show of it. Accounts stand in the order of their
identifiers, ledger entries as they were recorded.
-/

namespace Table

/-- The byte stands in no field without quotes around it. -/
def isSpecial (byte : UInt8) : Bool :=
  [comma, quote, lineFeed, carriageReturn].contains byte

/-- The text of a field: as it is, or in quotes with the quotes in it doubled. -/
def textOfField (field : Field) : List UInt8 :=
  if field.any isSpecial then
    [quote] ++
      field.flatMap (fun byte => if byte = quote then [quote, quote] else [byte]) ++
        [quote]
  else
    field

/-- The text of a row: a line of its fields, but no empty line. -/
def textOfRow (row : Row) : List UInt8 :=
  let fields := [comma].intercalate (row.map textOfField)
  (if fields = [] then [quote, quote] else fields) ++ [lineFeed]

/-- The text of a table. -/
def textOf (table : List Row) : List UInt8 :=
  table.flatMap textOfRow

/-- A column has a name and shows something of a record. -/
structure Column (Record : Type) where
  name : String
  shows : Record → String

/-- The names of columns, and below them what they show of each of some records. -/
def rowsOfColumns
    {Record : Type}
    (columns : List (Column Record))
    (records : List Record) : List Row :=
  rowOfTexts (columns.map (·.name)) ::
    records.map fun record => rowOfTexts (columns.map (·.shows record))

theorem flatten_fieldPieces (field : Field) :
    (fieldPieces field).flatten = textOfField field := by
  have special :
      (fun byte => byte == comma || byte == quote || isRowEnd byte) = isSpecial := by
    funext byte
    simp only [isSpecial, isRowEnd, List.contains_cons, List.contains_nil,
      Bool.or_false, Bool.or_assoc]
  have doubled :
      quotedPiece = fun byte => if byte = quote then [quote, quote] else [byte] :=
    rfl
  rw [fieldPieces, needsQuotes, special, doubled, textOfField]
  split
  · simp [List.flatMap_def]
  · simp [← List.flatMap_def]

/-- The pieces of a row are its fields with commas between them. -/
theorem flatten_fieldsPieces_eq (row : Row) :
    (fieldsPieces row).flatten = [comma].intercalate (row.map textOfField) := by
  cases row with
  | nil =>
      rfl
  | cons field later =>
      rw [flatten_fieldsPieces, flatten_fieldPieces]
      simp only [flatten_fieldPieces]
      induction later generalizing field with
      | nil =>
          simp
      | cons next others inductionHypothesis =>
          rw [List.flatMap_cons, List.cons_append, inductionHypothesis next]
          simp [List.intercalate_cons_cons]

/-- Only an empty field that is alone makes an empty line, or no field at all. -/
theorem textOfFields_eq_nil_iff (row : Row) :
    [comma].intercalate (row.map textOfField) = [] ↔
      (row.all List.isEmpty && row.length ≤ 1) = true := by
  cases row with
  | nil =>
      simp
  | cons field later =>
      cases later with
      | nil =>
          cases field with
          | nil =>
              decide
          | cons byte rest =>
              rw [List.map_singleton, List.intercalate_singleton, textOfField]
              split <;> simp
      | cons next others =>
          simp [List.intercalate_cons_cons]

theorem flatten_rowPieces (row : Row) :
    (rowPieces row).flatten = textOfRow row := by
  rw [rowPieces, textOfRow]
  simp only [textOfFields_eq_nil_iff]
  split
  · rfl
  · rw [List.flatten_append, flatten_fieldsPieces_eq]
    rfl

/-- What is written of a table is its text. -/
theorem bytes_eq (table : List Row) :
    bytes table = textOf table := by
  rw [bytes, pieces, textOf]
  induction table with
  | nil =>
      rfl
  | cons row later inductionHypothesis =>
      rw [List.flatMap_cons, List.flatten_append, flatten_rowPieces,
        inductionHypothesis, List.flatMap_cons]

end Table

namespace Account

/-- The columns of a table of accounts. -/
def shownColumns : List (Table.Column Account) :=
  [⟨"id", fun account => account.id⟩,
    ⟨"user_id", fun account => account.user⟩,
    ⟨"fee_fine_type", fun account => account.feeFineType⟩,
    ⟨"amount", fun account => account.amount.text⟩,
    ⟨"remaining", fun account => account.remaining.text⟩,
    ⟨"status", fun account => account.status.name⟩,
    ⟨"payment_status", fun account => account.paymentStatus⟩,
    ⟨"created_at", fun account => account.createdAt.text .seconds⟩]

/-- All of some accounts in the order of their identifiers, those with one as they stood. -/
structure IsListing (accounts listed : List Account) : Prop where
  ordered : listed.Pairwise fun first second => first.id ≤ second.id
  same : ∀ id, listed.filter (·.id == id) = accounts.filter (·.id == id)

theorem IsListing.perm
    {accounts listed : List Account}
    (listing : IsListing accounts listed) :
    listed.Perm accounts := by
  rw [List.perm_iff_count]
  intro account
  have itself : (account.id == account.id) = true := beq_self_eq_true account.id
  have counted (some : List Account) :
      some.count account = (some.filter (·.id == account.id)).count account :=
    (List.count_filter (p := fun other : Account => other.id == account.id) itself).symm
  rw [counted listed, listing.same, ← counted accounts]

/-- Accounts with the same identifier are written as they stand. -/
theorem isListing_sorted (accounts : List Account) :
    IsListing accounts (sorted accounts) where
  ordered := pairwise_le_sorted accounts
  same id := by
    have alike :
        (accounts.filter (·.id == id)).Pairwise fun first second =>
          (compare first.id second.id).isLE = true := by
      refine List.pairwise_of_forall_mem_list fun first isFirst second isSecond => ?_
      simp only [List.mem_filter, beq_iff_eq] at isFirst isSecond
      rw [Std.LawfulBCmp.isLE_iff_le, isFirst.2, isSecond.2]
    have kept : (accounts.filter (·.id == id)).Sublist (sorted accounts) :=
      List.sublist_mergeSort (fun _ _ _ => Std.TransCmp.isLE_trans)
        compare_isLE_total alike List.filter_sublist
    have among := kept.filter (·.id == id)
    rw [List.filter_filter] at among
    simp only [Bool.and_self] at among
    have sameLength :=
      ((List.mergeSort_perm accounts fun first second =>
        (compare first.id second.id).isLE).filter (·.id == id)).length_eq
    exact (among.eq_of_length sameLength.symm).symm

theorem rows_eq (accounts : List Account) :
    rows accounts = Table.rowsOfColumns shownColumns (sorted accounts) :=
  rfl

end Account

namespace LedgerEntry

/-- The columns of a table of ledger entries. -/
def shownColumns : List (Table.Column LedgerEntry) :=
  [⟨"id", fun entry => entry.id.text⟩,
    ⟨"account_id", fun entry => entry.posting.account⟩,
    ⟨"user_id", fun entry => entry.posting.user⟩,
    ⟨"action_type", fun entry => entry.posting.actionType⟩,
    ⟨"amount", fun entry => entry.posting.amount.text⟩,
    ⟨"balance", fun entry => entry.posting.balance.text⟩,
    ⟨"payment_method", fun entry => entry.posting.paymentMethod.getD ""⟩,
    ⟨"transaction_information",
      fun entry => entry.posting.transactionInformation.getD ""⟩,
    ⟨"service_point", fun entry => entry.posting.servicePoint.getD ""⟩,
    ⟨"source", fun entry => entry.posting.source.getD ""⟩,
    ⟨"comments", fun entry => entry.posting.comments.getD ""⟩,
    ⟨"notify", fun entry => if entry.posting.notify then "true" else "false"⟩,
    ⟨"created_at", fun entry => entry.stamp.createdAt.text .seconds⟩]

theorem rows_eq (entries : List LedgerEntry) :
    rows entries =
      if entries = [] then [] else Table.rowsOfColumns shownColumns entries := by
  rw [rows]
  simp only [List.isEmpty_iff]
  rfl

end LedgerEntry

end PatronFees
