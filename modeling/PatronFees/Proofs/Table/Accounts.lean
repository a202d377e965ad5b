import PatronFees.Proofs.Outcome
import PatronFees.Proofs.Table.Reading
import PatronFees.Proofs.Table.Writing
import PatronFees.Proofs.Timestamp.Text
import Mathlib.Data.String.Basic

namespace PatronFees

/-!
# Accounts that are read as they were written

A written table of accounts is read without a warning, and its accounts are those
that were written, in the order of their identifiers. Of an account only what is
not written changes: a fraction of the second of its creation, and what its amounts
were before they were rounded.
-/

namespace Account

/-- What of an account can be read back, its balance and times aside. -/
structure IsLegible (account : Account) : Prop where
  id : Text.trimmed account.id = account.id
  user : Text.trimmed account.user = account.user
  feeFineType : Text.trimmed account.feeFineType = account.feeFineType
  paymentStatus : Text.trimmed account.paymentStatus = account.paymentStatus
  labelled : account.paymentStatus ≠ ""

/-- An account that a table at a scale can hold. -/
structure IsWritable
    (scale : Nat)
    (account : Account) : Prop where
  legible : account.IsLegible
  amountScale : account.amount.scale = scale
  remainingScale : account.remaining.scale = scale
  balanced : account.checkBalance = .ok account
  inYears : 0 ≤ account.createdAt.year ∧ account.createdAt.year ≤ 9999
  onClock : account.createdAt.IsOnClock

/-- The account as a table shows it. -/
def asWritten (account : Account) : Account :=
  { account with
    amount := account.amount.settled
    remaining := account.remaining.settled
    createdAt := account.createdAt.cut }

/-- The record in the row of an account. -/
def record (account : Account) : AccountRecord where
  id := account.id
  user := account.user
  feeFineType := account.feeFineType
  amount := account.amount.text
  remaining := some account.remaining.text
  status := some account.status.name
  paymentStatus := some account.paymentStatus
  createdAt := some (account.createdAt.text .seconds)

end Account

/-- Texts without blanks around them are read from a row as they were written. -/
theorem Table.texts?_rowOfTexts
    {texts : List String}
    (trimmed : ∀ text ∈ texts, Text.trimmed text = text) :
    (Table.rowOfTexts texts).texts? = some texts := by
  induction texts with
  | nil =>
      rfl
  | cons text rest inductionHypothesis =>
      have first := Text.text?_toUTF8 text
      rw [trimmed text List.mem_cons_self] at first
      have others := inductionHypothesis fun other member =>
        trimmed other (List.mem_cons_of_mem text member)
      simp only [Row.texts?, rowOfTexts, List.map_cons, List.mapM_cons, first]
        at others ⊢
      rw [others]
      rfl

/-- A text that is not blank is kept as it is. -/
theorem Text.nonBlank_eq
    {text : String}
    (trimmed : Text.trimmed text = text)
    (nonempty : text ≠ "") :
    Text.nonBlank text = some text := by
  rw [nonBlank, trimmed, if_neg nonempty]

theorem AccountStatus.trimmed_name (status : AccountStatus) :
    Text.trimmed status.name = status.name := by
  cases status <;> decide

theorem AccountStatus.name_ne_empty (status : AccountStatus) :
    status.name ≠ "" := by
  cases status <;> decide

theorem AccountStatus.read_name (status : AccountStatus) :
    AccountStatus.read status.name = .ok status := by
  cases status <;> decide +kernel

/-- Nothing but values is gathered of rows that all became values. -/
theorem TableReader.gather_ok
    {Value : Type}
    (values : List Value) :
    gather (values.map Except.ok) = (values, []) := by
  induction values with
  | nil =>
      rfl
  | cons value rest inductionHypothesis =>
      simp [gather, inductionHypothesis]

namespace Account

variable {scale : Nat} {account : Account}

/-- The balance of an account is right where it is right as written. -/
theorem checkBalance_asWritten
    (balanced : account.checkBalance = .ok account) :
    account.asWritten.checkBalance = .ok account.asWritten := by
  have within : account.asWritten.owesWithinAmount = account.owesWithinAmount :=
    rfl
  have owing :
      (account.asWritten.isClosed && !account.asWritten.remaining.isZero) =
        (account.isClosed && !account.remaining.isZero) :=
    rfl
  rw [checkBalance] at balanced ⊢
  rw [within, owing]
  split at balanced
  next =>
    cases balanced
  next inside =>
    split at balanced
    next =>
      cases balanced
    next closed =>
      rw [if_neg inside, if_neg closed]

/-- The record of a written account is that account, as it is written. -/
theorem toAccount_record
    (writable : account.IsWritable scale) :
    account.record.toAccount scale = .ok account.asWritten := by
  have amount :
      Money.read account.record.amount scale = .ok account.amount.settled :=
    writable.amountScale ▸ account.amount.read_text
  have createdAt : account.record.readCreatedAt = .ok account.createdAt.cut := by
    simp only [AccountRecord.readCreatedAt, record, Option.bind_some,
      Text.nonBlank_eq (Timestamp.trimmed_text writable.inYears)
        (Timestamp.text_ne_empty writable.inYears),
      Timestamp.read_text writable.inYears writable.onClock]
  have remaining :
      account.record.readRemaining account.amount.settled scale =
        .ok account.remaining.settled := by
    simp only [AccountRecord.readRemaining, record, Option.bind_some,
      Text.nonBlank_eq account.remaining.trimmed_text
        account.remaining.text_ne_empty]
    exact writable.remainingScale ▸ account.remaining.read_text
  have status : account.record.readStatus = .ok account.status := by
    simp only [AccountRecord.readStatus, record, Option.bind_some,
      Text.nonBlank_eq account.status.trimmed_name account.status.name_ne_empty,
      AccountStatus.read_name]
  have label :
      (account.record.paymentStatus.bind Text.nonBlank).getD outstanding =
        account.paymentStatus := by
    simp only [record, Option.bind_some, Option.getD_some,
      Text.nonBlank_eq writable.legible.paymentStatus writable.legible.labelled]
  have fields : account.record.readFields scale = .ok account.asWritten := by
    rw [AccountRecord.readFields]
    simp only [amount, createdAt, remaining, status, label, Outcome.ok_bind]
    rfl
  rw [AccountRecord.toAccount, fields]
  exact checkBalance_asWritten writable.balanced

/-- The row of an account is read as that account, as it is written. -/
theorem readRow_texts
    (writable : account.IsWritable scale)
    (line : Nat) :
    TableReader.readRow (TableFormat.accounts scale)
        (.names AccountRecord.layout.columns) line
        (Table.rowOfTexts account.texts) =
      .ok account.asWritten := by
  have texts :
      (Table.rowOfTexts account.texts).texts? = some account.texts := by
    apply Table.texts?_rowOfTexts
    simp only [Account.texts, List.forall_mem_cons, List.not_mem_nil]
    exact ⟨writable.legible.id, writable.legible.user,
      writable.legible.feeFineType, account.amount.trimmed_text,
      account.remaining.trimmed_text, account.status.trimmed_name,
      writable.legible.paymentStatus, Timestamp.trimmed_text writable.inYears,
      fun _ no => no.elim⟩
  have cells :
      AccountRecord.layout.cells? (.names AccountRecord.layout.columns)
          (Table.rowOfTexts account.texts) =
        some (AccountRecord.layout.columns.zip account.texts) := by
    have fits :
        AccountRecord.layout.fitsHeader AccountRecord.layout.columns = true := by
      decide
    have long :
        AccountRecord.layout.fitsLength AccountRecord.layout.columns
          account.texts.length = true := by
      rfl
    simp only [Table.Layout.cells?, texts, fits, long, Bool.and_self, ↓reduceIte]
  have record :
      AccountRecord.ofCells (AccountRecord.layout.columns.zip account.texts) =
        account.record := by
    have remaining := account.remaining.text_ne_empty
    have status := account.status.name_ne_empty
    have label := writable.legible.labelled
    have createdAt := Timestamp.text_ne_empty writable.inYears
    simp [AccountRecord.ofCells, Table.Cells.text, Table.Cells.text?,
      AccountRecord.layout, Table.Layout.columns, Account.texts, List.lookup_cons,
      Account.record, remaining, status, label, createdAt]
  rw [TableReader.readRow]
  simp only [TableFormat.accounts, cells, record, toAccount_record writable]

/-- A written table of accounts has the rows that were written. -/
theorem rows_bytes (accounts : List Account) :
    Table.rows (Table.bytes (rows accounts)) = rows accounts := by
  apply Table.rows_bytes
  · intro row member
    rcases List.mem_cons.mp member with rfl | other
    · simp [Table.rowOfTexts, AccountRecord.layout, Table.Layout.columns]
    · obtain ⟨account, -, rfl⟩ := List.mem_map.mp other
      simp [Table.rowOfTexts, Account.texts]
  · -- The header begins with a letter, not with a byte order mark.
    have first :
        (Table.rowPieces
            (Table.rowOfTexts AccountRecord.layout.columns)).flatten.head? =
          some 105 := by
      decide +kernel
    obtain ⟨more, header⟩ := List.head?_eq_some_iff.mp first
    simp only [Table.bytes, Table.pieces, rows, List.flatMap_cons,
      List.flatten_append, header]
    rfl

/-- The reader before the first account of a written table. -/
theorem ofBytes_bytes (accounts : List Account) :
    TableReader.ofBytes (Table.bytes (rows accounts)) =
      ⟨.names AccountRecord.layout.columns,
        (sorted accounts).map fun account => Table.rowOfTexts account.texts,
        0⟩ := by
  have header :
      Table.Header.ofRow (Table.rowOfTexts AccountRecord.layout.columns) =
        .names AccountRecord.layout.columns := by
    rw [Table.Header.ofRow, Table.texts?_rowOfTexts (by decide)]
  rw [TableReader.ofBytes, rows_bytes, ← header]
  rfl

/-- Each row of a written table of accounts becomes an account as it was written. -/
theorem outcomes_bytes
    {accounts : List Account}
    (writable : ∀ account ∈ accounts, account.IsWritable scale) :
    (TableReader.ofBytes (Table.bytes (rows accounts))).outcomes
        (TableFormat.accounts scale) =
      ((sorted accounts).map asWritten).map Except.ok := by
  rw [ofBytes_bytes]
  apply List.ext_getElem
  · simp [TableReader.outcomes]
  · intro index _ within
    have inside : index < (sorted accounts).length := by
      simpa using within
    have member : (sorted accounts)[index] ∈ accounts :=
      (List.mergeSort_perm accounts _).mem_iff.mp (List.getElem_mem inside)
    simp [TableReader.outcomes, readRow_texts (writable _ member)]

/-- A written table of accounts is read without a warning, in the order it has. -/
theorem exists_readAll_bytes
    {size : Nat}
    {accounts : List Account}
    (writable : ∀ account ∈ accounts, account.IsWritable scale)
    (positive : 0 < size) :
    ∃ table,
      (TableReader.ofBytes (Table.bytes (rows accounts))).readAll
          (TableFormat.accounts scale) size = .ok table ∧
        table.warnings = [] ∧
        table.values = (sorted accounts).map asWritten := by
  have named :
      (TableReader.ofBytes (Table.bytes (rows accounts))).header ≠
        .unreadable := by
    rw [ofBytes_bytes]
    exact nofun
  have read := TableReader.readAll_eq (TableFormat.accounts scale) named positive
  rw [outcomes_bytes writable, TableReader.gather_ok] at read
  exact ⟨_, read, rfl, rfl⟩

theorem compare_isLE_total (first second : Account) :
    ((compare first.id second.id).isLE ||
      (compare second.id first.id).isLE) = true := by
  rw [Bool.or_eq_true, Std.LawfulBCmp.isLE_iff_le, Std.LawfulBCmp.isLE_iff_le]
  exact String.le_total first.id second.id

/-- Accounts are written in the order of their identifiers. -/
theorem pairwise_le_sorted (accounts : List Account) :
    (sorted accounts).Pairwise fun first second => first.id ≤ second.id := by
  have sortedBy :
      (sorted accounts).Pairwise fun first second =>
        (compare first.id second.id).isLE = true :=
    List.pairwise_mergeSort (fun _ _ _ => Std.TransCmp.isLE_trans)
      compare_isLE_total accounts
  exact sortedBy.imp Std.LawfulBCmp.isLE_iff_le.mp

/-- Accounts with identifiers of their own are written in ascending order. -/
theorem pairwise_sorted
    {accounts : List Account}
    (distinct : (accounts.map (·.id)).Nodup) :
    (sorted accounts).Pairwise fun first second => first.id < second.id := by
  have sameIds := (List.mergeSort_perm accounts fun first second =>
    (compare first.id second.id).isLE).map (·.id)
  have apart := List.pairwise_map.mp (sameIds.nodup_iff.mpr distinct)
  exact ((pairwise_le_sorted accounts).and apart).imp fun related =>
    Std.lt_of_le_of_ne related.1 related.2

/-- The account with its amounts as they are once they were written. -/
def settled (account : Account) : Account :=
  { account with
    amount := account.amount.settled
    remaining := account.remaining.settled }

/-- Of an account without a fraction of a second only its amounts are rewritten. -/
theorem asWritten_of_isWhole
    (whole : account.createdAt.IsWhole) :
    account.asWritten = account.settled := by
  rw [asWritten, settled, Timestamp.cut_of_isWhole whole]

end Account

/--
Accounts with identifiers of their own, written to a table and read in batches of
any size, are these accounts in the order of their identifiers; no row is skipped.
-/
theorem accounts_read_as_written
    {scale size : Nat}
    {accounts : List Account}
    (distinct : (accounts.map (·.id)).Nodup)
    (writable : ∀ account ∈ accounts, account.IsWritable scale)
    (whole : ∀ account ∈ accounts, account.createdAt.IsWhole)
    (positive : 0 < size) :
    ∃ bytes table,
      Account.writeTable accounts .unbounded = (.ok (), ⟨none, bytes⟩) ∧
        (TableReader.ofBytes bytes).readAll (TableFormat.accounts scale) size =
          .ok table ∧
        table.warnings = [] ∧
        table.values.Perm (accounts.map Account.settled) ∧
        table.values.Pairwise fun first second => first.id < second.id := by
  obtain ⟨table, read, warnings, values⟩ :=
    Account.exists_readAll_bytes writable positive
  have sorted : table.values = (Account.sorted accounts).map Account.settled := by
    rw [values]
    apply List.map_congr_left
    intro account member
    have among := (List.mergeSort_perm accounts _).mem_iff.mp member
    exact Account.asWritten_of_isWhole (whole account among)
  refine ⟨_, table, Table.write_unbounded _, read, warnings, ?_, ?_⟩
  · rw [sorted]
    exact (List.mergeSort_perm accounts _).map Account.settled
  · rw [sorted, List.pairwise_map]
    exact Account.pairwise_sorted distinct

/-- An account with texts that have to be quoted, partly paid in the year 9999. -/
def Account.toBeQuoted : Account where
  id := "b;1"
  user := "Müller, \"Ann\""
  feeFineType := "lost\r\nor\nnot"
  amount := .ofMinorUnits 1250 2
  remaining := .ofMinorUnits 5 2
  paymentStatus := ","
  status := .opened
  createdAt := ⟨253402300799, 1000000000⟩

/-- An account without an identifier that was paid before 1970. -/
def Account.unnamed : Account :=
  { toBeQuoted with
    id := ""
    remaining := .zero 2
    status := .closed
    createdAt := ⟨-62167219200, 0⟩ }

/-- Two accounts at the ends of what can be written, read one by one. -/
theorem accounts_read_as_written_toBeQuoted :
    let accounts := [Account.toBeQuoted, Account.unnamed]
    (accounts.map (·.id)).Nodup ∧
      (∀ account ∈ accounts, account.IsWritable 2) ∧
      (∀ account ∈ accounts, account.createdAt.IsWhole) ∧
      ∃ bytes table,
        Account.writeTable accounts .unbounded = (.ok (), ⟨none, bytes⟩) ∧
          (TableReader.ofBytes bytes).readAll (TableFormat.accounts 2) 1 =
            .ok table ∧
          table.warnings = [] ∧
          table.values.Perm (accounts.map Account.settled) ∧
          table.values.Pairwise fun first second => first.id < second.id := by
  intro accounts
  have distinct : (accounts.map (·.id)).Nodup := by
    decide
  have writable : ∀ account ∈ accounts, account.IsWritable 2 := by
    simp only [accounts, List.forall_mem_cons, List.not_mem_nil]
    refine ⟨?_, ?_, nofun⟩
    · refine ⟨⟨?_, ?_, ?_, ?_, ?_⟩, rfl, rfl, ?_, ?_, .inr ?_⟩ <;>
        decide +kernel
    · refine ⟨⟨?_, ?_, ?_, ?_, ?_⟩, rfl, rfl, ?_, ?_, .inl ?_⟩ <;>
        decide +kernel
  have whole : ∀ account ∈ accounts, account.createdAt.IsWhole := by
    simp only [accounts, List.forall_mem_cons, List.not_mem_nil]
    exact ⟨rfl, rfl, nofun⟩
  exact ⟨distinct, writable, whole,
    accounts_read_as_written distinct writable whole (by decide)⟩

end PatronFees
