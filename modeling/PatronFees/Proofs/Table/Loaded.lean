import PatronFees.Proofs.Run.AnyTurns
import PatronFees.Proofs.Table.Accounts
import PatronFees.Proofs.Timestamp.OnClock

namespace PatronFees

/-!
# Accounts that were loaded

The cells of a row have no blanks around them, so an account that was read from a
table is legible. It was created at a time on the clock, and its balance is right.
-/

/-- Each text of a readable row has no blanks around it. -/
theorem Table.Row.trimmed_of_texts?
    {row : Table.Row}
    {texts : List String}
    (readable : row.texts? = some texts) :
    ∀ text ∈ texts, Text.trimmed text = text := by
  induction row generalizing texts with
  | nil =>
      obtain rfl := Option.some.inj readable
      exact fun _ nowhere => (List.not_mem_nil nowhere).elim
  | cons field rest inductionHypothesis =>
      simp only [Row.texts?, List.mapM_cons, Option.bind_eq_bind,
        Option.bind_eq_some_iff] at readable
      obtain ⟨first, isText, others, restReadable, same⟩ := readable
      obtain rfl := Option.some.inj same
      intro text member
      rcases List.mem_cons.mp member with rfl | behind
      · obtain ⟨raw, -, rfl⟩ := Option.map_eq_some_iff.mp isText
        exact Text.trimmed_trimmed raw
      · exact inductionHypothesis restReadable text behind

namespace Table

/-- Cells in which no text has blanks around it. -/
def Cells.AreTrimmed (cells : Cells) : Prop :=
  ∀ cell ∈ cells, Text.trimmed cell.2 = cell.2

theorem Layout.areTrimmed_of_cells?
    {layout : Layout}
    {header : Header}
    {row : Row}
    {cells : Cells}
    (readable : layout.cells? header row = some cells) :
    cells.AreTrimmed := by
  have zipped
      {names texts : List String}
      (isText : row.texts? = some texts) :
      Cells.AreTrimmed (names.zip texts) :=
    fun cell member => Row.trimmed_of_texts? isText cell.2 (List.of_mem_zip member).2
  rw [Layout.cells?.eq_def] at readable
  split at readable
  next =>
    cases readable
  next texts isText =>
    split at readable
    next =>
      obtain rfl := Option.some.inj readable
      exact zipped isText
    next =>
      cases readable
  next texts isText =>
    split at readable
    next =>
      obtain rfl := Option.some.inj readable
      exact zipped isText
    next =>
      cases readable

/-- The text of a cell has no blanks around it. -/
theorem Cells.AreTrimmed.text
    {cells : Cells}
    (trimmed : cells.AreTrimmed)
    (column : String) :
    Text.trimmed (cells.text column) = cells.text column := by
  rw [Cells.text]
  cases found : cells.lookup column with
  | none =>
      decide
  | some text =>
      obtain ⟨before, behind, rfl, -⟩ := List.lookup_eq_some_iff.mp found
      exact trimmed (column, text) (List.mem_append_cons_self)

end Table

/-- What is known of an account that was loaded from a table at a scale. -/
structure Account.IsLoaded
    (scale : Nat)
    (account : Account) : Prop where
  legible : account.IsLegible
  onClock : account.createdAt.IsOnClock
  accepted : account.IsAccepted (min scale Money.maxScale)

namespace AccountRecord

variable {record : AccountRecord} {scale : Nat} {account : Account}

/-- The fields of an account that are texts are those of its record. -/
theorem texts_of_readFields
    (read : record.readFields scale = .ok account) :
    account.id = record.id ∧
      account.user = record.user ∧
      account.feeFineType = record.feeFineType ∧
      account.paymentStatus =
        (record.paymentStatus.bind Text.nonBlank).getD Account.outstanding ∧
      record.readCreatedAt = .ok account.createdAt := by
  obtain ⟨amount, -, read⟩ := Outcome.bind_eq_ok_iff.mp read
  obtain ⟨createdAt, timestamp, read⟩ := Outcome.bind_eq_ok_iff.mp read
  obtain ⟨remaining, -, read⟩ := Outcome.bind_eq_ok_iff.mp read
  obtain ⟨status, -, read⟩ := Outcome.bind_eq_ok_iff.mp read
  obtain rfl := Except.ok.inj read
  exact ⟨rfl, rfl, rfl, rfl, timestamp⟩

/-- An account was created at a time on the clock. -/
theorem isOnClock_of_readCreatedAt
    {timestamp : Timestamp}
    (read : record.readCreatedAt = .ok timestamp) :
    timestamp.IsOnClock := by
  rw [readCreatedAt] at read
  split at read
  next =>
    obtain rfl := Except.ok.inj read
    exact .inl (by decide)
  next =>
    split at read
    next readText =>
      obtain rfl := Except.ok.inj read
      exact Timestamp.isOnClock_of_read readText
    next =>
      cases read

/-- An account has a payment status that is legible. -/
theorem legible_paymentStatus (given : Option String) :
    let label := (given.bind Text.nonBlank).getD Account.outstanding
    Text.trimmed label = label ∧ label ≠ "" := by
  intro label
  cases named : given.bind Text.nonBlank with
  | none =>
      simp only [label, named, Option.getD_none]
      decide
  | some text =>
      obtain ⟨raw, -, left⟩ := Option.bind_eq_some_iff.mp named
      simp only [label, named, Option.getD_some]
      exact Text.legible_of_nonBlank left

/-- A record in cells without blanks around them is loaded. -/
theorem isLoaded_of_toAccount
    {cells : Table.Cells}
    (trimmed : cells.AreTrimmed)
    (accepted : (ofCells cells).toAccount scale = .ok account) :
    account.IsLoaded scale := by
  obtain ⟨fields, read, checked⟩ := Outcome.bind_eq_ok_iff.mp accepted
  have same : fields = account := by
    rw [Account.checkBalance] at checked
    split at checked
    next =>
      cases checked
    next =>
      split at checked
      next =>
        cases checked
      next =>
        exact Except.ok.inj checked
  subst same
  obtain ⟨id, user, feeFineType, paymentStatus, createdAt⟩ :=
    texts_of_readFields read
  obtain ⟨label, labelled⟩ := legible_paymentStatus (ofCells cells).paymentStatus
  have legible : fields.IsLegible :=
    { id := by rw [id]; exact trimmed.text "id"
      user := by rw [user]; exact trimmed.text "user_id"
      feeFineType := by rw [feeFineType]; exact trimmed.text "fee_fine_type"
      paymentStatus := by rwa [paymentStatus]
      labelled := by rwa [paymentStatus] }
  exact ⟨legible, isOnClock_of_readCreatedAt createdAt,
    isAccepted_of_toAccount accepted⟩

end AccountRecord

/-- The accounts of a table were loaded from it. -/
theorem TableReader.isLoaded_of_mem_values
    {reader : TableReader}
    {scale : Nat}
    {account : Account}
    (member : account ∈ reader.values (TableFormat.accounts scale)) :
    account.IsLoaded scale := by
  obtain ⟨⟨row, index⟩, -, read⟩ := List.mem_map.mp (mem_of_mem_gather member)
  change readRow _ _ _ row = _ at read
  rw [readRow] at read
  split at read
  next =>
    cases read
  next cells readable =>
    split at read
    next converted =>
      obtain rfl := Except.ok.inj read
      exact AccountRecord.isLoaded_of_toAccount
        (Table.Layout.areTrimmed_of_cells? readable) converted
    next =>
      cases read

end PatronFees
