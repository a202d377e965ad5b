import PatronFees.Proofs.Run.InFileOrder
import PatronFees.Proofs.Table.ReadBack

namespace PatronFees

/-!
# What runs write

Where nothing overflows and refunds are measured alike, all runs on the same two
tables write one and the same table of accounts: the accounts that the actions come
to, one after another. Another run reads them back, if they can be written.
-/

/-- The files of a run have these bytes. -/
structure Workplace.Holds
    (workplace : Workplace)
    (paths : RunPaths)
    (accounts actions : List UInt8) : Prop where
  accounts : workplace.contents paths.accounts = .ok accounts
  actions : workplace.contents paths.actions = .ok actions

/-- A workplace whose tables have these bytes. -/
def Workplace.holding (accounts actions : List UInt8) : Workplace where
  contents path :=
    if path = "accounts.csv" then
      .ok accounts
    else if path = "actions.csv" then
      .ok actions
    else
      .error noSuchFile
  creationRefusal _ := none

/-- Accounts are read at a scale as at the greatest one below it. -/
theorem AccountRecord.toAccount_min
    (record : AccountRecord)
    (scale : Nat) :
    record.toAccount (min scale Money.maxScale) = record.toAccount scale := by
  have read (entered : String) :
      Money.read entered (min scale Money.maxScale) = Money.read entered scale := by
    simp only [Money.read, Money.ofDecimal, Money.roundedBy, Nat.min_assoc,
      Nat.min_self]
  simp only [toAccount, readFields, readRemaining, read]

theorem TableFormat.accounts_min (scale : Nat) :
    TableFormat.accounts (min scale Money.maxScale) = TableFormat.accounts scale := by
  simp only [TableFormat.accounts, AccountRecord.toAccount_min]

/-- The accounts of a book owe no more than their amounts, and nothing once closed. -/
def AccountBook.IsBalanced (book : AccountBook) : Prop :=
  ∀ account ∈ book.accounts, account.checkBalance = .ok account

/-- How an account that was loaded stands, it is balanced. -/
theorem Standing.balanced
    {scale : Nat}
    {loaded now : Account}
    {history : List Posting}
    (standing : Standing scale loaded now history)
    (accepted : loaded.IsAccepted scale) :
    now.checkBalance = .ok now := by
  have amountScale : now.amount.scale = now.remaining.scale := by
    rw [standing.sameDebt.amount, accepted.amount_scale, standing.scale_eq]
  have within : now.owesWithinAmount = true := by
    rw [Account.owesWithinAmount_iff amountScale, standing.sameDebt.amount]
    exact ⟨standing.nonneg, standing.le.trans accepted.le⟩
  have settled : now.isClosed = true → now.remaining.isZero = true := by
    intro isClosed
    have closed : now.status = .closed := beq_iff_eq.mp isClosed
    rw [now.remaining.isZero_iff]
    by_cases untouched : history = []
    · have same := standing.untouched untouched
      subst same
      exact accepted.settled closed
    · exact (standing.closed_iff untouched).mp closed
  rw [Account.checkBalance, within]
  cases isClosed : now.isClosed with
  | false => rfl
  | true => simp [settled isClosed]

namespace Run

open Engine Batch

variable {settings : Settings} {paths : RunPaths} {workplace : Workplace}
  {first : Stamp} {size : Nat} {table actions written : List UInt8} {last : Books}

/-- A run whose actions were carried out writes its accounts. -/
theorem accounts_reportOf
    (loaded : AccountBook)
    (processed : List Processed)
    (after : Office) :
    (reportOf paths workplace .unbounded loaded (.ok processed) after).accounts =
      Table.bytes (Account.rows after.accounts.accounts) := by
  simp only [reportOf, deliver, Account.writeTable, Table.write_unbounded]
  cases paths.ledger <;> rfl

/--
Some run on these tables writes these accounts: in any workplace, with batches of
any size and lanes in any turns.
-/
inductive MayWrite
    (settings : Settings)
    (table actions : List UInt8) :
    List UInt8 → Prop where
  | ran
      {paths : RunPaths}
      {workplace : Workplace}
      {first : Stamp}
      {size : Nat}
      {report : RunReport}
      (holds : workplace.Holds paths table actions)
      (positive : 0 < size)
      (reports :
        MayReport (settings.sized size) paths workplace first .unbounded report) :
      MayWrite settings table actions report.accounts

/-- The accounts of a table of accounts, those left out that are skipped. -/
abbrev accountsOf
    (settings : Settings)
    (table : List UInt8) : List Account :=
  (TableReader.ofBytes table).values
    (TableFormat.accounts settings.currency.fractionDigits)

/-- The requests of a table of actions, those left out that are skipped. -/
abbrev requestsOf (actions : List UInt8) : List ActionRequest :=
  (TableReader.ofBytes actions).values TableFormat.actions

/-- The books that a run opens on a table of accounts. -/
abbrev booksOf
    (settings : Settings)
    (table : List UInt8) : Books :=
  ⟨.ofList (accountsOf settings table), []⟩

/-- The accounts that a run opens with were loaded. -/
theorem isLoaded_of_mem_booksOf
    {account : Account}
    (member : account ∈ (booksOf settings table).accounts.accounts) :
    account.IsLoaded settings.currency.fractionDigits := by
  rcases AccountBook.mem_saveAll member with listed | nowhere
  · exact TableReader.isLoaded_of_mem_values listed
  · cases nowhere

/--
The actions of a table come to these books, one after another, and refunds are
measured alike in whatever order the histories of their accounts stand together.
-/
structure ComesTo
    (settings : Settings)
    (table actions : List UInt8)
    (last : Books) : Prop where
  named : (TableReader.ofBytes table).header ≠ .unreadable
  namedActions : (TableReader.ofBytes actions).header ≠ .unreadable
  few : 4 * ((requestsOf actions).flatMap (·.accounts)).length ≤ twoTo 128
  tells :
    ∃ tolds,
      (Engine.new settings.currency.fractionDigits).tellAll
          (booksOf settings table) (requestsOf actions) =
        .ok (tolds, last)
  alike :
    (Engine.new settings.currency.fractionDigits).MeasuresAllAlike
      (booksOf settings table) (requestsOf actions)

theorem readsTables_of_holds
    (holds : workplace.Holds paths table actions)
    (named : (TableReader.ofBytes table).header ≠ .unreadable)
    (namedActions : (TableReader.ofBytes actions).header ≠ .unreadable) :
    ReadsTables settings paths workplace (accountsOf settings table)
      (requestsOf actions) where
  accounts := ⟨_, by rw [openTable, holds.accounts], named, rfl⟩
  actions := ⟨_, by rw [openTable, holds.actions], namedActions, rfl⟩

/-- A run on tables whose headers are text is one of those that may write. -/
theorem mayWrite_run
    (holds : workplace.Holds paths table actions)
    (named : (TableReader.ofBytes table).header ≠ .unreadable)
    (namedActions : (TableReader.ofBytes actions).header ≠ .unreadable)
    (positive : 0 < size)
    (first : Stamp) :
    MayWrite settings table actions
      (run (settings.sized size) paths workplace first .unbounded).accounts := by
  have reads :
      ReadsTables settings paths workplace (accountsOf settings table)
        (requestsOf actions) :=
    readsTables_of_holds holds named namedActions
  obtain ⟨accounts, loads, -⟩ := reads.exists_accountTable positive
  obtain ⟨reader, opened, -⟩ := reads.actions
  exact .ran holds positive (mayReport_run loads opened)

/-- Where no action halts, actions come to some books. -/
theorem exists_comesTo
    (named : (TableReader.ofBytes table).header ≠ .unreadable)
    (namedActions : (TableReader.ofBytes actions).header ≠ .unreadable)
    (few : 4 * ((requestsOf actions).flatMap (·.accounts)).length ≤ twoTo 128)
    (ends :
      ((openedWith (accountsOf settings table) first).run
          (processLane (Engine.new settings.currency.fractionDigits)
            (requestsOf actions))).1.isOk = true)
    (alike :
      (Engine.new settings.currency.fractionDigits).MeasuresAllAlike
        (openedWith (accountsOf settings table) first).books (requestsOf actions)) :
    ∃ last, ComesTo settings table actions last := by
  cases ended :
      ((openedWith (accountsOf settings table) first).run
        (processLane (Engine.new settings.currency.fractionDigits)
          (requestsOf actions))).1 with
  | error halt =>
      rw [ended] at ends
      cases ends
  | ok results =>
      have recorded : (openedWith (accountsOf settings table) first).ledger.IsRecorded :=
        Ledger.isRecorded_ofEntries []
      have fresh :=
        (openedWith (accountsOf settings table) first).drawsFresh_of_empty rfl few
      obtain ⟨last, tells, -⟩ :=
        leadsOn_run recorded (by rwa [Nat.add_zero]) ended
      rw [books_openedWith] at tells alike
      exact ⟨last, named, namedActions, few, ⟨_, tells⟩, alike⟩

namespace ComesTo

variable (comesTo : ComesTo settings table actions last)

include comesTo

theorem ordered : last.accounts.IsOrdered := by
  obtain ⟨tolds, tells⟩ := comesTo.tells
  exact isOrdered_of_tellAll (AccountBook.isOrdered_ofList _) tells

/-- Applied one after another, the actions end with these accounts. -/
theorem ends (first : Stamp) :
    let ended :=
      (openedWith (accountsOf settings table) first).run
        (processLane (Engine.new settings.currency.fractionDigits)
          (requestsOf actions))
    ∃ results, ended.1 = .ok results ∧ ended.2.accounts = last.accounts := by
  intro ended
  obtain ⟨tolds, tells⟩ := comesTo.tells
  let office := openedWith (accountsOf settings table) first
  have recorded : office.ledger.IsRecorded := Ledger.isRecorded_ofEntries []
  have fresh := office.drawsFresh_of_empty rfl comesTo.few
  rw [booksOf, ← books_openedWith _ first] at tells
  obtain ⟨results, inOrder, -⟩ := exists_results_of_told recorded fresh tells
  obtain ⟨_, alsoTells, leads⟩ :=
    leadsOn_run recorded (by rwa [Nat.add_zero]) inOrder
  obtain ⟨-, rfl⟩ := Prod.mk.inj (Except.ok.inj (alsoTells.symm.trans tells))
  have start : office.accounts.IsOrdered :=
    AccountBook.isOrdered_ofList (accountsOf settings table)
  have ordered : ended.2.accounts.IsOrdered :=
    Procedure.run_keeps Office.isOrdered_answer
      (ExceptT.run
        (processLane (Engine.new settings.currency.fractionDigits)
          (requestsOf actions))) start
  exact ⟨results, inOrder,
    ordered.eq_of_find?_eq comesTo.ordered leads.books.account_eq⟩

/-- The table of the accounts shows them in the order that they have. -/
theorem rows_eq :
    Account.rows last.accounts.accounts =
      (AccountRecord.layout.columns :: last.accounts.accounts.map (·.texts)).map
        Table.rowOfTexts := by
  rw [Account.rows, comesTo.ordered.sorted_eq, List.map_cons, List.map_map]
  rfl

/-- Balanced accounts from years that are read can be written. -/
theorem isWritable
    (balanced : last.accounts.IsBalanced)
    (inYears :
      ∀ account ∈ (booksOf settings table).accounts.accounts,
        0 ≤ account.createdAt.year ∧ account.createdAt.year ≤ 9999) :
    ∀ account ∈ last.accounts.accounts,
      account.IsWritable (min settings.currency.fractionDigits Money.maxScale) := by
  obtain ⟨tolds, tells⟩ := comesTo.tells
  have atScale := isAtScale_of_tellAll
    (fun _ member => (isLoaded_of_mem_booksOf member).accepted.remaining_scale) tells
  intro now member
  obtain ⟨before, inBook, comesFrom⟩ := comesFrom_of_tellAll tells now member
  have isLoaded := isLoaded_of_mem_booksOf inBook
  exact
    { legible := comesFrom.legible isLoaded.legible
      amountScale := by
        rw [comesFrom.sameDebt.amount]
        exact isLoaded.accepted.amount_scale
      remainingScale := atScale now member
      balanced := balanced now member
      inYears := by
        rw [comesFrom.sameDebt.createdAt]
        exact inYears before inBook
      onClock := by
        rw [comesFrom.sameDebt.createdAt]
        exact isLoaded.onClock }

end ComesTo

/-- A run may only write the accounts that its actions come to. -/
theorem MayWrite.eq_bytes
    (writes : MayWrite settings table actions written)
    (comesTo : ComesTo settings table actions last) :
    written = Table.bytes (Account.rows last.accounts.accounts) := by
  cases writes with
  | @ran paths workplace first size report holds positive reports =>
      let office := openedWith (accountsOf settings table) first
      obtain ⟨results, inOrder, same⟩ := comesTo.ends first
      have alike := comesTo.alike
      rw [booksOf, ← books_openedWith _ first] at alike
      have agrees :=
        reports.agrees positive
          (readsTables_of_holds holds comesTo.named comesTo.namedActions)
          comesTo.few inOrder alike
      rw [agrees.accounts, ← same]
      change (reportOf _ _ _ _ (office.run _).1 (office.run _).2).accounts = _
      rw [inOrder]
      exact accounts_reportOf _ results _

/-- The header of what a run may write is text. -/
theorem MayWrite.named
    (writes : MayWrite settings table actions written)
    (comesTo : ComesTo settings table actions last) :
    (TableReader.ofBytes written).header ≠ .unreadable := by
  rw [writes.eq_bytes comesTo, Account.ofBytes_bytes]
  exact nofun

/-- A table of accounts that can be written is read back. -/
theorem accountsOf_bytes
    {book : AccountBook}
    (writable :
      ∀ account ∈ book.accounts,
        account.IsWritable (min settings.currency.fractionDigits Money.maxScale)) :
    accountsOf settings (Table.bytes (Account.rows book.accounts)) =
      book.readBack := by
  rw [accountsOf, ← TableFormat.accounts_min, TableReader.values,
    Account.outcomes_bytes writable, TableReader.gather_ok]
  rfl

section InRange

/-- Accounts that owe little enough together are in range. -/
theorem isInRange_accountsOf
    (owed :
      ((accountsOf settings table).map (·.remaining.minorUnits)).sum < twoTo 95) :
    (AccountBook.ofList (accountsOf settings table)).IsInRange
      (Engine.new settings.currency.fractionDigits).scale :=
  AccountBook.isInRange_of_owed
    (fun _ member => (TableReader.isLoaded_of_mem_values member).accepted) owed

/-- On accounts that owe little enough together, actions come to some books. -/
theorem exists_comesTo_in_range
    (named : (TableReader.ofBytes table).header ≠ .unreadable)
    (namedActions : (TableReader.ofBytes actions).header ≠ .unreadable)
    (few : 4 * ((requestsOf actions).flatMap (·.accounts)).length ≤ twoTo 128)
    (owed :
      ((accountsOf settings table).map (·.remaining.minorUnits)).sum < twoTo 95) :
    ∃ last, ComesTo settings table actions last := by
  obtain ⟨⟨results, inOrder⟩, alike⟩ :=
    inOrder_in_range (isInRange_accountsOf owed) few ⟨EntryId.ofNat 1, .epoch⟩
  exact exists_comesTo named namedActions few (congrArg Except.isOk inOrder) alike

/-- Accounts that owe little enough together are balanced after the actions. -/
theorem ComesTo.isBalanced
    (comesTo : ComesTo settings table actions last)
    (owed :
      ((accountsOf settings table).map (·.remaining.minorUnits)).sum < twoTo 95) :
    last.accounts.IsBalanced := by
  let first : Stamp := ⟨EntryId.ofNat 1, .epoch⟩
  have inRange := isInRange_accountsOf owed
  have reachable :
      (openedWith (accountsOf settings table) first).IsReachable
        (Engine.new settings.currency.fractionDigits).scale
        (openedWith (accountsOf settings table) first).accounts :=
    .start inRange rfl
  obtain ⟨_, after, ran, -, entries, reached⟩ :=
    exists_processLane reachable inRange (requestsOf actions)
  obtain ⟨_, -, same⟩ := comesTo.ends first
  rw [ran] at same
  change after.accounts = last.accounts at same
  intro now member
  have stands := reached.stands now.id
  rw [same, comesTo.ordered.find?_eq_some_iff.mpr member] at stands
  cases found : (openedWith (accountsOf settings table) first).accounts.find? now.id with
  | none =>
      rw [found] at stands
      exact stands.elim
  | some loaded =>
      rw [found] at stands
      exact Standing.balanced stands
        (isLoaded_of_mem_booksOf (AccountBook.mem_of_find? found)).accepted

end InRange

/-- Settings for dollars, with batches of ten. -/
def inDollars : Settings :=
  ⟨⟨"USD", 2⟩, ⟨"info", false⟩, ⟨10, none⟩⟩

/-- The accounts that a run in dollars writes. -/
def writtenBy (accounts actions : List UInt8) : List UInt8 :=
  (run inDollars ⟨"accounts.csv", "actions.csv", none⟩ (.holding accounts actions)
    ⟨EntryId.ofNat 1, .epoch⟩ .unbounded).accounts

theorem mayWrite_writtenBy
    {accounts actions : List UInt8}
    (named : (TableReader.ofBytes accounts).header ≠ .unreadable)
    (namedActions : (TableReader.ofBytes actions).header ≠ .unreadable) :
    MayWrite inDollars accounts actions (writtenBy accounts actions) := by
  have holds :
      (Workplace.holding accounts actions).Holds
        ⟨"accounts.csv", "actions.csv", none⟩ accounts actions :=
    ⟨rfl, rfl⟩
  have positive : 0 < 10 := by decide
  exact mayWrite_run holds named namedActions positive ⟨EntryId.ofNat 1, .epoch⟩

end Run

end PatronFees
