import PatronFees.Proofs.Engine.SameSet
import PatronFees.Proofs.Run.Written

namespace PatronFees

/-!
# Runs that are resumed

The accounts that a run writes can be loaded by another run, which goes on where the
first one ended: on actions without refunds the two come to what one run comes to on
all the actions. What a table does not show gets lost on the way. An account is only
read back if it was created in the years 0 to 9999, and those created within one
second are served by their identifiers from then on.
-/

namespace TableReader

variable {Value : Type}

/-- What a row becomes under a header, unless it is skipped. -/
def rowValue?
    (format : TableFormat Value)
    (header : Table.Header)
    (row : Table.Row) :
    Option Value :=
  (format.layout.cells? header row).bind fun cells =>
    (format.convert cells).toOption

/-- The values of a table are those of its rows, wherever these stand. -/
theorem values_eq_filterMap
    (format : TableFormat Value)
    (reader : TableReader) :
    reader.values format = reader.rows.filterMap (rowValue? format reader.header) := by
  rw [values, outcomes]
  generalize 0 = start
  induction reader.rows generalizing start with
  | nil =>
      rfl
  | cons row rest inductionHypothesis =>
      rw [List.zipIdx_cons, List.map_cons, List.filterMap_cons]
      simp only [readRow, rowValue?]
      cases format.layout.cells? reader.header row with
      | none =>
          exact inductionHypothesis (start + 1)
      | some cells =>
          cases converted : format.convert cells with
          | error failure =>
              simp only [converted, Option.bind_some]
              exact inductionHypothesis (start + 1)
          | ok value =>
              simp only [converted, Option.bind_some]
              exact congrArg (value :: ·) (inductionHypothesis (start + 1))

end TableReader

/-- The rows of a table are divided into two tables that have its header. -/
def Table.IsCutInto (whole first second : List UInt8) : Prop :=
  ∃ header earlier later,
    Table.rows whole = header :: (earlier ++ later) ∧
      Table.rows first = header :: earlier ∧
      Table.rows second = header :: later

namespace Table.IsCutInto

variable {whole first second : List UInt8}

/-- Both parts have the header of the whole table. -/
theorem header_eq
    (cut : IsCutInto whole first second) :
    (TableReader.ofBytes first).header = (TableReader.ofBytes whole).header ∧
      (TableReader.ofBytes second).header = (TableReader.ofBytes whole).header := by
  obtain ⟨header, earlier, later, rows, firstRows, secondRows⟩ := cut
  simp only [TableReader.ofBytes, rows, firstRows, secondRows, and_self]

/-- The values of the parts are those of the whole table. -/
theorem values_eq_append
    {Value : Type}
    (cut : IsCutInto whole first second)
    (format : TableFormat Value) :
    (TableReader.ofBytes whole).values format =
      (TableReader.ofBytes first).values format ++
        (TableReader.ofBytes second).values format := by
  obtain ⟨header, earlier, later, rows, firstRows, secondRows⟩ := cut
  simp only [TableReader.values_eq_filterMap, TableReader.ofBytes, rows, firstRows,
    secondRows, List.filterMap_append]

end Table.IsCutInto

namespace Run

open Engine Batch

variable {settings : Settings} {table actions earlier later written : List UInt8}
  {last : Books}

/--
A run that loads what the first part of the actions comes to, and applies the others,
comes to accounts that are shown as those that all the actions come to.
-/
theorem ComesTo.resumed
    (comesTo : ComesTo settings table actions last)
    (inYears :
      ∀ account ∈ (booksOf settings table).accounts.accounts,
        0 ≤ account.createdAt.year ∧ account.createdAt.year ≤ 9999)
    (kept : (booksOf settings table).accounts.KeepsOrder)
    (cut : Table.IsCutInto actions earlier later)
    (noRefund : ∀ request ∈ requestsOf later, request.kind ≠ .refund)
    (balanced :
      ∀ middle, ComesTo settings table earlier middle → middle.accounts.IsBalanced) :
    ∃ middle after,
      ComesTo settings table earlier middle ∧
        ComesTo settings (Table.bytes (Account.rows middle.accounts.accounts)) later
          after ∧
        Account.rows after.accounts.accounts =
          Account.rows last.accounts.accounts := by
  obtain ⟨earlierHeader, laterHeader⟩ := cut.header_eq
  have requests : requestsOf actions = requestsOf earlier ++ requestsOf later :=
    cut.values_eq_append TableFormat.actions
  have lastOrdered := comesTo.ordered
  obtain ⟨named, namedActions, few, ⟨tolds, tells⟩, alike⟩ := comesTo
  rw [requests, List.flatMap_append, List.length_append] at few
  rw [requests] at tells alike
  -- Half way through, one run has the accounts that the other one loads.
  obtain ⟨earlierTolds, laterTolds, middle, earlierTells, laterTells, -⟩ :=
    tellAll_append tells
  have earlierComesTo : ComesTo settings table earlier middle :=
    { named := named
      namedActions := earlierHeader ▸ namedActions
      few := by omega
      tells := ⟨_, earlierTells⟩
      alike := alike.append.1 }
  have readBack :
      accountsOf settings (Table.bytes (Account.rows middle.accounts.accounts)) =
        middle.accounts.readBack :=
    accountsOf_bytes
      (earlierComesTo.isWritable (balanced middle earlierComesTo) inYears)
  have keptHere : middle.accounts.KeepsOrder :=
    kept.of_comesFrom (comesFrom_of_tellAll earlierTells)
  have keptBetween :
      (Books.mk (.ofList middle.accounts.readBack) []).accounts.KeepsOrder :=
    middle.accounts.keepsOrder_readBack
  obtain ⟨_, after, othersTell, alikeAfter⟩ :=
    tellAll_isWrittenAs earlierComesTo.ordered.isWrittenAs_readBack keptHere
      keptBetween noRefund laterTells
  have laterComesTo :
      ComesTo settings (Table.bytes (Account.rows middle.accounts.accounts)) later
        after :=
    { named := by
        rw [Account.ofBytes_bytes]
        exact nofun
      namedActions := laterHeader ▸ namedActions
      few := by omega
      tells := ⟨_, by rw [booksOf, readBack]; exact othersTell⟩
      alike := measuresAllAlike_of_noRefund noRefund }
  exact ⟨middle, after, earlierComesTo, laterComesTo,
    (alikeAfter.rows_eq lastOrdered laterComesTo.ordered).symm⟩

/-- Resumed, a run writes the accounts that one run on all the actions writes. -/
theorem ComesTo.eq_of_resumed
    {between ended : List UInt8}
    (comesTo : ComesTo settings table actions last)
    (inYears :
      ∀ account ∈ (booksOf settings table).accounts.accounts,
        0 ≤ account.createdAt.year ∧ account.createdAt.year ≤ 9999)
    (kept : (booksOf settings table).accounts.KeepsOrder)
    (cut : Table.IsCutInto actions earlier later)
    (noRefund : ∀ request ∈ requestsOf later, request.kind ≠ .refund)
    (balanced :
      ∀ middle, ComesTo settings table earlier middle → middle.accounts.IsBalanced)
    (whole : MayWrite settings table actions written)
    (part : MayWrite settings table earlier between)
    (resumed : MayWrite settings between later ended) :
    ended = written ∧
      written = Table.bytes (Account.rows last.accounts.accounts) := by
  obtain ⟨middle, after, earlierComesTo, laterComesTo, rows⟩ :=
    comesTo.resumed inYears kept cut noRefund balanced
  have writes := whole.eq_bytes comesTo
  rw [part.eq_bytes earlierComesTo] at resumed
  refine ⟨?_, writes⟩
  rw [resumed.eq_bytes laterComesTo, writes, rows]

/-- On accounts that owe little enough together, nothing is asked of arithmetic. -/
theorem resumed_run_ends_alike_in_range
    {between ended : List UInt8}
    (named : (TableReader.ofBytes table).header ≠ .unreadable)
    (namedActions : (TableReader.ofBytes actions).header ≠ .unreadable)
    (few : 4 * ((requestsOf actions).flatMap (·.accounts)).length ≤ twoTo 128)
    (owed :
      ((accountsOf settings table).map (·.remaining.minorUnits)).sum < twoTo 95)
    (inYears :
      ∀ account ∈ (booksOf settings table).accounts.accounts,
        0 ≤ account.createdAt.year ∧ account.createdAt.year ≤ 9999)
    (kept : (booksOf settings table).accounts.KeepsOrder)
    (cut : Table.IsCutInto actions earlier later)
    (noRefund : ∀ request ∈ requestsOf later, request.kind ≠ .refund)
    (whole : MayWrite settings table actions written)
    (part : MayWrite settings table earlier between)
    (resumed : MayWrite settings between later ended) :
    ended = written := by
  obtain ⟨last, comesTo⟩ := exists_comesTo_in_range named namedActions few owed
  exact (comesTo.eq_of_resumed inYears kept cut noRefund
    (fun _ earlierComesTo => earlierComesTo.isBalanced owed) whole part resumed).1

/--
Where accounts can be read back in the order that they have, a run on a first part
of the actions, and a run on the others that loads what the first one writes, end
with the accounts that a run on all the actions writes.
-/
theorem resumed_run_ends_alike
    {between ended : List UInt8}
    {first : Stamp}
    (named : (TableReader.ofBytes table).header ≠ .unreadable)
    (namedActions : (TableReader.ofBytes actions).header ≠ .unreadable)
    (few : 4 * ((requestsOf actions).flatMap (·.accounts)).length ≤ twoTo 128)
    (inRange :
      ((openedWith (accountsOf settings table) first).run
          (processLane (Engine.new settings.currency.fractionDigits)
            (requestsOf actions))).1.isOk = true)
    (alike :
      (Engine.new settings.currency.fractionDigits).MeasuresAllAlike
        (booksOf settings table) (requestsOf actions))
    (inYears :
      ∀ account ∈ (booksOf settings table).accounts.accounts,
        0 ≤ account.createdAt.year ∧ account.createdAt.year ≤ 9999)
    (kept : (booksOf settings table).accounts.KeepsOrder)
    (cut : Table.IsCutInto actions earlier later)
    (noRefund : ∀ request ∈ requestsOf later, request.kind ≠ .refund)
    (balanced :
      ∀ middle, ComesTo settings table earlier middle → middle.accounts.IsBalanced)
    (whole : MayWrite settings table actions written)
    (part : MayWrite settings table earlier between)
    (resumed : MayWrite settings between later ended) :
    ended = written ∧
      ∃ accounts, written = Table.bytes (Account.rows accounts) := by
  rw [booksOf, ← books_openedWith _ first] at alike
  obtain ⟨last, comesTo⟩ := exists_comesTo named namedActions few inRange alike
  obtain ⟨same, writes⟩ :=
    comesTo.eq_of_resumed inYears kept cut noRefund balanced whole part resumed
  exact ⟨same, _, writes⟩

/-- A refund is in the first part, and a payment that is shared is in the second. -/
theorem resumed_run_ends_alike_lostItems :
    let table :=
      "id,user_id,fee_fine_type,amount,created_at\na,u,Lost item,12.50,2024-01-01T01:00:00.500+01:00\nb,u,Lost item,10.00,2024-01-01T00:00:01.250Z\n".toUTF8.toList
    let actions :=
      "action,accounts,amount\npay,a,5.00\nrefund,a,2.50\npay,b;a,0.01\n".toUTF8.toList
    let earlier :=
      "action,accounts,amount\npay,a,5.00\nrefund,a,2.50\n".toUTF8.toList
    let later := "action,accounts,amount\npay,b;a,0.01\n".toUTF8.toList
    writtenBy (writtenBy table earlier) later = writtenBy table actions ∧
      ∃ accounts, writtenBy table actions = Table.bytes (Account.rows accounts) := by
  intro table actions earlier later
  have loads :
      accountsOf inDollars table =
        [.new "a" "u" "Lost item" (.ofMinorUnits 1250 2) ⟨1704067200, 500000000⟩,
          .new "b" "u" "Lost item" (.ofMinorUnits 1000 2)
            ⟨1704067201, 250000000⟩] := by
    decide +kernel
  have asksEarlier :
      requestsOf earlier =
        [⟨.pay, ["a"], some "5.00", .none⟩,
          ⟨.refund, ["a"], some "2.50", .none⟩] := by
    decide +kernel
  have asksLater :
      requestsOf later = [⟨.pay, ["b", "a"], some "0.01", .none⟩] := by
    decide +kernel
  have cut : Table.IsCutInto actions earlier later :=
    ⟨Table.rowOfTexts ["action", "accounts", "amount"],
      [Table.rowOfTexts ["pay", "a", "5.00"], Table.rowOfTexts ["refund", "a", "2.50"]],
      [Table.rowOfTexts ["pay", "b;a", "0.01"]], by decide +kernel, by decide +kernel,
      by decide +kernel⟩
  have asks :
      requestsOf actions = requestsOf earlier ++ requestsOf later :=
    cut.values_eq_append TableFormat.actions
  have named : (TableReader.ofBytes table).header ≠ .unreadable := by
    decide +kernel
  have namedActions : (TableReader.ofBytes actions).header ≠ .unreadable := by
    decide +kernel
  have namedEarlier : (TableReader.ofBytes earlier).header ≠ .unreadable :=
    cut.header_eq.1 ▸ namedActions
  have namedLater : (TableReader.ofBytes later).header ≠ .unreadable :=
    cut.header_eq.2 ▸ namedActions
  have owed :
      ((accountsOf inDollars table).map (·.remaining.minorUnits)).sum < twoTo 95 := by
    rw [loads]
    decide +kernel
  have few : 4 * ((requestsOf actions).flatMap (·.accounts)).length ≤ twoTo 128 := by
    rw [asks, asksEarlier, asksLater]
    decide +kernel
  have fewEarlier :
      4 * ((requestsOf earlier).flatMap (·.accounts)).length ≤ twoTo 128 := by
    rw [asksEarlier]
    decide +kernel
  obtain ⟨⟨results, ended⟩, alike⟩ :=
    inOrder_in_range (isInRange_accountsOf owed) few ⟨EntryId.ofNat 1, .epoch⟩
  rw [books_openedWith] at alike
  have inYears :
      ∀ account ∈ (booksOf inDollars table).accounts.accounts,
        0 ≤ account.createdAt.year ∧ account.createdAt.year ≤ 9999 := by
    rw [booksOf, loads]
    decide +kernel
  have kept : (booksOf inDollars table).accounts.KeepsOrder := by
    rw [booksOf, loads, AccountBook.KeepsOrder]
    decide +kernel
  have noRefund : ∀ request ∈ requestsOf later, request.kind ≠ .refund := by
    rw [asksLater]
    decide
  obtain ⟨middle, comesTo⟩ :=
    exists_comesTo_in_range named namedEarlier fewEarlier owed
  have part := mayWrite_writtenBy named namedEarlier
  have resumed := mayWrite_writtenBy (part.named comesTo) namedLater
  exact resumed_run_ends_alike named namedActions few (congrArg Except.isOk ended)
    alike inYears kept cut noRefund (fun _ comesTo => comesTo.isBalanced owed)
    (mayWrite_writtenBy named namedActions) part resumed

section Fractions

/-- An account over one dollar that was created at a time. -/
def oneDollar
    (id : AccountId)
    (createdAt : Timestamp) : Account :=
  .new id "u" "Lost item" (.ofMinorUnits 100 2) createdAt

/-- The older one of two accounts that were created within a second. -/
def older : Account :=
  oneDollar "b" ⟨1704067200, 100000000⟩

def younger : Account :=
  oneDollar "a" ⟨1704067200, 900000000⟩

/-- Which account has its turn first: the older one, until they are read back. -/
def inTurn : List (Account × Account) :=
  [(older, younger), (younger.asWritten, older.asWritten)]

/-- The books on two accounts. -/
def booksOn (turn : Account × Account) : Books :=
  ⟨.ofList [turn.1, turn.2], []⟩

/-- A cent for both accounts. -/
def centForBoth : ActionRequest :=
  ⟨.pay, ["b", "a"], some "0.01", .none⟩

/-- Half of a cent, rounded down. -/
def halfCent : Money :=
  .roundedBy .down ⟨50000000000000000000000000, 28, by decide, by decide⟩ 2

/-- The shares of two accounts in turn, of which the first one has this amount. -/
def sharesInTurn
    (amount : Money)
    (turn : Account × Account) : List Share :=
  [⟨.ofRemaining turn.1, amount⟩, ⟨.ofRemaining turn.2, halfCent⟩]

/-- The plan that pays a cent on an account over one dollar. -/
def centPlan (account : Account) : AccountPlan where
  account := account.apply (ActionKind.pay.label false) (.ofMinorUnits 99 2)
  postings :=
    [.ofAction account (ActionKind.pay.label false) (.ofMinorUnits 1 2)
      (.ofMinorUnits 99 2) .none]

variable {turn : Account × Account}

open Allocation in
/-- The account whose turn it is takes the cent. -/
theorem split_cent
    (among : turn ∈ inTurn)
    {targets : List Target}
    (order :
      serviceOrder targets = [.ofRemaining turn.1, .ofRemaining turn.2]) :
    split (.ofMinorUnits 1 2) targets =
      .ok ⟨[(turn.1.id, .ofMinorUnits 1 2)]⟩ := by
  have shared : evenShare (.ofMinorUnits 1 2) 2 = .ok halfCent := by
    decide +kernel
  have offered :
      ∀ turn ∈ inTurn,
        offer halfCent 2 (.ofMinorUnits 1 2)
            [.ofRemaining turn.1, .ofRemaining turn.2] =
          .ok (sharesInTurn halfCent turn, .ofMinorUnits 1 2) := by
    decide +kernel
  have handed :
      ∀ turn ∈ inTurn,
        handOutOnce (Money.smallestUnit 2) (.ofMinorUnits 1 2)
            (sharesInTurn halfCent turn) =
          .ok
            ⟨sharesInTurn (.ofMinorUnits 1 2) turn, .ofMinorUnits 0 2, true⟩ := by
    decide +kernel
  have less :
      ∀ turn ∈ inTurn,
        slack (.ofMinorUnits 0 2) (sharesInTurn (.ofMinorUnits 1 2) turn) <
          slack (.ofMinorUnits 1 2) (sharesInTurn halfCent turn) := by
    decide +kernel
  have summed :
      ∀ turn ∈ inTurn,
        (ofShares (sharesInTurn (.ofMinorUnits 1 2) turn)).total 2 =
          .ok (.ofMinorUnits 1 2) := by
    decide +kernel
  exact split_of_round order nofun shared (offered turn among) (by decide)
    (handed turn among) (less turn among) (by decide) (summed turn among)
    (by decide)

/-- A cent for both accounts is paid on the one whose turn it is. -/
theorem tellAll_centForBoth
    (among : turn ∈ inTurn) :
    (Engine.new 2).tellAll (booksOn turn) [centForBoth] =
      .ok
        ([⟨centForBoth, .ok ([centPlan turn.1].flatMap (·.postings))⟩],
          (booksOn turn).carryingOut [centPlan turn.1]) := by
  let reviewed (turn : Account × Account) : Reviewed :=
    ⟨["b", "a"], (booksOn turn).accounts, [],
      ⟨.ofMinorUnits 1 2, .ofMinorUnits 199 2⟩⟩
  let targets (turn : Account × Account) : List Target :=
    (reviewed turn).targets.map Target.ofRemaining
  have accepted :
      ∀ turn ∈ inTurn,
        (Engine.new 2).reviewOn (booksOn turn) centForBoth.kind
            centForBoth.accounts centForBoth.amount =
          .ok (reviewed turn) := by
    decide +kernel
  have targeted :
      ∀ turn ∈ inTurn,
        (reviewed turn).targets.mapM
            (AccountPlan.target centForBoth.kind (reviewed turn)
              (Engine.new 2).scale) =
          .ok (targets turn) := by
    decide +kernel
  have distinct :
      ∀ turn ∈ inTurn, ((targets turn).map (·.account)).Nodup := by
    decide +kernel
  have same :
      ∀ turn ∈ inTurn,
        (targets turn).Perm [.ofRemaining turn.1, .ofRemaining turn.2] := by
    decide +kernel
  have positive :
      ∀ turn ∈ inTurn,
        ∀ target ∈ [Target.ofRemaining turn.1, .ofRemaining turn.2],
          target.capacity.isPositive = true := by
    decide +kernel
  have inOrder :
      ∀ turn ∈ inTurn,
        [Target.ofRemaining turn.1, .ofRemaining turn.2].Pairwise
          fun first second => first.precedes second = true := by
    decide +kernel
  have order :
      Allocation.serviceOrder (targets turn) =
        [.ofRemaining turn.1, .ofRemaining turn.2] :=
    (Allocation.serviceOrder_eq_of_perm (distinct turn among)
      (same turn among)).trans
      (Allocation.serviceOrder_of_ordered (positive turn among)
        (inOrder turn among))
  have planned :
      ∀ turn ∈ inTurn,
        [(turn.1.id, Money.ofMinorUnits 1 2)].mapM
            (AccountPlan.ofShare centForBoth.kind (reviewed turn)
              centForBoth.options) =
          .ok [centPlan turn.1] := by
    decide +kernel
  have tells :=
    tell_of_split (accepted turn among) (by decide) (targeted turn among)
      (split_cent among order) (planned turn among)
  simp only [tellAll, tells, Outcome.ok_bind, Outcome.pure_eq]

end Fractions

/--
A cent for two accounts that were created within a second is paid on the older one.
Once they are written and read back, it is paid on the other one: their fractions
of a second are lost, so they are served by their identifiers.
-/
theorem resumed_run_ends_otherwise_fractions :
    let table :=
      "id,user_id,fee_fine_type,amount,created_at\na,u,Lost item,1.00,2024-01-01T00:00:00.900Z\nb,u,Lost item,1.00,2024-01-01T00:00:00.100Z\n".toUTF8.toList
    let actions := "action,accounts,amount\npay,b;a,0.01\n".toUTF8.toList
    let earlier := "action,accounts,amount\n".toUTF8.toList
    let office := openedWith (accountsOf inDollars table) ⟨EntryId.ofNat 1, .epoch⟩
    Table.IsCutInto actions earlier actions ∧
      (∀ request ∈ requestsOf actions, request.kind ≠ .refund) ∧
      (office.run (processLane (Engine.new 2) (requestsOf actions))).1.isOk = true ∧
      writtenBy (writtenBy table earlier) actions ≠ writtenBy table actions := by
  intro table actions earlier office
  have cut : Table.IsCutInto actions earlier actions :=
    ⟨Table.rowOfTexts ["action", "accounts", "amount"], [],
      [Table.rowOfTexts ["pay", "b;a", "0.01"]], by decide +kernel, by decide +kernel,
      by decide +kernel⟩
  have named : (TableReader.ofBytes table).header ≠ .unreadable := by
    decide +kernel
  have namedActions : (TableReader.ofBytes actions).header ≠ .unreadable := by
    decide +kernel
  have loads :
      booksOf inDollars table = booksOn (older, younger) := by
    decide +kernel
  have asks : requestsOf actions = [centForBoth] := by
    decide +kernel
  have asksNothing : requestsOf earlier = [] := by
    decide +kernel
  have few : 4 * ((requestsOf actions).flatMap (·.accounts)).length ≤ twoTo 128 := by
    rw [asks]
    decide +kernel
  have noRefund : ∀ request ∈ requestsOf actions, request.kind ≠ .refund := by
    rw [asks]
    decide
  -- The first part writes both accounts as they were loaded, less their fractions.
  have nothingComesTo :
      ComesTo inDollars table earlier (booksOn (older, younger)) :=
    { named := named
      namedActions := cut.header_eq.1 ▸ namedActions
      few := by rw [asksNothing]; decide
      tells := ⟨[], by rw [asksNothing, loads]; rfl⟩
      alike := by rw [asksNothing]; trivial }
  have part := mayWrite_writtenBy named nothingComesTo.namedActions
  have written : writtenBy table earlier = Table.bytes _ := part.eq_bytes nothingComesTo
  have namedBetween := part.named nothingComesTo
  -- In one run the cent is paid on the older account.
  have comesTo :
      ComesTo inDollars table actions
        ((booksOn (older, younger)).carryingOut [centPlan older]) :=
    { named := named
      namedActions := namedActions
      few := few
      tells := ⟨_, by rw [asks, loads]; exact tellAll_centForBoth (.head _)⟩
      alike := measuresAllAlike_of_noRefund noRefund }
  have whole := (mayWrite_writtenBy named namedActions).eq_bytes comesTo
  -- Resumed, it is paid on the younger one.
  have loadsBetween :
      booksOf inDollars (writtenBy table earlier) =
        booksOn (younger.asWritten, older.asWritten) := by
    rw [written, nothingComesTo.rows_eq]
    decide +kernel
  have resumedComesTo :
      ComesTo inDollars (writtenBy table earlier) actions
        ((booksOn (younger.asWritten, older.asWritten)).carryingOut
          [centPlan younger.asWritten]) :=
    { named := namedBetween
      namedActions := namedActions
      few := few
      tells :=
        ⟨_, by rw [asks, loadsBetween]; exact tellAll_centForBoth (.tail _ (.head _))⟩
      alike := measuresAllAlike_of_noRefund noRefund }
  have resumed :=
    (mayWrite_writtenBy namedBetween namedActions).eq_bytes resumedComesTo
  obtain ⟨results, ended, -⟩ := comesTo.ends ⟨EntryId.ofNat 1, .epoch⟩
  refine ⟨cut, noRefund, congrArg Except.isOk ended, ?_⟩
  rw [whole, resumed, comesTo.rows_eq, resumedComesTo.rows_eq]
  decide +kernel

end Run

end PatronFees
