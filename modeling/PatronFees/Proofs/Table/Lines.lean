import PatronFees.Proofs.Table.ToTheEnd
import PatronFees.Proofs.Table.Writing

namespace PatronFees

/-!
# The lines of rows

A skipped row is reported on a line that is counted in rows: the header is line
one and every row one more. A line of the text ends with a line feed, a carriage
return or one behind the other, and a row starts on the line behind all line breaks
before it. Most of these end a row. Those of empty lines and those within quotes end
none, and by as many lines a skipped row is reported too early.
-/

namespace Table

/-- A line feed behind a carriage return is part of the line break that this began. -/
def beginsBreak (afterReturn : Bool) (byte : UInt8) : Bool :=
  isRowEnd byte && !(byte == lineFeed && afterReturn)

/-- How many line breaks begin within some bytes. -/
def lineBreaks (afterReturn : Bool) : List UInt8 → Nat
  | [] => 0
  | byte :: rest =>
      (if beginsBreak afterReturn byte then 1 else 0) +
        lineBreaks (byte == carriageReturn) rest

/-- Where a reader stands behind a byte. -/
def Place.next (place : Place) (byte : UInt8) : Place :=
  match place.effect byte with
  | .skip next => next
  | .keep next => next
  | .endField => .fieldStart
  | .endRow => .betweenRows

/-- How many of these line breaks end no row: they are of empty lines or stand in quotes. -/
def idleBreaks (place : Place) (afterReturn : Bool) : List UInt8 → Nat
  | [] => 0
  | byte :: rest =>
      (if beginsBreak afterReturn byte && !place.endsField then 1 else 0) +
        idleBreaks (place.next byte) (byte == carriageReturn) rest

/-- How many rows end within some bytes. -/
def rowEnds (place : Place) : List UInt8 → Nat
  | [] => 0
  | byte :: rest =>
      (if place.effect byte = .endRow then 1 else 0) +
        rowEnds (place.next byte) rest

/-- A row of a text, and the bytes before the first of its own. -/
structure PlacedRow where
  before : List UInt8
  row : Row
  deriving Repr, DecidableEq

namespace PlacedRow

/-- The line of the text on which the row starts, the first line being one. -/
def line (placed : PlacedRow) : Nat :=
  lineBreaks false placed.before + 1

/-- How many line breaks before the row end no row. -/
def idleBreaksBefore (placed : PlacedRow) : Nat :=
  idleBreaks .betweenRows false placed.before

/-- The row comes first in what is behind the bytes before it, which begins with no line break. -/
def StartsIn (text : List UInt8) (placed : PlacedRow) : Prop :=
  ∃ first rest,
    text = placed.before ++ first :: rest ∧
      isRowEnd first = false ∧
      (rowsFrom .betweenRows [] [] (first :: rest)).head? = some placed.row

end PlacedRow

/-- A reader between two bytes of a text, with the row at hand. -/
structure Scan where
  place : Place
  /-- The bytes that have been read. -/
  read : List UInt8
  /-- Those of them that are before the row at hand. -/
  before : List UInt8
  /-- The finished fields of the row at hand, the latest first. -/
  fields : List Field
  /-- The bytes of the field at hand, the latest first. -/
  field : Field

namespace Scan

/-- Before the first byte. -/
def start : Scan :=
  ⟨.betweenRows, [], [], [], []⟩

/-- The row at hand, as it is if it ends here. -/
def row (scan : Scan) : Row :=
  (scan.field.reverse :: scan.fields).reverse

/-- Behind one more byte. -/
def next (scan : Scan) (byte : UInt8) : Scan :=
  let read := scan.read ++ [byte]
  let before := if scan.place = .betweenRows then scan.read else scan.before
  match scan.place.effect byte with
  | .skip place => ⟨place, read, before, scan.fields, scan.field⟩
  | .keep place => ⟨place, read, before, scan.fields, byte :: scan.field⟩
  | .endField => ⟨.fieldStart, read, before, scan.field.reverse :: scan.fields, []⟩
  | .endRow => ⟨.betweenRows, read, before, [], []⟩

/-- The rows that end in the rest of a text, each with the bytes before it. -/
def placedRows (scan : Scan) : List UInt8 → List PlacedRow
  | [] =>
      if scan.place = .betweenRows then
        []
      else
        [⟨scan.before, scan.row⟩]
  | byte :: rest =>
      if scan.place.effect byte = .endRow then
        ⟨scan.before, scan.row⟩ :: (scan.next byte).placedRows rest
      else
        (scan.next byte).placedRows rest

/-- The rows that a reader makes of the rest of a text. -/
def rowsAhead (scan : Scan) (rest : List UInt8) : List Row :=
  rowsFrom scan.place scan.fields scan.field rest

end Scan

/-- The rows of a table with the bytes before them, a byte order mark aside. -/
def placedRows (bytes : List UInt8) : List PlacedRow :=
  Scan.start.placedRows (withoutMark bytes)

section Bytes

variable {place : Place} {byte : UInt8}

/-- Outside quotes a byte ends the row, ends the field or belongs to it. -/
theorem plainEffect_cases (byte : UInt8) :
    isRowEnd byte = true ∧ plainEffect byte = .endRow ∨
      isRowEnd byte = false ∧
        (plainEffect byte = .endField ∨ plainEffect byte = .keep .inField) := by
  rw [plainEffect]
  by_cases isComma : byte = comma
  · rw [if_pos isComma, isComma]
    decide
  · rw [if_neg isComma]
    cases isRowEnd byte <;> simp

/--
A line break ends the row at hand where fields end, and is passed over between rows.
Any other byte, and any within quotes, begins a row or stays in it.
-/
theorem effect_cases (place : Place) (byte : UInt8) :
    isRowEnd byte = true ∧ place.endsField = true ∧ place.effect byte = .endRow ∨
      isRowEnd byte = true ∧
          place = .betweenRows ∧ place.effect byte = .skip .betweenRows ∨
        (isRowEnd byte = false ∨ place = .inQuotes) ∧
          place.effect byte ≠ .endRow ∧ place.next byte ≠ .betweenRows := by
  have quoteIsNone : isRowEnd quote = false := by decide
  rcases plainEffect_cases byte with ⟨ends, plain⟩ | ⟨notEnd, plain | plain⟩ <;>
    by_cases isQuote : byte = quote <;>
    cases place <;>
    simp_all [Place.effect, Place.next, Place.endsField]

/-- Between rows there is no row to end. -/
theorem effect_betweenRows_ne_endRow (byte : UInt8) :
    Place.betweenRows.effect byte ≠ .endRow := by
  rcases effect_cases .betweenRows byte with
      ⟨-, within, -⟩ | ⟨-, -, passed⟩ | ⟨-, goesOn, -⟩
  · cases within
  · simp [passed]
  · exact goesOn

/-- Behind a carriage return no field is at hand that a line feed could end. -/
theorem endsField_next_carriageReturn (place : Place) :
    (place.next carriageReturn).endsField = false := by
  cases place <;> rfl

/-- Line breaks are the ends of rows and those that end no row. -/
theorem lineBreaks_eq
    {afterReturn : Bool}
    (returned : afterReturn = true → place.endsField = false)
    (bytes : List UInt8) :
    lineBreaks afterReturn bytes =
      rowEnds place bytes + idleBreaks place afterReturn bytes := by
  induction bytes generalizing place afterReturn with
  | nil =>
      rfl
  | cons byte rest inductionHypothesis =>
      have returnedLater :
          (byte == carriageReturn) = true → (place.next byte).endsField = false := by
        intro isReturn
        rw [beq_iff_eq.mp isReturn]
        exact endsField_next_carriageReturn place
      have here :
          (if beginsBreak afterReturn byte then 1 else 0) =
            (if place.effect byte = .endRow then 1 else 0) +
              if beginsBreak afterReturn byte && !place.endsField then 1 else 0 := by
        rcases effect_cases place byte with
            ⟨lineEnds, fieldEnds, ends⟩ | ⟨-, rfl, passed⟩ | ⟨within, goesOn, -⟩
        · have notAfterReturn : afterReturn = false := by
            rw [← Bool.not_eq_true]
            intro isAfter
            cases fieldEnds.symm.trans (returned isAfter)
          simp [beginsBreak, lineEnds, fieldEnds, ends, notAfterReturn]
        · simp [passed, Place.endsField]
        · rcases within with noBreak | rfl
          · simp [goesOn, beginsBreak, noBreak]
          · simp [goesOn, Place.endsField]
      rw [lineBreaks, rowEnds, idleBreaks, here, inductionHypothesis returnedLater]
      omega

theorem rowEnds_append (first second : List UInt8) :
    rowEnds place (first ++ second) =
      rowEnds place first + rowEnds (first.foldl Place.next place) second := by
  induction first generalizing place with
  | nil =>
      simp [rowEnds]
  | cons byte rest inductionHypothesis =>
      rw [List.cons_append, rowEnds, rowEnds, inductionHypothesis, List.foldl_cons]
      omega

end Bytes

namespace Scan

variable {scan : Scan} {byte : UInt8} {text rest : List UInt8}

@[simp]
theorem place_next :
    (scan.next byte).place = scan.place.next byte := by
  rw [next, Place.next]
  cases scan.place.effect byte <;> rfl

@[simp]
theorem read_next :
    (scan.next byte).read = scan.read ++ [byte] := by
  rw [next]
  cases scan.place.effect byte <;> rfl

@[simp]
theorem before_next :
    (scan.next byte).before =
      if scan.place = .betweenRows then scan.read else scan.before := by
  rw [next]
  cases scan.place.effect byte <;> rfl

/-- One byte ends the row at hand or leads on to what is ahead of it. -/
theorem rowsAhead_cons :
    scan.rowsAhead (byte :: rest) =
      if scan.place.effect byte = .endRow then
        scan.row :: (scan.next byte).rowsAhead rest
      else
        (scan.next byte).rowsAhead rest := by
  rw [rowsAhead, rowsFrom, next]
  cases scan.place.effect byte <;> rfl

/-- The placed rows are the rows. -/
theorem map_row_placedRows :
    (scan.placedRows rest).map (·.row) = scan.rowsAhead rest := by
  induction rest generalizing scan with
  | nil =>
      rw [placedRows, rowsAhead, rowsFrom]
      split <;> rfl
  | cons byte rest inductionHypothesis =>
      rw [placedRows, rowsAhead_cons]
      split
      · exact congrArg (scan.row :: ·) inductionHypothesis
      · exact inductionHypothesis

/--
A scan is in a text, before a rest of it. Between rows it has no field in hand; within
a row it is where it would be if it had begun with the first byte of that row.
-/
structure IsIn (text rest : List UInt8) (scan : Scan) : Prop where
  text_eq : text = scan.read ++ rest
  place_eq : scan.read.foldl Place.next .betweenRows = scan.place
  between : scan.place = .betweenRows → scan.fields = [] ∧ scan.field = []
  within :
    scan.place ≠ .betweenRows →
      rowEnds .betweenRows scan.before = rowEnds .betweenRows scan.read ∧
        ∃ first more,
          scan.read = scan.before ++ first :: more ∧
            isRowEnd first = false ∧
            ∀ later,
              rowsFrom .betweenRows [] [] (first :: (more ++ later)) =
                scan.rowsAhead later

namespace IsIn

theorem start (text : List UInt8) :
    Scan.start.IsIn text text :=
  ⟨rfl, rfl, fun _ => ⟨rfl, rfl⟩, fun within => absurd rfl within⟩

/-- As many rows end up to a byte as before it, and one more if it ends one. -/
theorem rowEnds_next
    (isIn : scan.IsIn text (byte :: rest)) :
    rowEnds .betweenRows (scan.next byte).read =
      rowEnds .betweenRows scan.read +
        if scan.place.effect byte = .endRow then 1 else 0 := by
  rw [read_next, rowEnds_append, isIn.place_eq]
  rfl

/-- A scan stays in its text from byte to byte. -/
theorem next
    (isIn : scan.IsIn text (byte :: rest)) :
    (scan.next byte).IsIn text rest := by
  have text_eq : text = (scan.next byte).read ++ rest := by
    rw [isIn.text_eq, read_next, List.append_assoc]
    rfl
  have place_eq :
      (scan.next byte).read.foldl Place.next .betweenRows =
        (scan.next byte).place := by
    rw [read_next, List.foldl_append, isIn.place_eq, place_next]
    rfl
  rcases effect_cases scan.place byte with
      ⟨-, -, ends⟩ | ⟨-, atStart, passed⟩ | ⟨begins, goesOn, stays⟩
  · refine ⟨text_eq, place_eq, fun _ => ?_, fun within => absurd ?_ within⟩
    · simp [Scan.next, ends]
    · simp [Place.next, ends]
  · refine ⟨text_eq, place_eq, fun _ => ?_, fun within => absurd ?_ within⟩
    · simpa [Scan.next, passed] using isIn.between atStart
    · simp [Place.next, passed]
  · have sameEnds := isIn.rowEnds_next
    have ahead (later : List UInt8) :
        scan.rowsAhead (byte :: later) = (scan.next byte).rowsAhead later := by
      rw [rowsAhead_cons, if_neg goesOn]
    rw [if_neg goesOn, Nat.add_zero] at sameEnds
    rw [← place_next] at stays
    refine ⟨text_eq, place_eq, fun between => absurd between stays, fun _ => ?_⟩
    rw [sameEnds, before_next, read_next]
    by_cases atStart : scan.place = .betweenRows
    · obtain ⟨noFields, noField⟩ := isIn.between atStart
      rw [if_pos atStart]
      refine ⟨rfl, byte, [], rfl, begins.resolve_right (by simp [atStart]), ?_⟩
      intro later
      rw [← ahead, rowsAhead, atStart, noFields, noField]
      rfl
    · obtain ⟨sameBefore, first, more, readEq, notEnd, same⟩ := isIn.within atStart
      rw [if_neg atStart]
      refine ⟨sameBefore, first, more ++ [byte], ?_, notEnd, fun later => ?_⟩
      · rw [readEq, List.append_assoc]
        rfl
      · rw [← ahead, ← same, List.append_assoc]
        rfl

/-- The row at hand starts where it is said to, if it is the next to be read. -/
theorem startsIn
    (isIn : scan.IsIn text rest)
    (within : scan.place ≠ .betweenRows)
    (ends : (scan.rowsAhead rest).head? = some scan.row) :
    PlacedRow.StartsIn text ⟨scan.before, scan.row⟩ := by
  obtain ⟨-, first, more, readEq, notEnd, same⟩ := isIn.within within
  refine ⟨first, more ++ rest, ?_, notEnd, ?_⟩
  · rw [isIn.text_eq, readEq, List.append_assoc]
    rfl
  · rw [same]
    exact ends

/-- Rows ahead of a scan start in its text, behind the ends of all rows before them. -/
theorem placed
    (isIn : scan.IsIn text rest)
    {index : Nat}
    {placed : PlacedRow}
    (found : (scan.placedRows rest)[index]? = some placed) :
    placed.StartsIn text ∧
      rowEnds .betweenRows placed.before =
        rowEnds .betweenRows scan.read + index := by
  induction rest generalizing scan index with
  | nil =>
      rw [placedRows] at found
      split at found
      next =>
        cases found
      next within =>
        cases index with
        | zero =>
            obtain rfl := Option.some.inj found
            refine ⟨isIn.startsIn within ?_, (isIn.within within).1⟩
            rw [rowsAhead, rowsFrom, if_neg within]
            rfl
        | succ index =>
            cases found
  | cons byte rest inductionHypothesis =>
      have count := isIn.rowEnds_next
      rw [placedRows] at found
      split at found
      next ends =>
        rw [if_pos ends] at count
        have within : scan.place ≠ .betweenRows := by
          intro between
          rw [between] at ends
          exact effect_betweenRows_ne_endRow byte ends
        cases index with
        | zero =>
            obtain rfl := Option.some.inj found
            refine ⟨isIn.startsIn within ?_, (isIn.within within).1⟩
            rw [rowsAhead_cons, if_pos ends]
            rfl
        | succ index =>
            obtain ⟨starts, counted⟩ := inductionHypothesis isIn.next found
            exact ⟨starts, by omega⟩
      next goesOn =>
        rw [if_neg goesOn] at count
        obtain ⟨starts, counted⟩ := inductionHypothesis isIn.next found
        exact ⟨starts, by omega⟩

end IsIn

end Scan

theorem map_row_placedRows (bytes : List UInt8) :
    (placedRows bytes).map (·.row) = rows bytes :=
  Scan.map_row_placedRows

/-- A row starts where it is placed, on the line counted by rows and by idle line breaks. -/
theorem placed_getElem?
    {bytes : List UInt8}
    {index : Nat}
    {placed : PlacedRow}
    (found : (placedRows bytes)[index]? = some placed) :
    placed.StartsIn (withoutMark bytes) ∧
      placed.line = index + 1 + placed.idleBreaksBefore := by
  obtain ⟨starts, count⟩ := (Scan.IsIn.start (withoutMark bytes)).placed found
  refine ⟨starts, ?_⟩
  have none : rowEnds .betweenRows Scan.start.read = 0 := rfl
  have breaks :
      lineBreaks false placed.before =
        rowEnds .betweenRows placed.before + placed.idleBreaksBefore :=
    lineBreaks_eq (fun _ => rfl) placed.before
  rw [PlacedRow.line, breaks, count, none]
  omega

end Table

namespace TableReader

open Table (PlacedRow)

variable {Value : Type} {format : TableFormat Value} {header : Table.Header}

/-- The row is skipped, with a warning that has a line. -/
def Skips
    (format : TableFormat Value)
    (header : Table.Header)
    (row : Table.Row) : Prop :=
  ∃ warning : Nat → Event,
    ∀ line, readRow format header line row = .error (warning line)

/-- The warnings of some rows, with lines to report them on. -/
def warningsOn
    (format : TableFormat Value)
    (header : Table.Header)
    (lineOf : PlacedRow → Nat)
    (rows : List PlacedRow) : List Event :=
  (gather
    (rows.map fun placed =>
      readRow format header (lineOf placed) placed.row)).2

/-- A row is a value on whatever line, or is skipped with a warning that tells the line. -/
theorem readRow_cases
    (format : TableFormat Value)
    (header : Table.Header)
    (row : Table.Row) :
    (∃ value, ∀ line, readRow format header line row = .ok value) ∨
      ∃ warning : Nat → Event,
        warning.Injective ∧
          ∀ line, readRow format header line row = .error (warning line) := by
  simp only [readRow]
  cases format.layout.cells? header row with
  | none =>
      exact .inr ⟨.recordUnreadable, fun _ _ => Event.recordUnreadable.inj, fun _ => rfl⟩
  | some cells =>
      cases converted : format.convert cells with
      | ok value =>
          exact .inl ⟨value, fun _ => by simp [converted]⟩
      | error failure =>
          exact .inr ⟨fun line => .recordInvalid line failure,
            fun _ _ same => (Event.recordInvalid.inj same).1,
            fun _ => by simp [converted]⟩

/-- Warnings are the same on other lines exactly if these are no others for the skipped rows. -/
theorem warningsOn_eq_iff
    (lineOf otherLineOf : PlacedRow → Nat)
    (rows : List PlacedRow) :
    warningsOn format header lineOf rows =
        warningsOn format header otherLineOf rows ↔
      ∀ placed ∈ rows,
        Skips format header placed.row → lineOf placed = otherLineOf placed := by
  induction rows with
  | nil =>
      simp [warningsOn]
  | cons placed rest inductionHypothesis =>
      simp only [List.forall_mem_cons]
      rw [← inductionHypothesis]
      simp only [warningsOn, List.map_cons]
      rcases readRow_cases format header placed.row with
          ⟨value, read⟩ | ⟨warning, injective, skipped⟩
      · have notSkipped : ¬ Skips format header placed.row := by
          rintro ⟨warning, skipped⟩
          cases (read 0).symm.trans (skipped 0)
        simp [read, gather, notSkipped]
      · have isSkipped : Skips format header placed.row := ⟨warning, skipped⟩
        simp [skipped, gather, isSkipped, injective.eq_iff]

/-- The reader takes a row to be on its line less the idle line breaks before it. -/
theorem outcomes_ofBytes
    (format : TableFormat Value)
    (bytes : List UInt8) :
    (ofBytes bytes).outcomes format =
      (Table.placedRows bytes).tail.map fun placed =>
        readRow format (ofBytes bytes).header
          (placed.line - placed.idleBreaksBefore) placed.row := by
  have rows :
      (ofBytes bytes).rows = (Table.placedRows bytes).tail.map (·.row) := by
    rw [rows_ofBytes, ← Table.map_row_placedRows, List.map_tail]
  apply List.ext_getElem
  · simp [outcomes, rows]
  · intro index within _
    have inTable : index + 1 < (Table.placedRows bytes).length := by
      rw [length_outcomes, rows, List.length_map, List.length_tail] at within
      omega
    have line :=
      (Table.placed_getElem? (List.getElem?_eq_getElem inTable)).2
    have counted :
        (ofBytes bytes).nextLine + index =
          (Table.placedRows bytes)[index + 1].line -
            (Table.placedRows bytes)[index + 1].idleBreaksBefore := by
      rw [nextLine, rowsRead_ofBytes, line]
      omega
    simp only [outcomes, rows, List.getElem_map, List.getElem_zipIdx,
      List.getElem_tail, Nat.zero_add, counted]

end TableReader

open TableReader

/--
Whatever the sizes of the batches, a skipped row is reported on the line on which it
starts, less the line breaks before it that end no row. So all of them are reported
on their lines exactly if there is no such line break before any of them.
-/
theorem skips_on_their_lines_iff
    {Value : Type}
    (format : TableFormat Value)
    (bytes : List UInt8)
    (text : Table.HasTextHeader bytes)
    (sizes : List Nat) :
    let reader := TableReader.ofBytes bytes
    let rows := (Table.placedRows bytes).tail.take sizes.sum
    let warnings := (readBatches format sizes reader).1.flatMap (·.warnings)
    rows.map (·.row) = reader.rows.take sizes.sum ∧
      (∀ placed ∈ rows, placed.StartsIn (Table.withoutMark bytes)) ∧
      warnings =
        warningsOn format reader.header
          (fun placed => placed.line - placed.idleBreaksBefore) rows ∧
      (warnings = warningsOn format reader.header Table.PlacedRow.line rows ↔
        ∀ placed ∈ rows,
          Skips format reader.header placed.row →
            placed.idleBreaksBefore = 0) := by
  intro reader rows warnings
  have found : ∀ placed ∈ rows, ∃ index,
      (Table.placedRows bytes)[index]? = some placed := fun placed member =>
    List.mem_iff_getElem?.mp (List.mem_of_mem_tail (List.mem_of_mem_take member))
  have reported :
      warnings =
        warningsOn format reader.header
          (fun placed => placed.line - placed.idleBreaksBefore) rows := by
    have read :=
      (readBatches_eq format ((header_ne_unreadable_iff bytes).mpr text) sizes).2
    rw [outcomes_ofBytes, ← List.map_take] at read
    exact congrArg Prod.snd read
  refine ⟨?_, ?_, reported, ?_⟩
  · rw [List.map_take, List.map_tail, Table.map_row_placedRows, ← rows_ofBytes]
  · intro placed member
    obtain ⟨index, inTable⟩ := found placed member
    exact (Table.placed_getElem? inTable).1
  · rw [reported, warningsOn_eq_iff]
    refine forall_congr' fun placed => forall_congr' fun member =>
      imp_congr_right fun _ => ?_
    obtain ⟨index, inTable⟩ := found placed member
    have line := (Table.placed_getElem? inTable).2
    omega

/-- A short row is reported on its line, a comment of two lines behind it or not. -/
theorem skips_on_their_lines_iff_beforeComment :
    let bytes :=
      ("action,accounts,comments\r\npay,a,late\r\nwaive\r\n" ++
        "pay,b,\"one\r\ntwo\"\r\npay,c,later\r\n").toUTF8.toList
    let reader := TableReader.ofBytes bytes
    let rows := (Table.placedRows bytes).tail.take [1, 3].sum
    let warnings :=
      (readBatches TableFormat.actions [1, 3] reader).1.flatMap (·.warnings)
    Table.HasTextHeader bytes ∧
      warnings =
        warningsOn TableFormat.actions reader.header Table.PlacedRow.line rows ∧
      warnings = [.recordUnreadable 3] ∧
      rows.map (·.line) = [2, 3, 4, 6] := by
  intro bytes reader rows warnings
  have text : Table.HasTextHeader bytes :=
    (header_ne_unreadable_iff bytes).mp (by decide +kernel)
  have idleOrRead : ∀ placed ∈ rows,
      placed.idleBreaksBefore = 0 ∨
        (readRow TableFormat.actions reader.header 0 placed.row).isOk = true := by
    decide +kernel
  have noneIdle : ∀ placed ∈ rows,
      Skips TableFormat.actions reader.header placed.row →
        placed.idleBreaksBefore = 0 := by
    rintro placed member ⟨warning, skipped⟩
    refine (idleOrRead placed member).resolve_right fun isRead => ?_
    rw [skipped 0] at isRead
    cases isRead
  obtain ⟨-, -, -, onLines⟩ :=
    skips_on_their_lines_iff TableFormat.actions bytes text [1, 3]
  exact ⟨text, onLines.mpr noneIdle, by decide +kernel, by decide +kernel⟩

/-- Behind a comment of two lines a row on line four is reported on line three. -/
theorem skip_off_its_line_behindComment :
    let bytes :=
      ("action,accounts,amount,comments\npay,a,1.00,\"STAFF : waived per policy " ++
        "\n PATRON : sorry for the delay\"\nwaive\n").toUTF8.toList
    let reader := TableReader.ofBytes bytes
    let rows := (Table.placedRows bytes).tail.take [1, 2].sum
    let warnings :=
      (readBatches TableFormat.actions [1, 2] reader).1.flatMap (·.warnings)
    Table.HasTextHeader bytes ∧
      warnings = [.recordUnreadable 3] ∧
      warningsOn TableFormat.actions reader.header Table.PlacedRow.line rows =
        [.recordUnreadable 4] := by
  intro bytes reader rows warnings
  have text : Table.HasTextHeader bytes :=
    (header_ne_unreadable_iff bytes).mp (by decide +kernel)
  exact ⟨text, by decide +kernel, by decide +kernel⟩

end PatronFees
