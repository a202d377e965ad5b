import PatronFees.Proofs.Batch.Desk
import PatronFees.Proofs.Engine.Fresh

namespace PatronFees

/-!
# Answers that a desk expects

An office whose services all work answers what a desk permits as the desk
expects, if the office has the books of the desk on its accounts and no
identifier is handed out twice: neither those in the ledger nor those drawn and
not yet used nor those that may still be drawn.
-/

namespace Office

open Engine

variable {office : Office} {desk : Desk} {ids : List AccountId}
  {request : Request} {others : List EntryId} {rest : Nat}

/-- The identifiers that the office hands out next. -/
def upcoming
    (office : Office)
    (count : Nat) : List EntryId :=
  (List.range' office.nextId count).map EntryId.ofNat

/--
Of the identifiers drawn and not yet used and those that may still be drawn, none
is there twice and none is in the ledger.
-/
structure KeepsApart
    (office : Office)
    (drawn : List EntryId)
    (budget : Nat) : Prop where
  distinct : (drawn ++ office.upcoming budget).Nodup
  unused : (drawn ++ office.upcoming budget).Disjoint office.ledger.ids

/-- Fresh identifiers are kept apart while none is drawn. -/
theorem DrawsFresh.keepsApart
    {budget : Nat}
    (fresh : office.DrawsFresh budget) :
    office.KeepsApart [] budget where
  distinct := fresh.distinct
  unused := by
    intro id next inUse
    obtain ⟨number, inRange, rfl⟩ := List.mem_map.mp next
    exact fresh.unused number inRange inUse

/-- The order of those drawn does not matter. -/
theorem KeepsApart.perm
    {drawn reordered : List EntryId}
    {budget : Nat}
    (apart : office.KeepsApart drawn budget)
    (permuted : drawn.Perm reordered) :
    office.KeepsApart reordered budget where
  distinct := (permuted.append_right _).nodup_iff.mp apart.distinct
  unused := fun _ member =>
    apart.unused ((permuted.append_right _).mem_iff.mpr member)

/-- What was drawn first and is recorded repeats no identifier of the ledger. -/
theorem KeepsApart.firstRepeated?_eq_none
    {entries : List LedgerEntry}
    {budget : Nat}
    (apart : office.KeepsApart (entries.map (·.id) ++ others) budget) :
    Ledger.firstRepeated? office.ledger.ids entries = none := by
  have distinct := apart.distinct
  rw [List.append_assoc] at distinct
  apply Ledger.firstRepeated?_eq_none (List.Nodup.of_append_left distinct)
  intro entry member
  apply apart.unused
  rw [List.append_assoc]
  exact List.mem_append_left _ (List.mem_map_of_mem member)

/-- What is recorded leaves the rest apart. -/
theorem KeepsApart.recording
    {entries : List LedgerEntry}
    {budget : Nat}
    (apart : office.KeepsApart (entries.map (·.id) ++ others) budget) :
    (withEntries office entries).KeepsApart others budget := by
  rcases apart with ⟨distinct, unused⟩
  rw [List.append_assoc] at distinct unused
  obtain ⟨-, restDistinct, elsewhere⟩ := List.nodup_append'.mp distinct
  refine ⟨restDistinct, ?_⟩
  rw [withEntries, Ledger.ids_foldl_append]
  intro id member inUse
  rcases List.mem_append.mp inUse with now | before
  · exact elsewhere (List.mem_reverse.mp now) member
  · exact unused (List.mem_append_right _ member) before

/-- What is drawn next stays apart. -/
theorem KeepsApart.drawing
    {drawn : List EntryId}
    {budget : Nat}
    (apart : office.KeepsApart drawn (budget + 1)) :
    office.drawStamp.2.KeepsApart
      (drawn ++ [office.drawStamp.1.id]) budget := by
  have next :
      drawn ++ office.upcoming (budget + 1) =
        drawn ++ [office.drawStamp.1.id] ++
          office.drawStamp.2.upcoming budget := by
    rw [upcoming, List.range'_succ, List.map_cons, List.append_assoc]
    rfl
  exact ⟨next ▸ apart.distinct, next ▸ apart.unused⟩

/-- A ledger that is the one of its entries stays so as it grows. -/
theorem isRecorded_withEntries
    (recorded : office.ledger.IsRecorded)
    (entries : List LedgerEntry) :
    (withEntries office entries).ledger.IsRecorded := by
  rw [withEntries, Ledger.foldl_append_eq recorded]
  exact Ledger.isRecorded_ofEntries _

/-- Recorded entries are posted in the books. -/
theorem books_withEntries
    (recorded : office.ledger.IsRecorded)
    (entries : List LedgerEntry) :
    (withEntries office entries).books =
      office.books.post (entries.map (·.posting)) := by
  rw [books, withEntries, Ledger.foldl_append_eq recorded,
    Ledger.entries_ofEntries, List.map_append]
  rfl

/-- What is found in the ledger is found in the books. -/
theorem map_posting_find
    (recorded : office.ledger.IsRecorded)
    (ids : List AccountId)
    (kinds : List ActionKind) :
    (office.ledger.find ids kinds).map (·.posting) =
      office.books.find ids kinds := by
  rw [recorded, Ledger.find_ofEntries, books, Books.find, List.filter_map]
  rfl

/-- The history of an account in the ledger is the one in the books. -/
theorem map_posting_historyOf
    (recorded : office.ledger.IsRecorded)
    (id : AccountId) :
    (office.ledger.historyOf id).map (·.posting) = office.books.historyOf id := by
  rw [recorded, Ledger.historyOf_ofEntries, books, Books.historyOf,
    List.filter_map]
  rfl

/-- What the answer to a request comes to in the office and at the desk. -/
structure AnswersAt
    (office : Office)
    (desk : Desk)
    (others : List EntryId)
    (rest : Nat)
    (request : Request)
    (reply : request.Reply)
    (after : Office) : Prop where
  expected : desk.Expects request reply
  books : after.books = request.change office.books
  ledger :
    after.ledger = request.recorded.foldl Ledger.append office.ledger
  recorded : after.ledger.IsRecorded
  apart :
    after.KeepsApart ((desk.answered request reply).drawn ++ others)
      ((desk.answered request reply).budget + rest)

/-- What the desk permits is answered as it expects. -/
theorem answer_permitted
    (recorded : office.ledger.IsRecorded)
    (same : Books.SameOn ids office.books desk.books)
    (permitted : desk.Permits ids request)
    (apart : office.KeepsApart (desk.drawn ++ others) (desk.budget + rest)) :
    office.AnswersAt desk others rest request (office.answer request).1
      (office.answer request).2 := by
  rcases permitted with ⟨named, ⟨remaining, drawn⟩, allowed⟩
  cases request with
  | loadAccounts wanted =>
      exact ⟨congrArg Except.ok (same.only_eq named), rfl, rfl, recorded, apart⟩
  | readHistory wanted kinds =>
      have found :=
        (map_posting_find recorded wanted kinds).trans
          (same.find_eq named kinds)
      exact ⟨⟨_, rfl, found⟩, rfl, rfl, recorded, apart⟩
  | drawStamp =>
      change 1 ≤ desk.budget at allowed
      have first : desk.budget + rest = desk.budget - 1 + rest + 1 := by omega
      rw [first] at apart
      have permuted :
          (desk.drawn ++ others ++ [office.drawStamp.1.id]).Perm
            (desk.drawn ++ [office.drawStamp.1.id] ++ others) := by
        rw [List.append_assoc, List.append_assoc]
        exact List.perm_append_comm.append_left _
      exact ⟨trivial, rfl, rfl, recorded, apart.drawing.perm permuted⟩
  | recordEntry entry =>
      change [entry].map (·.id) ++ remaining = desk.drawn at drawn
      rw [← drawn, List.append_assoc] at apart
      have unused : ¬ office.ledger.ids.contains entry.id = true := by
        rw [List.contains_iff_mem]
        exact apart.unused List.mem_cons_self
      rw [answer_recordEntry unused]
      refine
        ⟨rfl, books_withEntries recorded _, rfl,
          isRecorded_withEntries recorded _, ?_⟩
      have left :
          (desk.answered (.recordEntry entry) (.ok ())).drawn = remaining := by
        change desk.drawn.drop 1 = remaining
        rw [← drawn]
        rfl
      rw [left]
      exact apart.recording
  | recordBatch entries =>
      change entries.map (·.id) ++ remaining = desk.drawn at drawn
      rw [← drawn, List.append_assoc] at apart
      rw [answer_recordBatch apart.firstRepeated?_eq_none]
      refine
        ⟨rfl, books_withEntries recorded _, rfl,
          isRecorded_withEntries recorded _, ?_⟩
      have left :
          (desk.answered (.recordBatch entries) (.ok ())).drawn = remaining := by
        change desk.drawn.drop entries.length = remaining
        rw [← drawn]
        exact List.drop_left' (List.length_map _)
      rw [left]
      exact apart.recording
  | saveAccount account | sendNotice entry =>
      exact ⟨rfl, rfl, rfl, recorded, apart.distinct, apart.unused⟩
  | report event =>
      exact ⟨trivial, rfl, rfl, recorded, apart.distinct, apart.unused⟩

end Office

end PatronFees
