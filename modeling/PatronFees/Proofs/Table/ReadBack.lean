import PatronFees.Proofs.Batch.AsWritten
import PatronFees.Proofs.Table.Loaded

namespace PatronFees

/-!
# Books that are read back

A book whose accounts can be written is read back as a book that has the same
accounts once they are written: it keeps the order that it has and makes the same
table.
-/

namespace Account

/-- What is written of an account is written of it again. -/
theorem asWritten_asWritten (account : Account) :
    account.asWritten.asWritten = account.asWritten := by
  simp only [asWritten, Timestamp.cut_cut]
  rfl

/-- The row of an account shows the account as it is written. -/
theorem texts_asWritten (account : Account) :
    account.asWritten.texts = account.texts := by
  simp only [texts, asWritten, Timestamp.text_cut]
  rfl

/-- Accounts as they are written make the same table. -/
theorem rows_asWritten (accounts : List Account) :
    rows (accounts.map asWritten) = rows accounts := by
  have sortedAlike :
      (sorted accounts).map asWritten = sorted (accounts.map asWritten) := by
    rw [sorted, sorted]
    exact List.map_mergeSort fun _ _ _ _ => rfl
  simp only [rows, ← sortedAlike, List.map_map, Function.comp_def, texts_asWritten]

end Account

namespace AccountBook

variable {book other : AccountBook}

/-- Accounts in order have identifiers of their own. -/
theorem IsOrdered.nodup_ids
    (ordered : book.IsOrdered) :
    (book.accounts.map (·.id)).Nodup := by
  rw [List.Nodup, List.pairwise_map]
  refine ordered.imp fun before same => ?_
  rw [same, Std.ReflOrd.compare_self] at before
  cases before

/-- Accounts in order are written as they stand. -/
theorem IsOrdered.sorted_eq
    (ordered : book.IsOrdered) :
    Account.sorted book.accounts = book.accounts := by
  refine List.mergeSort_of_pairwise (ordered.imp fun before => ?_)
  rw [before]
  rfl

/-- The book of the accounts as they are written. -/
def asWritten (book : AccountBook) : AccountBook :=
  ⟨book.accounts.map Account.asWritten⟩

theorem find?_asWritten
    (book : AccountBook)
    (id : AccountId) :
    book.asWritten.find? id = (book.find? id).map Account.asWritten := by
  rw [find?, find?, asWritten, List.find?_map]
  rfl

theorem IsOrdered.asWritten
    (ordered : book.IsOrdered) :
    book.asWritten.IsOrdered :=
  List.pairwise_map.mpr ordered

/-- Books in order that are written alike make the same table. -/
theorem IsWrittenAs.rows_eq
    (alike : book.IsWrittenAs other)
    (ordered : book.IsOrdered)
    (otherOrdered : other.IsOrdered) :
    Account.rows book.accounts = Account.rows other.accounts := by
  have same : book.asWritten = other.asWritten := by
    apply ordered.asWritten.eq_of_find?_eq otherOrdered.asWritten
    intro id
    have pair := alike id
    rw [find?_asWritten, find?_asWritten]
    generalize book.find? id = mine at pair ⊢
    generalize other.find? id = theirs at pair ⊢
    cases pair with
    | none => rfl
    | some same => exact congrArg some same
  calc
    Account.rows book.accounts
      = Account.rows book.asWritten.accounts :=
        (Account.rows_asWritten book.accounts).symm
    _ = Account.rows other.accounts := by
        rw [same]
        exact Account.rows_asWritten other.accounts

/-- The accounts that a table of the book is read as. -/
def readBack (book : AccountBook) : List Account :=
  (Account.sorted book.accounts).map Account.asWritten

theorem IsOrdered.readBack_eq
    (ordered : book.IsOrdered) :
    book.readBack = book.accounts.map Account.asWritten := by
  rw [readBack, ordered.sorted_eq]

/-- What is read back is written as what was there. -/
theorem IsOrdered.isWrittenAs_readBack
    (ordered : book.IsOrdered) :
    book.IsWrittenAs (ofList book.readBack) := by
  rw [ordered.readBack_eq]
  intro id
  cases found : book.find? id with
  | none =>
      have nowhere :
          (ofList (book.accounts.map Account.asWritten)).find? id = none := by
        rw [ofList, find?_saveAll_of_forall_ne, find?_empty]
        intro account member same
        obtain ⟨original, among, rfl⟩ := List.mem_map.mp member
        have isFound := ordered.find?_eq_some_iff.mpr among
        rw [show original.id = id from same, found] at isFound
        cases isFound
      rw [nowhere]
      exact .none
  | some account =>
      have distinct :
          ((book.accounts.map Account.asWritten).map (·.id)).Nodup := by
        rw [List.map_map]
        exact ordered.nodup_ids
      have there :
          (ofList (book.accounts.map Account.asWritten)).find? id =
            some account.asWritten := by
        rw [← id_of_find? found]
        exact find?_saveAll_of_mem distinct
          (List.mem_map_of_mem (mem_of_find? found))
      rw [there]
      exact .some account.asWritten_asWritten.symm

/-- Accounts that are read back stand in the order that they are written in. -/
theorem keepsOrder_readBack (book : AccountBook) :
    (ofList book.readBack).KeepsOrder := by
  have written
      {account : Account}
      (member : account ∈ (ofList book.readBack).accounts) :
      account.asWritten = account := by
    rcases mem_saveAll member with among | nowhere
    · obtain ⟨original, -, rfl⟩ := List.mem_map.mp among
      exact original.asWritten_asWritten
    · cases nowhere
  intro first isFirst second isSecond
  rw [written isFirst, written isSecond]

end AccountBook

end PatronFees
