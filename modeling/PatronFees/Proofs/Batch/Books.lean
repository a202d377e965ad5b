import PatronFees.Engine.Office
import PatronFees.Proofs.AccountBook
import PatronFees.Proofs.Ledger

namespace PatronFees

/-!
# Books

The books of an office are its accounts and what was posted, without the stamps.
Two books can be the same on some accounts and differ on others. A request of a
procedure reads and changes the books on the accounts it is about: books that
are the same there stay the same there, and nothing changes elsewhere.
-/

/-- The posting's kind is among the given ones. -/
def Posting.isOneOf
    (kinds : List ActionKind)
    (posting : Posting) : Bool :=
  match posting.kind? with
  | some kind => kinds.contains kind
  | none => false

/-- Accounts and what was posted, in the order of recording. -/
structure Books where
  accounts : AccountBook
  postings : List Posting
  deriving Repr, DecidableEq

namespace Books

variable {ids others : List AccountId} {books changed : Books}

/-- What was posted on the given accounts, of the given kinds or of any. -/
def find
    (books : Books)
    (ids : List AccountId)
    (kinds : List ActionKind) : List Posting :=
  books.postings.filter fun posting =>
    ids.contains posting.account && (kinds.isEmpty || posting.isOneOf kinds)

/-- What was posted on one account. -/
def historyOf
    (books : Books)
    (id : AccountId) : List Posting :=
  books.postings.filter (·.account == id)

/-- Post on accounts. -/
def post
    (books : Books)
    (postings : List Posting) : Books :=
  { books with postings := books.postings ++ postings }

def save
    (books : Books)
    (account : Account) : Books :=
  { books with accounts := books.accounts.save account }

/-- The books have the same accounts and postings under some identifiers. -/
structure SameOn
    (ids : List AccountId)
    (books others : Books) : Prop where
  account_eq :
    ∀ id ∈ ids, books.accounts.find? id = others.accounts.find? id
  postings_eq :
    books.postings.filter (ids.contains ·.account) =
      others.postings.filter (ids.contains ·.account)

namespace SameOn

theorem refl
    (ids : List AccountId)
    (books : Books) :
    SameOn ids books books :=
  ⟨fun _ _ => rfl, rfl⟩

theorem symm
    (same : SameOn ids books changed) :
    SameOn ids changed books :=
  ⟨fun id member => (same.account_eq id member).symm, same.postings_eq.symm⟩

theorem trans
    {last : Books}
    (same : SameOn ids books changed)
    (onward : SameOn ids changed last) :
    SameOn ids books last :=
  ⟨fun id member =>
      (same.account_eq id member).trans (onward.account_eq id member),
    same.postings_eq.trans onward.postings_eq⟩

/-- Picking fewer accounts first does not matter. -/
theorem filter_filter_of_subset
    (part : others ⊆ ids)
    (postings : List Posting) :
    (postings.filter (ids.contains ·.account)).filter
        (others.contains ·.account) =
      postings.filter (others.contains ·.account) := by
  rw [List.filter_filter]
  apply List.filter_congr
  intro posting _
  by_cases among : posting.account ∈ others
  · simp [among, part among]
  · simp [among]

/-- Books that are the same on some accounts are so on fewer. -/
theorem of_subset
    (same : SameOn ids books changed)
    (part : others ⊆ ids) :
    SameOn others books changed where
  account_eq := fun id member => same.account_eq id (part member)
  postings_eq := by
    rw [← filter_filter_of_subset part, same.postings_eq,
      filter_filter_of_subset part]

/-- Books that are the same on some accounts are so on each. -/
theorem of_mem
    (same : SameOn ids books changed)
    {id : AccountId}
    (member : id ∈ ids) :
    SameOn [id] books changed :=
  same.of_subset (List.cons_subset.mpr ⟨member, List.nil_subset _⟩)

/-- The same accounts are found. -/
theorem only_eq
    (same : SameOn ids books changed)
    (part : others ⊆ ids) :
    books.accounts.only others = changed.accounts.only others := by
  rw [AccountBook.only, AccountBook.only]
  congr 1
  exact List.filterMap_congr fun id member => same.account_eq id (part member)

/-- The same postings are found. -/
theorem find_eq
    (same : SameOn ids books changed)
    (part : others ⊆ ids)
    (kinds : List ActionKind) :
    books.find others kinds = changed.find others kinds := by
  have picked (some : Books) :
      some.find others kinds =
        (some.postings.filter (others.contains ·.account)).filter fun posting =>
          kinds.isEmpty || posting.isOneOf kinds := by
    rw [find, List.filter_filter]
    simp only [Bool.and_comm]
  rw [picked, picked, (same.of_subset part).postings_eq]

/-- Each of the accounts has the same history. -/
theorem historyOf_eq
    (same : SameOn ids books changed)
    {id : AccountId}
    (member : id ∈ ids) :
    books.historyOf id = changed.historyOf id := by
  have one (some : Books) :
      some.historyOf id = some.postings.filter ([id].contains ·.account) := by
    rw [historyOf]
    apply List.filter_congr
    intro posting _
    rw [Bool.eq_iff_iff, beq_iff_eq, List.contains_iff_mem, List.mem_singleton]
  rw [one, one]
  exact (same.of_mem member).postings_eq

/-- The same postings keep books the same. -/
theorem post
    (same : SameOn ids books changed)
    (postings : List Posting) :
    SameOn ids (books.post postings) (changed.post postings) where
  account_eq := same.account_eq
  postings_eq := by
    rw [Books.post, Books.post, List.filter_append, List.filter_append,
      same.postings_eq]

/-- The same account, saved in both, keeps books the same. -/
theorem save
    (same : SameOn ids books changed)
    (account : Account) :
    SameOn ids (books.save account) (changed.save account) where
  account_eq := by
    intro id member
    rw [Books.save, Books.save, AccountBook.find?_save, AccountBook.find?_save,
      same.account_eq id member]
  postings_eq := same.postings_eq

/-- What is posted on other accounts leaves the books the same. -/
theorem of_post
    {postings : List Posting}
    (elsewhere : ∀ posting ∈ postings, posting.account ∉ ids) :
    SameOn ids books (books.post postings) where
  account_eq := fun _ _ => rfl
  postings_eq := by
    have none :
        postings.filter (ids.contains ·.account) = [] := by
      apply List.filter_eq_nil_iff.mpr
      intro posting member contained
      exact elsewhere posting member (List.contains_iff_mem.mp contained)
    rw [Books.post, List.filter_append, none, List.append_nil]

/-- Another account, once saved, leaves the books the same. -/
theorem of_save
    {account : Account}
    (elsewhere : account.id ∉ ids) :
    SameOn ids books (books.save account) where
  account_eq := by
    intro id member
    rw [Books.save, AccountBook.find?_save, if_neg]
    intro same
    exact elsewhere (same ▸ member)
  postings_eq := rfl

section SavingAll

variable {accounts : List Account}

/-- The same accounts, saved in both, keep books the same. -/
theorem saveAll
    (same : SameOn ids books changed)
    (accounts : List Account) :
    SameOn ids (accounts.foldl Books.save books)
      (accounts.foldl Books.save changed) := by
  induction accounts generalizing books changed with
  | nil =>
      exact same
  | cons account rest inductionHypothesis =>
      exact inductionHypothesis (same.save account)

/-- Other accounts, once saved, leave the books the same. -/
theorem of_saveAll
    (elsewhere : ∀ account ∈ accounts, account.id ∉ ids) :
    SameOn ids books (accounts.foldl Books.save books) := by
  induction accounts generalizing books with
  | nil =>
      exact .refl ids books
  | cons account rest inductionHypothesis =>
      have first : SameOn ids books (books.save account) :=
        .of_save (elsewhere account List.mem_cons_self)
      exact first.trans (inductionHypothesis
        fun other member => elsewhere other (List.mem_cons_of_mem _ member))

end SavingAll

end SameOn

end Books

/-- The books of an office. -/
def Office.books (office : Office) : Books :=
  ⟨office.accounts, office.ledger.entries.map (·.posting)⟩

namespace Request

/-- The accounts that a request reads or changes. -/
def accounts : Request → List AccountId
  | .loadAccounts ids => ids
  | .readHistory ids _ => ids
  | .recordEntry entry => [entry.account]
  | .recordBatch entries => entries.map (·.account)
  | .saveAccount account => [account.id]
  | .drawStamp | .sendNotice _ | .report _ => []

/-- What a request that is granted makes of the books. -/
def change (books : Books) : Request → Books
  | .recordEntry entry => books.post [entry.posting]
  | .recordBatch entries => books.post (entries.map (·.posting))
  | .saveAccount account => books.save account
  | .loadAccounts _ | .readHistory _ _ | .drawStamp | .sendNotice _ | .report _ =>
      books

variable {request : Request} {ids : List AccountId} {books others : Books}

/-- A request keeps books the same on any accounts. -/
theorem change_sameOn
    (same : Books.SameOn ids books others) :
    Books.SameOn ids (request.change books) (request.change others) := by
  cases request with
  | recordEntry entry => exact same.post _
  | recordBatch entries => exact same.post _
  | saveAccount account => exact same.save account
  | loadAccounts | readHistory | drawStamp | sendNotice | report => exact same

/-- A request changes nothing on accounts that it is not about. -/
theorem sameOn_change
    (apart : ids.Disjoint request.accounts) :
    Books.SameOn ids books (request.change books) := by
  cases request with
  | recordEntry entry =>
      apply Books.SameOn.of_post
      intro posting member
      rw [List.mem_singleton.mp member]
      exact fun among => apart among (List.mem_singleton_self _)
  | recordBatch entries =>
      apply Books.SameOn.of_post
      intro posting member among
      obtain ⟨entry, inside, rfl⟩ := List.mem_map.mp member
      exact apart among (List.mem_map_of_mem inside)
  | saveAccount account =>
      exact .of_save fun among => apart among (List.mem_singleton_self _)
  | loadAccounts | readHistory | drawStamp | sendNotice | report =>
      exact .refl ids books

end Request

end PatronFees
