import PatronFees.Account

namespace PatronFees

/-!
# Account books

An account book holds one account for each identifier and lists them in the
order of their identifiers. Saving an account replaces the one it had before.
-/

/-- Accounts by identifier. -/
structure AccountBook where
  /-- The accounts in the order of their identifiers. -/
  accounts : List Account
  deriving Repr, DecidableEq

namespace AccountBook

def empty : AccountBook :=
  ⟨[]⟩

/-- Put an account in its place, in the stead of one with its identifier. -/
def place (account : Account) : List Account → List Account
  | [] => [account]
  | first :: rest =>
      match compare account.id first.id with
      | .lt => account :: first :: rest
      | .eq => account :: rest
      | .gt => first :: place account rest

def save
    (book : AccountBook)
    (account : Account) : AccountBook :=
  ⟨place account book.accounts⟩

def find?
    (book : AccountBook)
    (id : AccountId) :
    Option Account :=
  book.accounts.find? (·.id == id)

/-- The book of the given accounts; of several with one identifier, the last. -/
def ofList (accounts : List Account) : AccountBook :=
  accounts.foldl save empty

/-- The part of the book with the given identifiers, as far as it has them. -/
def only
    (book : AccountBook)
    (ids : List AccountId) : AccountBook :=
  ofList (ids.filterMap book.find?)

def size (book : AccountBook) : Nat :=
  book.accounts.length

def isEmpty (book : AccountBook) : Bool :=
  book.accounts.isEmpty

end AccountBook

end PatronFees
