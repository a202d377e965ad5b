import PatronFees.Engine.Procedure
import PatronFees.Proofs.Batch.Books

namespace PatronFees

/-!
# Desks

Where procedures take turns, each works at a desk of its own. The desk has the
books as far as they concern the accounts of its procedure, the identifiers that
were drawn and not yet used, and the number of those that may still be drawn. A
procedure ensures a goal if it makes only requests that its desk permits and,
answered as the desk expects, ends in the goal.
-/

namespace Request

/-- The entries that a request puts in the ledger. -/
def recorded : Request → List LedgerEntry
  | .recordEntry entry => [entry]
  | .recordBatch entries => entries
  | .loadAccounts _ | .readHistory _ _ | .drawStamp | .saveAccount _ |
    .sendNotice _ | .report _ => []

/-- The identifiers that a request puts in the ledger. -/
def uses (request : Request) : List EntryId :=
  request.recorded.map (·.id)

/-- The number of identifiers that a request draws. -/
def draws : Request → Nat
  | .drawStamp => 1
  | .loadAccounts _ | .readHistory _ _ | .recordEntry _ | .recordBatch _ |
    .saveAccount _ | .sendNotice _ | .report _ => 0

/-- A request records entries on the accounts that it is about. -/
theorem account_mem_of_mem_recorded
    {request : Request}
    {entry : LedgerEntry}
    (member : entry ∈ request.recorded) :
    entry.account ∈ request.accounts := by
  cases request with
  | recordEntry recorded =>
      rw [List.mem_singleton.mp member]
      exact List.mem_singleton_self _
  | recordBatch entries =>
      exact List.mem_map_of_mem member
  | loadAccounts | readHistory | drawStamp | saveAccount | sendNotice | report =>
      cases member

end Request

/-- What a procedure goes by that takes turns with others. -/
structure Desk where
  books : Books
  /-- Identifiers that were drawn and not used yet, in the order of drawing. -/
  drawn : List EntryId
  /-- How many identifiers may still be drawn. -/
  budget : Nat
  deriving DecidableEq

namespace Desk

/-- The request is about the given accounts and uses what was drawn for it. -/
structure Permits
    (desk : Desk)
    (ids : List AccountId)
    (request : Request) : Prop where
  named : request.accounts ⊆ ids
  used : request.uses <+: desk.drawn
  allowed : request.draws ≤ desk.budget

/-- The request is answered from the books, and nothing is refused. -/
def Expects (desk : Desk) : (request : Request) → request.Reply → Prop
  | .loadAccounts ids, reply => reply = .ok (desk.books.accounts.only ids)
  | .readHistory ids kinds, reply =>
      ∃ entries : List LedgerEntry,
        reply = .ok entries ∧ entries.map (·.posting) = desk.books.find ids kinds
  | .recordEntry _, reply => reply = .ok ()
  | .recordBatch _, reply => reply = .ok ()
  | .saveAccount _, reply => reply = .ok ()
  | .sendNotice _, reply => reply = .ok ()
  | .drawStamp, _ => True
  | .report _, _ => True

/-- The desk once a request was answered. -/
def answered (desk : Desk) : (request : Request) → request.Reply → Desk
  | .drawStamp, stamp =>
      { desk with
        drawn := desk.drawn ++ [stamp.id]
        budget := desk.budget - 1 }
  | .recordEntry entry, _ =>
      { desk with
        books := desk.books.post [entry.posting]
        drawn := desk.drawn.drop 1 }
  | .recordBatch entries, _ =>
      { desk with
        books := desk.books.post (entries.map (·.posting))
        drawn := desk.drawn.drop entries.length }
  | .saveAccount account, _ => { desk with books := desk.books.save account }
  | .loadAccounts _, _ => desk
  | .readHistory _ _, _ => desk
  | .sendNotice _, _ => desk
  | .report _, _ => desk

/-- The books of the desk change as the request says. -/
theorem books_answered
    (desk : Desk)
    (request : Request)
    (reply : request.Reply) :
    (desk.answered request reply).books = request.change desk.books := by
  cases request <;> rfl

end Desk

/--
The procedure makes requests about the given accounts that its desk permits, and
if they are answered as the desk expects, it ends in the goal.
-/
def Procedure.Ensures
    {Result : Type}
    (ids : List AccountId)
    (goal : Result → Desk → Prop) :
    Procedure Result → Desk → Prop
  | .done result, desk => goal result desk
  | .ask request next, desk =>
      desk.Permits ids request ∧
        ∀ reply,
          desk.Expects request reply →
            (next reply).Ensures ids goal (desk.answered request reply)

/-- A procedure bound to another ensures what the other does from its goal on. -/
theorem Procedure.ensures_bind
    {First Second : Type}
    {ids : List AccountId}
    {between : First → Desk → Prop}
    {goal : Second → Desk → Prop}
    {procedure : Procedure First}
    {next : First → Procedure Second}
    {desk : Desk}
    (first : procedure.Ensures ids between desk)
    (onward :
      ∀ result after,
        between result after → (next result).Ensures ids goal after) :
    (procedure.bind next).Ensures ids goal desk := by
  induction procedure generalizing desk with
  | done result =>
      exact onward result desk first
  | ask request reply inductionHypothesis =>
      exact ⟨first.1, fun answer expected =>
        inductionHypothesis answer (first.2 answer expected)⟩

/-- What an attempt ensures is what its procedure does. -/
def Attempt.Ensures
    {Result : Type}
    (ids : List AccountId)
    (goal : Outcome Result → Desk → Prop)
    (attempt : Attempt Result)
    (desk : Desk) : Prop :=
  Procedure.Ensures ids goal (ExceptT.run attempt) desk

/-- The attempt ends with a result, of which and the desk then a fact holds. -/
def Attempt.Yields
    {Result : Type}
    (ids : List AccountId)
    (fact : Result → Desk → Prop) :
    Attempt Result → Desk → Prop :=
  Ensures ids fun outcome after =>
    ∃ result, outcome = .ok result ∧ fact result after

namespace Attempt

variable {First Second : Type} {ids : List AccountId} {desk : Desk}
  {attempt : Attempt First} {next : First → Attempt Second}
  {goal : Outcome Second → Desk → Prop}

/-- An attempt that may halt is followed by another if it has a result. -/
theorem ensures_bind
    {between : Outcome First → Desk → Prop}
    (first : attempt.Ensures ids between desk)
    (onward :
      ∀ result after,
        between (.ok result) after → (next result).Ensures ids goal after)
    (halted :
      ∀ halt after, between (.error halt) after → goal (.error halt) after) :
    (attempt >>= next).Ensures ids goal desk := by
  refine Procedure.ensures_bind first fun outcome after reached => ?_
  cases outcome with
  | ok result => exact onward result after reached
  | error halt => exact halted halt after reached

/-- An attempt that has a result is followed by another. -/
theorem ensures_bind_of_yields
    {fact : First → Desk → Prop}
    (first : attempt.Yields ids fact desk)
    (onward :
      ∀ result after,
        fact result after → (next result).Ensures ids goal after) :
    (attempt >>= next).Ensures ids goal desk := by
  refine ensures_bind first ?_ ?_
  · rintro result after ⟨_, same, holds⟩
    obtain rfl := Except.ok.inj same
    exact onward result after holds
  · rintro halt after ⟨_, never, -⟩
    cases never

/-- A request that the desk permits is answered as it expects. -/
theorem ensures_ask_bind
    {request : Request}
    {next : request.Reply → Attempt Second}
    (permitted : desk.Permits ids request)
    (onward :
      ∀ reply,
        desk.Expects request reply →
          (next reply).Ensures ids goal (desk.answered request reply)) :
    (Attempt.ask request >>= next).Ensures ids goal desk :=
  ⟨permitted, onward⟩

/-- What is made of a result needs no request. -/
theorem ensures_map
    {make : First → Second}
    (ensured :
      attempt.Ensures ids (fun outcome after => goal (outcome.map make) after)
        desk) :
    (attempt >>= fun result => pure (make result)).Ensures ids goal desk :=
  ensures_bind ensured (fun _ _ reached => reached) (fun _ _ reached => reached)

/-- What is made of the result of an outcome needs no request. -/
theorem ensures_ofOutcome_map
    {outcome : Outcome First}
    {make : First → Second}
    (reached : goal (outcome >>= fun result => pure (make result)) desk) :
    (ofOutcome outcome >>= fun result => pure (make result)).Ensures ids goal
      desk := by
  cases outcome <;> exact reached

end Attempt

end PatronFees
