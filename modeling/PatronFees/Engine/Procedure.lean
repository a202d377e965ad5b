import PatronFees.AccountBook
import PatronFees.Event

namespace PatronFees

/-!
# Procedures

Carrying out an action is a conversation with the stores of accounts and of
ledger entries and with those who send notices. A procedure is such a
conversation: it ends with a result, or it makes one request and goes on as the
reply tells it to. What answers the requests is left open, so that the same
procedure can be run against stores that work, against stores that fail, and a
request at a time in turns with other procedures.
-/

/-- One request that a procedure makes. -/
inductive Request where
  | loadAccounts (ids : List AccountId)
  | readHistory (ids : List AccountId) (kinds : List ActionKind)
  /-- Ask for the identifier and time of a new ledger entry. -/
  | drawStamp
  | recordEntry (entry : LedgerEntry)
  /-- Record all entries or none. -/
  | recordBatch (entries : List LedgerEntry)
  | saveAccount (account : Account)
  | sendNotice (entry : LedgerEntry)
  | report (event : Event)
  deriving Repr, DecidableEq

/-- What a request is answered with. -/
abbrev Request.Reply : Request → Type
  | .loadAccounts _ => Except StoreFailure AccountBook
  | .readHistory _ _ => Except StoreFailure (List LedgerEntry)
  | .drawStamp => Stamp
  | .recordEntry _ => Except StoreFailure Unit
  | .recordBatch _ => Except StoreFailure Unit
  | .saveAccount _ => Except StoreFailure Unit
  | .sendNotice _ => Except NoticeFailure Unit
  | .report _ => Unit

/-- A conversation that ends with a result. -/
inductive Procedure (Result : Type) where
  | done (result : Result)
  | ask (request : Request) (next : request.Reply → Procedure Result)

namespace Procedure

/-- Go on with another procedure once there is a result. -/
def bind
    {First Second : Type}
    (procedure : Procedure First)
    (continuation : First → Procedure Second) :
    Procedure Second :=
  match procedure with
  | .done result => continuation result
  | .ask request next =>
      .ask request fun reply => (next reply).bind continuation

instance : Monad Procedure where
  pure := .done
  bind := bind

/-- Make one request and end with its reply. -/
def request (request : Request) : Procedure request.Reply :=
  .ask request .done

/-- Run a procedure against a state that answers its requests. -/
def run
    {State Result : Type}
    (answer : (request : Request) → State → request.Reply × State) :
    Procedure Result → State → Result × State
  | .done result, state => (result, state)
  | .ask request next, state =>
      let (reply, after) := answer request state
      (next reply).run answer after

end Procedure

/-- A procedure that may halt before it has a result. -/
abbrev Attempt (Result : Type) := ExceptT Halt Procedure Result

namespace Attempt

/-- The attempt that asks nothing and ends with an outcome. -/
def ofOutcome
    {Result : Type}
    (outcome : Outcome Result) :
    Attempt Result :=
  ExceptT.mk (.done outcome)

/-- Make a request that cannot fail. -/
def ask (request : Request) : Attempt request.Reply :=
  ExceptT.mk ((Procedure.request request).bind fun reply => .done (.ok reply))

/-- The reply of a store; its failure halts the attempt. -/
def ofStore
    {Result : Type}
    (reply : Except StoreFailure Result) :
    Attempt Result :=
  match reply with
  | .ok result => ofOutcome (.ok result)
  | .error failure => ofOutcome (Outcome.fail (.store failure))

end Attempt

end PatronFees
