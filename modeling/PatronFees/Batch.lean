import PatronFees.Engine.Basic
import PatronFees.Lane

namespace PatronFees

/-!
# Batches

A batch of requests is carried out lane by lane. A refused request is noted in
its result and does not stop its lane; arithmetic that leaves the range of
decimals ends the lane, and none of its results are kept.
-/

/-- How a request ended. -/
inductive Verdict where
  /-- The request was carried out and these entries were recorded. -/
  | applied (entries : List LedgerEntry)
  | refused (failure : Failure)
  deriving Repr, DecidableEq

/-- A request with its verdict. -/
structure Processed where
  request : ActionRequest
  verdict : Verdict
  deriving Repr, DecidableEq

namespace Batch

/-- Carry out a request: on one account alone, or over several. -/
def processOne
    (engine : Engine)
    (request : ActionRequest) :
    Attempt (List LedgerEntry) :=
  match request.accounts with
  | [account] => do
      let result ←
        engine.single request.kind account request.amount request.options
      return result.entries
  | accounts => do
      let result ←
        engine.bulk request.kind accounts request.amount request.options
      return result.entries

/-- The verdict on a request, unless it ends its lane. -/
def verdictOf : Outcome (List LedgerEntry) → Outcome Verdict
  | .ok entries => .ok (.applied entries)
  | .error (.failed failure) => .ok (.refused failure)
  | .error halt => .error halt

/-- Carry out a request and keep a refusal as its verdict. -/
def processKept
    (engine : Engine)
    (request : ActionRequest) :
    Attempt Processed :=
  ExceptT.mk <|
    (processOne engine request).run.bind fun outcome =>
      .done ((verdictOf outcome).map fun verdict => ⟨request, verdict⟩)

/-- Carry out the requests of a lane one after another. -/
def processLane
    (engine : Engine)
    (lane : List ActionRequest) :
    Attempt (List Processed) :=
  lane.mapM (processKept engine)

/-- Carry out lanes one after another and keep what each ended with. -/
def processLanes
    (engine : Engine) :
    List Lane → Procedure (List (Outcome (List Processed)))
  | [] => pure []
  | lane :: rest => do
      let outcome ← (processLane engine (lane.map (·.request))).run
      return outcome :: (← processLanes engine rest)

/-- Gather the results of the lanes in order; failed lanes are reported. -/
def gather :
    List (Outcome (List Processed)) → Attempt (List Processed)
  | [] => pure []
  | .ok results :: rest => do
      return results ++ (← gather rest)
  | .error .endless :: _ => throw .endless
  | .error _ :: rest => do
      Attempt.ask (.report .laneFailed)
      gather rest

/-- Carry out a batch; the results come lane by lane. -/
def process
    (engine : Engine)
    (batch : List ActionRequest) :
    Attempt (List Processed) :=
  ExceptT.mk <|
    (processLanes engine (Lane.ofBatch batch)).bind fun outcomes =>
      (gather outcomes).run

end Batch

end PatronFees
