import PatronFees.Comments
import PatronFees.Ledger.Entry

namespace PatronFees

/-!
# Events

What is reported while requests are carried out and files are read: notices
sent to patrons, and everything that was skipped, refused or failed.
-/

/-- Something worth reporting. -/
inductive Event where
  | noticeSent (posting : Posting)
  | noticeUndelivered (failure : NoticeFailure)
  /-- Shares that do not add up to the total over a number of targets. -/
  | unbalancedAllocation (total allocated : String) (targets : Nat)
  /-- A lane of requests ended without results. -/
  | laneFailed
  | requestRefused (request : ActionRequest) (failure : Failure)
  | recordInvalid (line : Nat) (failure : Failure)
  | recordUnreadable (line : Nat)
  | emptyBatchSize
  | noWorkers
  deriving Repr, DecidableEq

namespace Event

def message : Event → String
  | .noticeSent _ => "patron notice"
  | .noticeUndelivered _ => "patron notice not delivered"
  | .unbalancedAllocation _ _ _ =>
      "allocation does not add up to the requested total"
  | .laneFailed => "action lane task failed"
  | .requestRefused _ _ => "action rejected"
  | .recordInvalid _ _ => "skipping invalid record"
  | .recordUnreadable _ => "skipping unreadable record"
  | .emptyBatchSize => "invalid batch_size, using default"
  | .noWorkers => "invalid worker_threads, using default"

/-- How much has to be logged for an event to be among it. -/
def verbosity : Event → Nat
  | .unbalancedAllocation _ _ _ | .laneFailed => 1
  | .noticeUndelivered _ | .requestRefused _ _ | .recordInvalid _ _
  | .recordUnreadable _ | .emptyBatchSize | .noWorkers => 2
  | .noticeSent _ => 3

/-- What an event is about, as far as it has a cause or a place. -/
def detail : Event → String
  | .noticeSent posting => s!" on {posting.account}: {posting.actionType}"
  | .noticeUndelivered failure => s!": {failure.message}"
  | .unbalancedAllocation total allocated _ => s!": {allocated} of {total}"
  | .requestRefused request failure => s!" ({request.kind.name}): {failure.message}"
  | .recordInvalid line failure => s!" in line {line}: {failure.message}"
  | .recordUnreadable line => s!" in line {line}"
  | .laneFailed | .emptyBatchSize | .noWorkers => ""

/-- An event as it is logged. -/
def logLine (event : Event) : String :=
  event.message ++ event.detail ++ "\n"

end Event

/-- What the patron is told by a notice, beside the figures. -/
def Posting.noticeMessage (posting : Posting) : String :=
  (posting.comments.bind Comments.patronMessage?).getD ""

end PatronFees
