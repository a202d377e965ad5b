import PatronFees.Main
import PatronFees.Proofs.Alike
import PatronFees.Proofs.Allocation.Fair
import PatronFees.Proofs.Allocation.TrueFloor
import PatronFees.Proofs.Allocation.Unending
import PatronFees.Proofs.Batch.SideBySide
import PatronFees.Proofs.Cancellation
import PatronFees.Proofs.CoarseAccounts
import PatronFees.Proofs.EntriesFirst
import PatronFees.Proofs.Lane.Components
import PatronFees.Proofs.Ledger.AppendOnly
import PatronFees.Proofs.Lifecycle
import PatronFees.Proofs.Money.Exact
import PatronFees.Proofs.NoRequestLost
import PatronFees.Proofs.OnlyTheSet
import PatronFees.Proofs.Preview
import PatronFees.Proofs.RefundCeiling
import PatronFees.Proofs.Replay
import PatronFees.Proofs.Run.Resumed
import PatronFees.Proofs.Run.ToTheEnd
import PatronFees.Proofs.Refund.Booked
import PatronFees.Proofs.Comments
import PatronFees.Proofs.Validation.FirstBroken
import PatronFees.Proofs.Engine.NoticeServices
import PatronFees.Proofs.Engine.SideBySide
import PatronFees.Proofs.NoticesFollow
import PatronFees.Proofs.Money.Rendering
import PatronFees.Proofs.Table.Room
import PatronFees.Proofs.Money.RoundsOnce
import PatronFees.Proofs.Money.OneScale
import PatronFees.Proofs.Table.Lines
