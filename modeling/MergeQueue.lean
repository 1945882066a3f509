import MergeQueue.Text.Basic
import MergeQueue.Change
import MergeQueue.Queue
import MergeQueue.Json.Form
import MergeQueue.Timestamp
import MergeQueue.Settings
import MergeQueue.Form
import MergeQueue.Snapshot
import MergeQueue.Service.Request
import MergeQueue.Service
import MergeQueue.Service.Run
import MergeQueue.Lane.Lemmas
import MergeQueue.Requirement
import MergeQueue.Lane.Run
import MergeQueue.Queue.Run
import MergeQueue.Proofs.Json.Scan
import MergeQueue.Proofs.Json.Recover
import MergeQueue.Proofs.Timestamp.Calendar
import MergeQueue.Proofs.Timestamp.Text
import MergeQueue.Proofs.Service.Forms
import MergeQueue.Proofs.Service.Handle
import MergeQueue.Proofs.Lane.Batches
import MergeQueue.Proofs.Lane.Shaped
import MergeQueue.Proofs.Lane.WellFormed
import MergeQueue.Proofs.Drain
import MergeQueue.Proofs.Lane.Drain
import MergeQueue.Proofs.Requirement.Closure
import MergeQueue.Proofs.Lane.UnderTest
import MergeQueue.Proofs.Queue.Settle
import MergeQueue.Proofs.Queue.Cases
import MergeQueue.Proofs.Queue.History
import MergeQueue.Proofs.Queue.UnderTest
import MergeQueue.Proofs.Queue.Conservation
import MergeQueue.Proofs.Queue.KeyHistory
import MergeQueue.Proofs.Queue.Keys
import MergeQueue.Proofs.Queue.Precedence
import MergeQueue.Proofs.Requirement.Subpool
import MergeQueue.Proofs.Queue.Layered
import MergeQueue.Proofs.Queue.Drain
import MergeQueue.Proofs.Queue.Blame
import MergeQueue.Proofs.Queue.Settled
import MergeQueue.Proofs.Queue.Reopen
import MergeQueue.Proofs.Service.Durable
import MergeQueue.Proofs.Service.Restart
import MergeQueue.Proofs.Queue.Missing
import MergeQueue.Proofs.Queue.WaitingOrder
import MergeQueue.Proofs.Queue.Confluence
import MergeQueue.Proofs.Lane.ArrivalOrder
import MergeQueue.Proofs.Queue.LaneActions
import MergeQueue.Proofs.Queue.Parts
import MergeQueue.Proofs.Lane.Exchange
import MergeQueue.Proofs.Lane.Renaming
import MergeQueue.Proofs.Queue.Plain
import MergeQueue.Proofs.Requirement.Search
import MergeQueue.Proofs.Queue.LeastAdmission
import MergeQueue.Proofs.Queue.Submission
import MergeQueue.Proofs.Queue.Cascade
import MergeQueue.Proofs.Lane.Withdrawal
