import VThread.Lib.Checked
import VThread.Lib.Digraph
import VThread.Lib.Patricia
import VThread.Cancellation.IdSet
import VThread.Cancellation.Signature
import VThread.Cancellation.Graph
import VThread.Cancellation.Invariant
import VThread.Cancellation.Rewrite
import VThread.Cancellation.Compaction
import VThread.Cancellation.Normalize
import VThread.Cancellation.Loop
import VThread.Cancellation.Operations
import VThread.Cancellation.Removal
import VThread.Cancellation.Marking
import VThread.Cancellation.Reference
import VThread.Cancellation.Structure
import VThread.Lib.Transition
import VThread.Wait.Word
import VThread.Wait.Packed
import VThread.Wait.Cell
import VThread.Wait.Invariant
import VThread.Wait.Preservation
import VThread.Wait.Interference
import VThread.Wait.Decisions
import VThread.Wait.Steps
import VThread.Wait.Winner
import VThread.Wait.Completion
import VThread.Lib.Chain
import VThread.Lib.Mailbox
import VThread.Wake.Selection
import VThread.Wake.Queue
import VThread.Wake.Invariant
import VThread.Wake.Producer
import VThread.Wake.Consumer
import VThread.Wake.Delivery
import VThread.Wait.Parking
import VThread.Mutex.Exclusive
import VThread.Mutex.Queue
import VThread.Mutex.Line
import VThread.Mutex.Invariant
import VThread.Mutex.Views
import VThread.Mutex.Steps
import VThread.Mutex.Tickets
import VThread.Mutex.Ownership
import VThread.Carrier.Inbox
import VThread.Carrier.Local
import VThread.Carrier.Sleep
import VThread.Carrier.Watch
import VThread.Lib.Placement
import VThread.Blocking.Pool
import VThread.Blocking.Invariant
import VThread.Blocking.Steps
import VThread.Blocking.Custody
import VThread.Blocking.Conservation
import VThread.Wait.Passed
import VThread.Inherited.Slot
import VThread.Inherited.Domain
import VThread.Inherited.Invariant
import VThread.Inherited.Frame
import VThread.Inherited.Nodes
import VThread.Inherited.Cancelling
import VThread.Inherited.Registering
import VThread.Inherited.Steps
import VThread.Inherited.Delivery
import VThread.Progress.Reason
import VThread.Progress.Snapshot
import VThread.Progress.Reports
import VThread.Ready.Queue
import VThread.Ready.Service
import VThread.Lib.Census
import VThread.Evidence.Stream
import VThread.Evidence.Steps
import VThread.Evidence.Conservation
import VThread.Lib.Rounds
import VThread.Parity.Mailbox
import VThread.Parity.Delivery
import VThread.Join.Completion
import VThread.Join.Subscribers
import VThread.Policy.Tree
import VThread.Policy.Deadline
import VThread.Policy.Lineage
import VThread.Policy.Inheritance
import VThread.Await.Target
import VThread.Await.Steps
import VThread.Await.Counts
import VThread.Await.Handshake
import VThread.Ready.Inspection
import VThread.Cancellation.Sharing
import VThread.Cancellation.Merging
import VThread.Inherited.Rejection
import VThread.Checkpoint.Policy
import VThread.Checkpoint.Invariant
import VThread.Checkpoint.Agreement
import VThread.Lib.SwapRemove
import VThread.Kernel.Tasks
import VThread.Kernel.State
import VThread.Kernel.Cleanup
import VThread.Kernel.Drive
import VThread.Kernel.Steps
import VThread.Kernel.Invariant
import VThread.Kernel.Generations
import VThread.Kernel.Discarding
import VThread.Kernel.Starting
import VThread.Kernel.Deferral
import VThread.Kernel.Aborting
import VThread.Kernel.Revoking
import VThread.Kernel.Waking
import VThread.Kernel.Running
import VThread.Kernel.Dispatch
import VThread.Kernel.Receiving
import VThread.Kernel.Barring
import VThread.Kernel.Selecting
import VThread.Kernel.Ticking
import VThread.Kernel.Controlling
import VThread.Kernel.Calls
import VThread.Kernel.Partition
import VThread.Kernel.Routes
import VThread.Kernel.Borrowed
import VThread.Kernel.Requested
import VThread.Kernel.Deferred
import VThread.Evidence.Loss
import VThread.Evidence.Depth
import VThread.Kernel.Admission
import VThread.Scope.Registry
import VThread.Scope.Completions
import VThread.Scope.Registered
import VThread.Scope.Failed
import VThread.Scope.Spawn
import VThread.Stack.Lease
import VThread.Stack.Lifecycle
import VThread.Lifecycle.Runtime
import VThread.Lifecycle.Owner
import VThread.Lifecycle.Invariant
import VThread.Lifecycle.Steps
import VThread.Lifecycle.Ownership
import VThread.Stack.Execution
import VThread.Stack.Protocol
import VThread.Recorded.Events
import VThread.Recorded.Cells
import VThread.Recorded.Turns
import VThread.Recorded.Invariant
import VThread.Recorded.Steps
import VThread.Recorded.Calls
import VThread.Recorded.Runs
import VThread.Recorded.Order
import VThread.Lib.Ordered
import VThread.Timer.Queue
import VThread.Timer.Exact
import VThread.Lib.Word
import VThread.Stack.Cookies
import VThread.Stack.Mapping
import VThread.Stack.Placement
import VThread.Progress.Counters
import VThread.Progress.Batches
import VThread.Locals.Context
import VThread.Locals.Invariant
import VThread.Locals.Teardown
import VThread.Locals.Kept
import VThread.Readiness.Reactor
import VThread.Readiness.Accounts
import VThread.Readiness.Registrations
import VThread.Readiness.Settled
import VThread.Lib.Ledger
import VThread.Gate.Permits
import VThread.Gate.Queue
import VThread.Gate.Invariant
import VThread.Gate.Views
import VThread.Gate.Steps
import VThread.Gate.Tickets
import VThread.Gate.Sections
import VThread.Gate.Reachable
import VThread.Gate.Flow
import VThread.Gate.Balance
import VThread.Gate.Notify
import VThread.Gate.Semaphore
import VThread.Gate.Ended
import VThread.Gate.Closed
import VThread.Lib.Fifo
import VThread.Lib.Turns
import VThread.Channel.Core
import VThread.Channel.Invariant
import VThread.Channel.Sections
import VThread.Channel.Steps
import VThread.Channel.Traffic
import VThread.Lib.Bisect
import VThread.Scope.Erased
import VThread.Scope.Listed
import VThread.Scope.Failure
