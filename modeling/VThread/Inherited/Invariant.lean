import VThread.Inherited.Domain
import VThread.Wait.Passed

/-!
# The invariant of a cancellation domain

The shared part says that the node flags are those of the reference graph, that a slot
holds exactly the word of its subscription, and that the generation of a subscription to
a cancelled token has passed unless its registration or a canceller still has to select
it.  The local part says which nodes a canceller still owes and where it read a wait.
-/

namespace VThread.Inherited

open VThread.Lib VThread.Wait VThread.Cancellation

variable {ι τ ρ η : Type}

/-! ## The shared invariant -/

/-- The graph, the flags and the strong references agree. -/
structure GraphInv (world : World Nat) (strong : Finset Nat) (leaving : Nat → Option Bool)
    (retired : List Nat) (cancelled : Nat → Bool) (requested returned : List Nat) : Prop where
  agrees : world.Agrees
  handle : ∀ node ∈ world.live, world.handle node = some node
  strong_live : ∀ node ∈ strong, node ∈ world.live
  leaving_live : ∀ node flag, leaving node = some flag → node ∈ world.live ∧ node ∉ strong ∧
    node ∉ retired
  retired_live : ∀ node ∈ retired, node ∈ world.live ∧ node ∉ strong
  nodup : retired.Nodup
  flags : ∀ node ∈ strong, (cancelled node = true ↔ world.reference.cancelled node)
  requested_marks : ∀ root ∈ requested, root < world.reference.count ∧
    ∀ node, world.reference.Descends root node → world.reference.cancelled node
  returned_requested : ∀ root ∈ returned, root ∈ requested

/-- Every cell is in a reachable state of its own program. -/
def CellsInv [DecidableEq ι] [DecidableEq τ] [DecidableEq ρ] [DecidableEq η]
    (cells : Nat → Threads ι (Wait.Shared ι τ ρ η) (Wait.Pc τ ρ η)) : Prop :=
  ∀ cell, (cellSystem ι τ ρ η).Reachable (cells cell) ∧ (cells cell).shared.cell.id = cell

/-- The generation a token names is no longer active. -/
def Passed (cells : Nat → Threads ι (Wait.Shared ι τ ρ η) (Wait.Pc τ ρ η))
    (token : ParkToken) : Prop :=
  (cells token.wait).shared.Passed token.generation

namespace Domain

variable (domain : Domain ι τ ρ η)

/-- Nodes that were inserted. -/
def Born (node : Nat) : Prop := node < domain.world.reference.count

/-- How the word of a subscription leads to its cell. -/
def Route (subscription : Subscription) : Prop :=
  (subscription.active.kind = 0#64 ∧
      subscription.active.generation = subscription.token.generation ∧
      (domain.slots subscription.node).primary = some subscription.token.wait) ∨
    (subscription.active.kind = Active.resident ∧
      subscription.active.generation = subscription.token.generation ∧
      (domain.slots subscription.node).resident = some subscription.token.wait) ∨
    subscription.active.kind = Active.fallback

/-- A subscription that was made at some time. -/
structure Registered (subscription : Subscription) : Prop where
  born : domain.Born subscription.node
  serial : subscription.serial < domain.registrations.length
  nonzero : subscription.active ≠ 0#64
  positive : 0 < subscription.token.generation
  issued : subscription.token.generation ≤
    (domain.cells subscription.token.wait).shared.issued
  route : domain.Route subscription

/-- The subscription that holds the slot of a node. -/
structure Subscribed (node : Nat) (subscription : Subscription) : Prop where
  node_eq : subscription.node = node
  registered : subscription ∈ domain.registrations
  undropped : subscription ∉ domain.dropped
  active_eq : (domain.slots node).active = subscription.active
  entry : subscription.active.kind = Active.fallback →
    domain.fallbackWaits node = some ⟨some subscription.token, some subscription.token.wait⟩

structure SlotsInv : Prop where
  registered : ∀ subscription ∈ domain.registrations, domain.Registered subscription
  dropped : ∀ subscription ∈ domain.dropped, subscription ∈ domain.registrations
  empty : ∀ node, domain.subscribed node = none → (domain.slots node).active = 0#64
  subscribed : ∀ node subscription, domain.subscribed node = some subscription →
    domain.Subscribed node subscription

/-- A subscription to a cancelled token is settled, or somebody has to select it. -/
def Settled : Prop :=
  ∀ node subscription, domain.cancelled node = true →
    domain.subscribed node = some subscription →
      domain.registering node = true ∨ Passed domain.cells subscription.token ∨
        ∃ thread, domain.debts node = some thread

structure Inv [DecidableEq ι] [DecidableEq τ] [DecidableEq ρ] [DecidableEq η] : Prop where
  graph : GraphInv domain.world domain.strong domain.leaving domain.retired domain.cancelled
    domain.requested domain.returned
  cells : CellsInv domain.cells
  slots : domain.SlotsInv
  settled : domain.Settled

/-! ## The local invariant -/

/-- Besides `subscription`, a node holds only one that is being registered or has passed. -/
def Covers (node : Nat) (subscription : Subscription) : Prop :=
  ∀ other, domain.subscribed node = some other →
    other = subscription ∨ domain.registering node = true ∨ Passed domain.cells other.token

/-- A canceller has met this subscription, which was not dropped before it started. -/
structure Met (before : List Subscription) (node : Nat) (subscription : Subscription) :
    Prop where
  registered : subscription ∈ domain.registrations
  recent : subscription ∉ before
  node_eq : subscription.node = node
  covers : domain.Covers node subscription

/-- The wait a canceller has found is the one of a subscription it has met. -/
def FoundFact (before : List Subscription) (entry : Found) : Prop :=
  ∃ subscription, domain.Met before entry.node subscription ∧
    entry.token = subscription.token ∧ entry.cell = subscription.token.wait

/-- The thread runs a selection of `token`. -/
def Runs (thread : ι) (token : ParkToken) (cell : Nat) : Prop :=
  ∃ stage, (domain.cells cell).locals thread = .run (.select token .inheritedCancelled) stage ∧
    Wait.Selecting (domain.cells cell).shared token stage

end Domain

/-- The nodes a cancellation has marked and not finished with. -/
def CancelStage.pending : CancelStage → List Nat
  | .lock => []
  | .visit nodes found => nodes ++ found.map Found.node
  | .lookup _ node nodes found | .fallback _ node nodes found =>
      node :: nodes ++ found.map Found.node
  | .select found => found.map Found.node
  | .selecting entry rest => entry.node :: rest.map Found.node

namespace Call

def pending : Call → List Nat
  | .cancelling _ _ _ stage => stage.pending
  | _ => []

/-- The nodes a running cancellation has marked. -/
def marked : Call → List Nat
  | .cancelling _ _ marked _ => marked
  | _ => []

/-- The subscription a call has made and not returned, or is dropping. -/
def subscription? : Call → Option Subscription
  | .registering _ (.check subscription) | .registering _ (.select subscription)
  | .registering _ (.selecting subscription) | .dropping subscription _ => some subscription
  | _ => none

/-- The cell a call is running on. -/
def cell? : Call → Option Nat
  | .waiting cell => some cell
  | .cancelling _ _ _ (.selecting entry _) => some entry.cell
  | .registering registration (.selecting _) => some registration.cell
  | _ => none

end Call

section Facts

variable (owner : Nat → ι) (thread : ι) (domain : Domain ι τ ρ η)

/-- The thread has the subscription, which holds the slot of its token. -/
structure Holding (subscription : Subscription) : Prop where
  owner_eq : owner subscription.node = thread
  subscribed : domain.subscribed subscription.node = some subscription
  returned : domain.registering subscription.node = false

def CancelFact (root : Nat) (before : List Subscription) : CancelStage → Prop
  | .lock => True
  | .visit _ found | .select found =>
      root ∈ domain.requested ∧ ∀ entry ∈ found, domain.FoundFact before entry
  | .lookup active node _ found =>
      root ∈ domain.requested ∧ (∀ entry ∈ found, domain.FoundFact before entry) ∧
        active.kind ≠ Active.fallback ∧
        ∃ subscription, domain.Met before node subscription ∧ subscription.active = active
  | .fallback active node _ found =>
      root ∈ domain.requested ∧ (∀ entry ∈ found, domain.FoundFact before entry) ∧
        active.kind = Active.fallback ∧
        ∃ subscription, domain.Met before node subscription ∧ subscription.active = active
  | .selecting entry rest =>
      root ∈ domain.requested ∧ (∀ entry ∈ rest, domain.FoundFact before entry) ∧
        domain.FoundFact before entry ∧ domain.Runs thread entry.token entry.cell

/-- The subscription a registration has made. -/
structure Made (registration : Registration) (subscription : Subscription) : Prop where
  subscribed : domain.subscribed registration.node = some subscription
  registering : domain.registering registration.node = true
  node_eq : subscription.node = registration.node
  token_eq : subscription.token = registration.token
  late_eq : subscription.late = registration.late

def RegisterFact (registration : Registration) : RegisterStage → Prop
  | .peek | .set | .compare => domain.subscribed registration.node = none
  | .claim active => domain.subscribed registration.node = none ∧
      active = registration.active ∧
      (domain.slots registration.node).cell registration.resident = some registration.cell
  | .fallback => domain.subscribed registration.node = none ∧ registration.resident = false
  | .check subscription | .select subscription => Made domain registration subscription
  | .selecting subscription => Made domain registration subscription ∧
      domain.Runs thread registration.token registration.cell

def CallFact : Call → Prop
  | .rest last => last ≠ some (.fault concurrentWaitFault)
  | .waiting _ | .panicked _ => True
  | .cancelling root before marked stage =>
      (∀ subscription ∈ before, subscription ∈ domain.dropped) ∧
        (∀ node ∈ marked, domain.Born node ∧ domain.cancelled node = true) ∧
        (∀ node ∈ stage.pending, node ∈ marked) ∧
        CancelFact thread domain root before stage
  | .registering registration stage =>
      owner registration.node = thread ∧ registration.token.wait = registration.cell ∧
        0 < registration.token.generation ∧
        registration.token.generation ≤ (domain.cells registration.cell).shared.issued ∧
        (registration.late = true → domain.cancelled registration.node = true) ∧
        RegisterFact thread domain registration stage
  | .dropping subscription _ => Holding owner thread domain subscription

/-- The local invariant. -/
structure Fact (mine : Local) : Prop where
  held : ∀ subscription ∈ mine.held, Holding owner thread domain subscription
  late : ∀ subscription ∈ mine.held, subscription.late = true →
    Passed domain.cells subscription.token
  nodup : mine.held.Nodup
  apart : ∀ subscription ∈ mine.held, mine.call.subscription? ≠ some subscription
  owned : ∀ node subscription, owner node = thread →
    domain.subscribed node = some subscription →
      subscription ∈ mine.held ∨ mine.call.subscription? = some subscription
  strong : ∀ node ∈ mine.nodes, node ∈ domain.strong
  debts : ∀ node, domain.debts node = some thread → node ∈ mine.call.pending
  resting : ∀ cell, mine.call.cell? ≠ some cell →
    ∃ last, (domain.cells cell).locals thread = .rest last
  call : CallFact owner thread domain mine.call

/-! ## Frames -/

/-- What only grows. -/
structure Grows (domain' : Domain ι τ ρ η) : Prop where
  born : domain.world.reference.count ≤ domain'.world.reference.count
  cancelled : ∀ node, domain.Born node → domain.cancelled node = true →
    domain'.cancelled node = true
  covers : ∀ node subscription, domain.Born node → domain.cancelled node = true →
    domain.Covers node subscription → domain'.Covers node subscription
  passed : ∀ token, Passed domain.cells token → Passed domain'.cells token
  issued : ∀ cell, (domain.cells cell).shared.issued ≤ (domain'.cells cell).shared.issued
  registrations : ∀ subscription ∈ domain.registrations, subscription ∈ domain'.registrations
  dropped : ∀ subscription ∈ domain.dropped, subscription ∈ domain'.dropped
  requested : ∀ root ∈ domain.requested, root ∈ domain'.requested

/-- What a thread sees of a step that is not its own. -/
structure View (domain' : Domain ι τ ρ η) : Prop extends Grows domain domain' where
  slots : ∀ node, domain.Born node → owner node = thread →
    domain'.slots node = domain.slots node
  subscribed : ∀ node, owner node = thread →
    domain'.subscribed node = domain.subscribed node
  registering : ∀ node, owner node = thread →
    domain'.registering node = domain.registering node
  locals : ∀ cell, (domain'.cells cell).locals thread = (domain.cells cell).locals thread
  debts : ∀ node, domain'.debts node = some thread → domain.debts node = some thread

/-- What the other threads can rely on when `thread` steps. -/
structure Frame (domain' : Domain ι τ ρ η) : Prop extends Grows domain domain' where
  slots : ∀ node, domain.Born node → owner node ≠ thread →
    domain'.slots node = domain.slots node
  subscribed : ∀ node, owner node ≠ thread →
    domain'.subscribed node = domain.subscribed node
  registering : ∀ node, owner node ≠ thread →
    domain'.registering node = domain.registering node
  locals : ∀ other, other ≠ thread → ∀ cell,
    (domain'.cells cell).locals other = (domain.cells cell).locals other
  debts : ∀ other, other ≠ thread → ∀ node, domain'.debts node = some other →
    domain.debts node = some other

end Facts

end VThread.Inherited
