import VThread.Carrier.Inbox
import VThread.Kernel.Tasks
import VThread.Ready.Inspection
import VThread.Wait.Cell

/-!
# The state of a kernel

The tasks of one carrier and where they are: runnable, parked, in flight or not yet started.
Around it stand what the carrier shares with others: the inbox and the wake hub, the wait
generations its tasks have begun, and the scopes and records of the runtime.  A generation
is known from its begin to its retirement.
-/

namespace VThread.Kernel

open VThread.Carrier VThread.Ready VThread.Wait

abbrev Notice : Type := WakeNotice Nat TaskKey

/-- The frames of a task are gone with any others of its lineage. -/
def Task.within (task : Task) (gone : List Frames) : Bool := task.lineage.any (gone.contains ·)

/-- The wait generations of the tasks of a carrier, as others and the owner move them on. -/
inductive WaitPhase where
  | active
  | claimed (cause : WakeCause)
  | linked (cause : WakeCause)
  | selected (cause : WakeCause)
  deriving DecidableEq

/-- The claim of the generation is not yet published. -/
def WaitPhase.inFlight : WaitPhase → Bool
  | claimed _ => true
  | linked _ => true
  | _ => false

/-- A generation that has not been retired. -/
structure Generation where
  token : ParkToken
  task : Task
  route : TaskKey
  phase : WaitPhase
  deriving DecidableEq

/-- `ParkedTask`; the generation is known by its token, whoever registered it. -/
structure ParkedTask where
  token : ParkToken
  task : TaskKey
  hasDeadline : Bool
  deferred : Bool
  deriving DecidableEq

/-- A lexical scope on the frames of a task, with the leases it issued. -/
structure LocalScope where
  owner : Task
  children : List Frames
  deriving DecidableEq

structure Config where
  maxVthreads : Nat
  maxOwnedScopes : Nat
  carrierQueueCapacity : Nat
  positive : 0 < maxOwnedScopes
  deriving DecidableEq

/-- What the runtime keeps of a scope. -/
structure ScopeState where
  id : Nat
  admitting : Bool
  aborting : Option TaskFailure
  deriving DecidableEq

/-- The kernel and what it shares. -/
structure World where
  config : Config
  tasks : KernelTasks
  ready : ReadyQueue TaskKey
  parked : List ParkedTask
  deferredWakes : List Notice
  pendingAborts : List (Option Nat × TaskFailure)
  inFlight : Option TaskKey
  pending : Option SpawnPacket
  incoming : List SpawnPacket
  remotePending : Bool
  admissionPressure : Nat
  timers : List (ParkToken × TaskKey)
  hasBorrowed : Bool
  observedEpoch : Nat
  /-- The local starts, the local wakes and the epoch of the local carrier. -/
  starts : List Task
  wakes : List Notice
  epoch : Nat
  inbox : Inbox
  hub : List Notice
  waits : List Generation
  /-- The last generation of every wait cell. -/
  generations : Nat → Nat
  /-- The frames that are gone. -/
  reclaimed : List Frames
  /-- The innermost scope of a task comes first. -/
  openScopes : List LocalScope
  scopes : List ScopeState
  activeScope : Option Nat
  accepting : Bool
  nextScope : Nat
  nextTask : Nat
  /-- Records of ended tasks and of tasks of other carriers. -/
  retained : Nat
  /-- The terminal outcomes published so far. -/
  outcomes : List (Nat × Option TaskFailure)
  /-- How often the kernel has let the others move. -/
  clock : Nat

namespace World

def new (config : Config) : World where
  config
  tasks := .new
  ready := .new
  parked := []
  deferredWakes := []
  pendingAborts := []
  inFlight := none
  pending := none
  incoming := []
  remotePending := false
  admissionPressure := 0
  timers := []
  hasBorrowed := false
  observedEpoch := 0
  starts := []
  wakes := []
  epoch := 0
  inbox := .new config.carrierQueueCapacity
  hub := []
  waits := []
  generations _ := 0
  reclaimed := []
  openScopes := []
  scopes := []
  activeScope := none
  accepting := true
  nextScope := 1
  nextTask := 1
  retained := 0
  outcomes := []
  clock := 0

/-! ## Wait generations -/

def generation (world : World) (token : ParkToken) : Option Generation :=
  world.waits.find? (·.token == token)

/-- Move a generation on. -/
def setPhase (world : World) (token : ParkToken) (phase : WaitPhase) : World :=
  { world with
    waits := world.waits.map fun wait => if wait.token = token then { wait with phase } else wait }

/-- What is left of a generation and its notices in the hub after its retirement. -/
def retire (world : World) (token : ParkToken) : World :=
  { world with
    waits := world.waits.filter (·.token ≠ token)
    hub := world.hub.filter (·.token ≠ token) }

/-- `try_abandon`; an unpublished claim keeps its generation. -/
def tryAbandon (world : World) (token : ParkToken) : World × Bool :=
  match world.generation token with
  | none => (world, true)
  | some wait => if wait.phase.inFlight then (world, false) else (world.retire token, true)

/-- `unregister_wake`. -/
def unregisterWake (world : World) (token : ParkToken) : World :=
  { world with wakes := world.wakes.filter (·.token ≠ token) }

/-- `Publication`. -/
inductive Publication where
  | published
  | inFlight
  | stale
  deriving DecidableEq

def publication (world : World) (token : ParkToken) : Publication :=
  match world.generation token with
  | some ⟨_, _, _, .selected _⟩ => .published
  | some ⟨_, _, _, .claimed _⟩ => .inFlight
  | some ⟨_, _, _, .linked _⟩ => .inFlight
  | _ => .stale

end World

/-- What others do.  One claims a generation for a cause, links its notice to the hub, or to the
local wakes where it is a task of the same carrier, and publishes the claim; records of ended
tasks are given up, and other carriers take records. -/
inductive Move where
  | claim (token : ParkToken) (cause : WakeCause)
  | link (token : ParkToken) (carrier : Bool)
  | publish (token : ParkToken)
  | forget
  | occupy
  deriving DecidableEq

namespace World

/-- Records in use: of the tasks of the carrier, of ended ones and of others. -/
def recordCount (world : World) : Nat :=
  world.inbox.state.starts.length + world.pending.toList.length + world.incoming.length +
    world.starts.length + world.tasks.len + world.retained

def move (world : World) : Move → World
  | .claim token cause =>
      match world.generation token with
      | some ⟨_, _, _, .active⟩ => world.setPhase token (.claimed cause)
      | _ => world
  | .link token carrier =>
      match world.generation token with
      | some ⟨_, task, route, .claimed cause⟩ =>
          let world := world.setPhase token (.linked cause)
          let notice := ⟨token, task.id, route, cause⟩
          if carrier then { world with wakes := world.wakes ++ [notice] }
          else { world with hub := world.hub ++ [notice] }
      | _ => world
  | .publish token =>
      match world.generation token with
      | some ⟨_, _, _, .linked cause⟩ => world.setPhase token (.selected cause)
      | _ => world
  | .forget => { world with retained := world.retained - 1 }
  | .occupy =>
      if world.recordCount < world.config.maxVthreads then
        { world with retained := world.retained + 1 }
      else world

/-- The moves of the others between two steps of the kernel. -/
def pause (others : Nat → List Move) (world : World) : World :=
  { (others world.clock).foldl move world with clock := world.clock + 1 }

/-! ## Frames -/

/-- `publish_borrowed_scope_exit`, for so many scopes; an exhausted epoch stays. -/
def publishExits (world : World) (count : Nat) : World :=
  { world with epoch := min (world.epoch + count) (2 ^ 64 - 1) }

/-- The world without some frames and all that borrow from them.  On the way out every
generation is rolled back and every scope that is still open is left. -/
def unwound (gone : List Frames) (world : World) : World :=
  let rolled := (world.waits.filter (·.task.within gone)).map (·.token)
  let exits := world.openScopes.filter (·.owner.within gone)
  { world with
    waits := world.waits.filter (!·.task.within gone)
    hub := world.hub.filter (!rolled.contains ·.token)
    wakes := world.wakes.filter (!rolled.contains ·.token)
    reclaimed := gone ++ world.reclaimed
    openScopes := world.openScopes.filter (!·.owner.within gone) }.publishExits exits.length

/-- Reclaim some frames; a generation with an unpublished claim cannot be rolled back. -/
def unwind (gone : List Frames) (world : World) : Checked World := do
  ensure (∀ wait ∈ world.waits, wait.task.within gone = true → wait.phase.inFlight = false)
    "forced cleanup retained an incomplete publication"
  pure (world.unwound gone)

/-- `TaskRef::revoked`: the lease of a borrowed task is reclaimed. -/
def revoked (world : World) (key : TaskKey) : Bool :=
  key.isBorrowed && (world.tasks.get key).any (·.within world.reclaimed)

/-! ## Completion -/

/-- `Shared::complete`; the record stays. -/
def complete (task : Nat) (failure : Option TaskFailure) (world : World) : World :=
  { world with
    outcomes := world.outcomes ++ [(task, failure)]
    retained := world.retained + 1 }

def refreshBorrowed (world : World) : World :=
  { world with hasBorrowed := world.tasks.borrowedCount != 0 }

/-- `remove_in_flight`. -/
def removeInFlight (world : World) : Checked World := do
  let key ← expect world.inFlight "in-flight task key"
  ensure ((world.tasks.remove key).2 = true) "live in-flight task"
  let world := { world with inFlight := none, tasks := (world.tasks.remove key).1 }
  pure (if key.isBorrowed then world.refreshBorrowed else world)

end World

end VThread.Kernel
