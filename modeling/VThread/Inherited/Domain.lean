import VThread.Cancellation.Reference
import VThread.Inherited.Slot
import VThread.Wait.Winner

/-!
# A cancellation domain with its waits

Any number of threads create tokens, cancel them, register waits and drop the
subscriptions, over one compressed graph and any number of wait cells.  Every atomic
operation and every locked section is one step; the steps on a wait cell are those of
the cell's own program.

The history tells which registration holds a slot, which canceller still owes a visit to
a token, and what was registered, dropped and requested so far.  No step reads it.
-/

namespace VThread.Inherited

open VThread.Lib VThread.Wait VThread.Cancellation

/-- `Subscription`.  Its token, its serial number and whether the node was cancelled when
the registration began are history. -/
structure Subscription where
  node : Nat
  active : Active
  token : ParkToken
  late : Bool
  serial : Nat
  deriving DecidableEq

/-- A wait that `active_wait` has found; the node is history. -/
structure Found where
  node : Nat
  token : ParkToken
  cell : Nat
  deriving DecidableEq

/-- A cancellation `Domain` and its nodes.  `strong` holds the nodes that upgrade
and `leaving` those whose drop runs, with whether their fallback entry is gone. -/
structure Domain (ι τ ρ η : Type) where
  world : World Nat
  strong : Finset Nat
  leaving : Nat → Option Bool
  retired : List Nat
  cancelled : Nat → Bool
  fallbackEpoch : Nat
  fallbackWaits : Nat → Option FallbackWait
  slots : Nat → WaitSlot
  cells : Nat → Threads ι (Wait.Shared ι τ ρ η) (Wait.Pc τ ρ η)
  subscribed : Nat → Option Subscription
  registering : Nat → Bool
  debts : Nat → Option ι
  registrations : List Subscription
  dropped : List Subscription
  requested : List Nat
  returned : List Nat

/-- The domain, and the nodes that calls and subscriptions of threads keep alive. -/
structure Shared (ι τ ρ η : Type) where
  domain : Domain ι τ ρ η
  borrowed : List (ι × Nat)

/-- What a call returns. -/
inductive Outcome where
  | done
  | subscribed
  | fault (message : String)
  deriving DecidableEq

/-- Stages of `cancel`. -/
inductive CancelStage where
  | lock
  | visit (nodes : List Nat) (found : List Found)
  | lookup (active : Active) (node : Nat) (nodes : List Nat) (found : List Found)
  | fallback (active : Active) (node : Nat) (nodes : List Nat) (found : List Found)
  | select (found : List Found)
  | selecting (entry : Found) (rest : List Found)

/-- Stages of `register` and `register_resident`. -/
inductive RegisterStage where
  | peek
  | set
  | compare
  | claim (active : Active)
  | fallback
  | check (subscription : Subscription)
  | select (subscription : Subscription)
  | selecting (subscription : Subscription)

/-- Stages of the drop of a subscription. -/
inductive DropStage where
  | load
  | store
  | lock

/-- The arguments of a registration; `late` is history. -/
structure Registration where
  node : Nat
  resident : Bool
  token : ParkToken
  cell : Nat
  late : Bool

/-- The call a thread is in.  A cancellation remembers what had been dropped when it
started and which nodes it has marked. -/
inductive Call where
  | rest (last : Option Outcome)
  | waiting (cell : Nat)
  | cancelling (root : Nat) (before : List Subscription) (marked : List Nat)
      (stage : CancelStage)
  | registering (registration : Registration) (stage : RegisterStage)
  | dropping (subscription : Subscription) (stage : DropStage)
  | panicked (message : String)

/-- A thread: the subscriptions it holds and its call. -/
structure Local where
  held : List Subscription
  call : Call

/-- What a resting thread does next, and what may happen in the middle of any call: the
last strong reference of a node goes, and the drop of the node continues. -/
inductive Request (τ ρ η : Type) where
  | wait (cell : Nat)
  | insert (parents : List Nat)
  | cancel (root : Nat)
  | register (node : Nat) (resident : Bool) (token : ParkToken) (cell : Nat)
  | unregister (subscription : Subscription)
  | release (node : Nat)
  | forget (node : Nat)
  | retire (node : Nat)
  | proceed

/-- Free choices of a step; `wait` are those of a step on a wait cell. -/
structure Choice (τ ρ η : Type) where
  request : Request τ ρ η
  wait : Wait.Choice τ ρ η

/-- `RETIREMENT_BATCH`. -/
def retirementBatch : Nat := 64

variable {ι τ ρ η : Type}

/-- The nodes a call keeps alive. -/
def Call.nodes : Call → List Nat
  | .cancelling root _ _ (.visit nodes _) => root :: nodes
  | .cancelling root _ _ (.lookup _ node nodes _)
  | .cancelling root _ _ (.fallback _ node nodes _) => root :: node :: nodes
  | .cancelling root _ _ _ => [root]
  | .registering registration _ => [registration.node]
  | .dropping subscription _ => [subscription.node]
  | _ => []

/-- The nodes a thread keeps alive. -/
def Local.nodes (mine : Local) : List Nat :=
  mine.held.map Subscription.node ++ mine.call.nodes

/-- The cell of the slot that a registration uses. -/
def WaitSlot.cell (slot : WaitSlot) (resident : Bool) : Option Nat :=
  if resident then slot.resident else slot.primary

/-- `OnceLock::set`. -/
def WaitSlot.setCell (slot : WaitSlot) (resident : Bool) (cell : Nat) : WaitSlot :=
  if resident then { slot with resident := slot.resident.or (some cell) }
  else { slot with primary := slot.primary.or (some cell) }

/-- The word a registration of the slot's own cell claims. -/
def Registration.active (registration : Registration) : Active :=
  if registration.resident then
    Active.resident ||| BitVec.ofNat 64 registration.token.generation
  else BitVec.ofNat 64 registration.token.generation

def concurrentWaitFault : String := "task registered concurrent cancellation waits"

def fallbackGenerationFault : String := "cancellation subscription generation exhausted"

def residentWaitFault : String := "task changed its resident cancellation wait"

namespace Domain

variable [DecidableEq ι]

/-! ## Locked sections of the graph -/

/-- `Weak::upgrade` of a node. -/
def upgrade (domain : Domain ι τ ρ η) (node : Nat) : Option Nat :=
  if node ∈ domain.strong then some node else none

/-- `insert`.  The flag that the graph returns is the one of the new entry; an identity
that fits no node state is lost. -/
def insert (domain : Domain ι τ ρ η) (parents : List Nat) : Checked (Domain ι τ ρ η) := do
  let node := domain.world.graph.next
  ensure (node < 2 ^ 63) "cancellation identity exhausted"
  let (world, _) ← domain.world.step (.insert parents node : Op Nat Nat)
  let cancelled ← world.graph.isCancelled node
  pure { domain with
    world
    strong := Insert.insert node domain.strong
    cancelled := Function.update domain.cancelled node cancelled
    slots := Function.update domain.slots node .new
    subscribed := Function.update domain.subscribed node none }

/-- The locked section of `cancel`. -/
def cancelNodes (thread : ι) (domain : Domain ι τ ρ η) (root : Nat) :
    Checked (Domain ι τ ρ η × List Nat) := do
  let (world, nodes) ← domain.world.step (.cancel root domain.upgrade)
  pure ({ domain with
    world
    cancelled := fun node => domain.cancelled node || decide (node ∈ nodes)
    debts := fun node => if node ∈ nodes then some thread else domain.debts node
    requested := root :: domain.requested }, nodes)

/-- `Domain::retire`. -/
def retire (domain : Domain ι τ ρ η) (node : Nat) : Checked (Domain ι τ ρ η) := do
  let retired := domain.retired ++ [node]
  if retired.length < retirementBatch then
    pure { domain with leaving := Function.update domain.leaving node none, retired }
  else do
    let world ← retired.foldlM
      (fun world node => Prod.fst <$> world.step (.remove node : Op Nat Nat)) domain.world
    pure { domain with
      world, leaving := Function.update domain.leaving node none, retired := [] }

/-! ## Slots -/

/-- A canceller is done with a node. -/
def settle (thread : ι) (domain : Domain ι τ ρ η) (node : Nat) : Domain ι τ ρ η :=
  if domain.debts node = some thread then
    { domain with debts := Function.update domain.debts node none }
  else domain

def setSlot (domain : Domain ι τ ρ η) (node : Nat) (slot : WaitSlot) : Domain ι τ ρ η :=
  { domain with slots := Function.update domain.slots node slot }

def setFallback (domain : Domain ι τ ρ η) (node : Nat) (entry : FallbackWait) :
    Domain ι τ ρ η :=
  { domain with fallbackWaits := Function.update domain.fallbackWaits node (some entry) }

/-- A registration has claimed its slot. -/
def subscribe (domain : Domain ι τ ρ η) (subscription : Subscription) : Domain ι τ ρ η :=
  { domain with
    subscribed := Function.update domain.subscribed subscription.node (some subscription)
    registering := Function.update domain.registering subscription.node true
    registrations := subscription :: domain.registrations }

/-- A subscription is gone. -/
def unsubscribe (domain : Domain ι τ ρ η) (subscription : Subscription) : Domain ι τ ρ η :=
  { domain with
    subscribed := Function.update domain.subscribed subscription.node none
    dropped := subscription :: domain.dropped }

/-- A registration has returned its subscription. -/
def register (domain : Domain ι τ ρ η) (subscription : Subscription) : Domain ι τ ρ η :=
  { domain with
    registering := Function.update domain.registering subscription.node false }

/-- The subscription a registration makes with `active`. -/
def subscription (domain : Domain ι τ ρ η) (registration : Registration) (active : Active) :
    Subscription :=
  ⟨registration.node, active, registration.token, registration.late,
    domain.registrations.length⟩

end Domain

/-! ## Steps -/

section Steps

variable [DecidableEq ι] [DecidableEq τ] [DecidableEq ρ] [DecidableEq η]

/-- A step of a thread on a wait cell. -/
def waitStep (thread : ι) (choice : Wait.Choice τ ρ η) (domain : Domain ι τ ρ η)
    (cell : Nat) : Option (Domain ι τ ρ η × Wait.Pc τ ρ η) :=
  let threads := domain.cells cell
  (Wait.nextStep thread choice threads.shared (threads.locals thread)).map
    fun (shared, pc) =>
      let threads : Threads ι (Wait.Shared ι τ ρ η) (Wait.Pc τ ρ η) :=
        ⟨shared, fun other => if other = thread then pc else threads.locals other⟩
      ({ domain with cells := Function.update domain.cells cell threads }, pc)

/-- `select_cancelled` of a token, or its next step. -/
def selectStep (thread : ι) (choice : Wait.Choice τ ρ η) (domain : Domain ι τ ρ η)
    (token : ParkToken) (cell : Nat) : Option (Domain ι τ ρ η × Wait.Pc τ ρ η) :=
  waitStep thread { choice with op := .select token .inheritedCancelled } domain cell

/-- A step of `cancel`. -/
def cancelStep (thread : ι) (choice : Wait.Choice τ ρ η) (domain : Domain ι τ ρ η)
    (root : Nat) (before : List Subscription) (marked : List Nat) :
    CancelStage → Option (Domain ι τ ρ η × Call)
  | .lock =>
      match domain.cancelNodes thread root with
      | .error message => some (domain, .panicked message)
      | .ok (domain, nodes) => some (domain, .cancelling root before nodes (.visit nodes []))
  | .visit [] found => some (domain, .cancelling root before marked (.select found))
  | .visit (node :: nodes) found =>
      let active := (domain.slots node).active
      if active = 0#64 then
        some (domain.settle thread node, .cancelling root before marked (.visit nodes found))
      else if active.kind = Active.fallback then
        some (domain, .cancelling root before marked (.fallback active node nodes found))
      else some (domain, .cancelling root before marked (.lookup active node nodes found))
  | .lookup active node nodes found =>
      let cell := if active.kind = 0#64 then (domain.slots node).primary
        else if active.kind = Active.resident then (domain.slots node).resident
        else none
      match cell with
      | none =>
          some (domain.settle thread node, .cancelling root before marked (.visit nodes found))
      | some cell => some (domain, .cancelling root before marked
          (.visit nodes (found ++ [⟨node, ⟨cell, active.generation⟩, cell⟩])))
  | .fallback active node nodes found =>
      if (domain.slots node).active ≠ active then
        some (domain.settle thread node, .cancelling root before marked (.visit nodes found))
      else match domain.fallbackWaits node with
        | some ⟨some token, some cell⟩ => some (domain, .cancelling root before marked
            (.visit nodes (found ++ [⟨node, token, cell⟩])))
        | _ => some (domain.settle thread node,
            .cancelling root before marked (.visit nodes found))
  | .select [] =>
      some ({ domain with returned := root :: domain.returned }, .rest (some .done))
  | .select (entry :: rest) | .selecting entry rest =>
      match selectStep thread choice domain entry.token entry.cell with
      | none => none
      | some (domain, .run _ _) =>
          some (domain, .cancelling root before marked (.selecting entry rest))
      | some (domain, .rest _) => some (domain.settle thread entry.node,
          .cancelling root before marked (.select rest))
      | some (domain, .panicked message) => some (domain, .panicked message)

/-- The locked section of a registration in the fallback table. -/
def fallbackSection (domain : Domain ι τ ρ η) (registration : Registration) :
    Domain ι τ ρ η × Call :=
  if domain.fallbackEpoch + 1 < 2 ^ 62 then
    let epoch := domain.fallbackEpoch + 1
    let active := Active.fallback ||| BitVec.ofNat 64 epoch
    let slot := domain.slots registration.node
    let domain := { domain with fallbackEpoch := epoch }
    match slot.claim active with
    | some slot =>
        let subscription := domain.subscription registration active
        (((domain.setFallback registration.node
            ⟨some registration.token, some registration.cell⟩).setSlot
              registration.node slot).subscribe subscription,
          .registering registration (.check subscription))
    | none => (domain.setFallback registration.node ⟨none, some registration.cell⟩,
        .rest (some (.fault concurrentWaitFault)))
  else (domain, .rest (some (.fault fallbackGenerationFault)))

/-- A step of `register` or `register_resident`; the flag tells whether the subscription
is returned. -/
def registerStep (thread : ι) (choice : Wait.Choice τ ρ η) (domain : Domain ι τ ρ η)
    (registration : Registration) :
    RegisterStage → Option (Domain ι τ ρ η × Call × Option Subscription)
  | .peek =>
      let known := (domain.slots registration.node).cell registration.resident
      some (domain, .registering registration (if known.isNone then .set else .compare), none)
  | .set =>
      let slot := (domain.slots registration.node).setCell registration.resident
        registration.cell
      some (domain.setSlot registration.node slot, .registering registration .compare, none)
  | .compare =>
      if (domain.slots registration.node).cell registration.resident =
          some registration.cell then
        some (domain, .registering registration (.claim registration.active), none)
      else if registration.resident then
        some (domain, .rest (some (.fault residentWaitFault)), none)
      else some (domain, .registering registration .fallback, none)
  | .claim active =>
      match (domain.slots registration.node).claim active with
      | none => some (domain, .rest (some (.fault concurrentWaitFault)), none)
      | some slot =>
          let subscription := domain.subscription registration active
          some ((domain.setSlot registration.node slot).subscribe subscription,
            .registering registration (.check subscription), none)
  | .fallback =>
      let (domain, call) := fallbackSection domain registration
      some (domain, call, none)
  | .check subscription =>
      if domain.cancelled registration.node then
        some (domain, .registering registration (.select subscription), none)
      else some (domain.register subscription, .rest (some .subscribed), some subscription)
  | .select subscription | .selecting subscription =>
      match selectStep thread choice domain registration.token registration.cell with
      | none => none
      | some (domain, .run _ _) =>
          some (domain, .registering registration (.selecting subscription), none)
      | some (domain, .rest _) =>
          some (domain.register subscription, .rest (some .subscribed), some subscription)
      | some (domain, .panicked message) => some (domain, .panicked message, none)

/-- A step of the drop of a subscription. -/
def dropStep (domain : Domain ι τ ρ η) (subscription : Subscription) :
    DropStage → Domain ι τ ρ η × Call
  | .load =>
      if (domain.slots subscription.node).active = subscription.active then
        (domain, .dropping subscription .store)
      else (domain, .rest (some .done))
  | .store =>
      let slot := domain.slots subscription.node
      ((domain.setSlot subscription.node { slot with active := 0#64 }).unsubscribe subscription,
        .rest (some .done))
  | .lock =>
      let slot := domain.slots subscription.node
      if slot.active = subscription.active then
        let entry := (domain.fallbackWaits subscription.node).map
          fun entry => { entry with token := none }
        let domain := domain.setSlot subscription.node { slot with active := 0#64 }
        ({ domain with fallbackWaits :=
            Function.update domain.fallbackWaits subscription.node entry }.unsubscribe
              subscription, .rest (some .done))
      else (domain, .rest (some .done))

/-- A resting thread makes a call.  A task parks once at a time: it registers on a token of
its own with a generation that a begin has returned, and while it holds no subscription to
that token. -/
def callStep (owner : Nat → ι) (thread : ι) (choice : Choice τ ρ η)
    (domain : Domain ι τ ρ η) (held : List Subscription) :
    Option (Domain ι τ ρ η × Local) :=
  match choice.request with
  | .wait cell =>
      match waitStep thread choice.wait domain cell with
      | none => none
      | some (domain, .run _ _) => some (domain, ⟨held, .waiting cell⟩)
      | some (domain, .rest _) => some (domain, ⟨held, .rest none⟩)
      | some (domain, .panicked message) => some (domain, ⟨held, .panicked message⟩)
  | .insert parents =>
      if ∀ parent ∈ parents, parent ∈ domain.strong then
        match domain.insert parents with
        | .ok domain => some (domain, ⟨held, .rest (some .done)⟩)
        | .error message => some (domain, ⟨held, .panicked message⟩)
      else none
  | .cancel root =>
      if root ∈ domain.strong then
        some (domain, ⟨held, .cancelling root domain.dropped [] .lock⟩)
      else none
  | .register node resident token cell =>
      if node ∈ domain.strong ∧ owner node = thread ∧ token.wait = cell ∧
          0 < token.generation ∧ token.generation ≤ (domain.cells cell).shared.issued ∧
          ∀ subscription ∈ held, subscription.node ≠ node then
        some (domain, ⟨held, .registering
          ⟨node, resident, token, cell, domain.cancelled node⟩ .peek⟩)
      else none
  | .unregister subscription =>
      if subscription ∈ held then
        some (domain, ⟨held.erase subscription, .dropping subscription
          (if subscription.active &&& Active.fallback = 0#64 then .load else .lock)⟩)
      else none
  | _ => none

/-- The drop of a node, which may run in the middle of any call. -/
def nodeStep (domain : Domain ι τ ρ η) (borrowed : List (ι × Nat)) :
    Request τ ρ η → Option (Checked (Domain ι τ ρ η))
  | .release node =>
      if node ∈ domain.strong ∧ ∀ entry ∈ borrowed, entry.2 ≠ node then
        some (.ok { domain with
          strong := domain.strong.erase node
          leaving := Function.update domain.leaving node (some false) })
      else none
  | .forget node =>
      if domain.leaving node = some false then
        some (.ok { domain with
          leaving := Function.update domain.leaving node (some true)
          fallbackWaits := Function.update domain.fallbackWaits node none })
      else none
  | .retire node =>
      if domain.leaving node = some true then some (domain.retire node) else none
  | _ => none

/-- A thread continues its call or makes a new one. -/
def runStep (owner : Nat → ι) (thread : ι) (choice : Choice τ ρ η)
    (domain : Domain ι τ ρ η) (mine : Local) : Option (Domain ι τ ρ η × Local) :=
  match mine.call with
  | .rest _ => callStep owner thread choice domain mine.held
  | .waiting cell =>
      match waitStep thread choice.wait domain cell with
      | none => none
      | some (domain, .run _ _) => some (domain, mine)
      | some (domain, .rest _) => some (domain, ⟨mine.held, .rest none⟩)
      | some (domain, .panicked message) => some (domain, ⟨mine.held, .panicked message⟩)
  | .cancelling root before marked stage =>
      (cancelStep thread choice.wait domain root before marked stage).map
        fun (domain, call) => (domain, ⟨mine.held, call⟩)
  | .registering registration stage =>
      (registerStep thread choice.wait domain registration stage).map
        fun (domain, call, returned) => (domain, ⟨returned.toList ++ mine.held, call⟩)
  | .dropping subscription stage =>
      let (domain, call) := dropStep domain subscription stage
      some (domain, ⟨mine.held, call⟩)
  | .panicked _ => none

/-- The nodes of a thread replace those it kept alive before. -/
def borrow (thread : ι) (nodes : List Nat) (borrowed : List (ι × Nat)) : List (ι × Nat) :=
  nodes.map (fun node => (thread, node)) ++ borrowed.filter fun entry => entry.1 ≠ thread

/-- One step of a thread. -/
def nextStep (owner : Nat → ι) (thread : ι) (choice : Choice τ ρ η)
    (shared : Shared ι τ ρ η) (mine : Local) : Option (Shared ι τ ρ η × Local) :=
  match choice.request with
  | .release _ | .forget _ | .retire _ =>
      (nodeStep shared.domain shared.borrowed choice.request).map fun
        | .ok domain => ({ shared with domain }, mine)
        | .error message => (shared, ⟨mine.held, .panicked message⟩)
  | _ =>
      (runStep owner thread choice shared.domain mine).map fun (domain, mine) =>
        (⟨domain, borrow thread mine.nodes shared.borrowed⟩, mine)

end Steps

/-- A new domain. -/
def Domain.initial : Domain ι τ ρ η where
  world := .initial
  strong := ∅
  leaving := fun _ => none
  retired := []
  cancelled := fun _ => false
  fallbackEpoch := 0
  fallbackWaits := fun _ => none
  slots := fun _ => .new
  cells := fun cell => Wait.fresh cell
  subscribed := fun _ => none
  registering := fun _ => false
  debts := fun _ => none
  registrations := []
  dropped := []
  requested := []
  returned := []

variable [DecidableEq ι] [DecidableEq τ] [DecidableEq ρ] [DecidableEq η]

/-- All threads over one domain; `owner` names the task that parks on each token. -/
def program (owner : Nat → ι) : Program ι (Shared ι τ ρ η) Local where
  initial shared := shared = ⟨.initial, []⟩
  start := ⟨[], .rest none⟩
  advance thread shared mine shared' mine' :=
    ∃ choice, nextStep owner thread choice shared mine = some (shared', mine')

/-- Run the program by a schedule of choices. -/
def scheduler (owner : Nat → ι) :
    (program owner : Program ι (Shared ι τ ρ η) Local).Scheduler (Choice τ ρ η) where
  next := nextStep owner
  sound := fun _ choice _ _ _ taken => ⟨choice, taken⟩

end VThread.Inherited
