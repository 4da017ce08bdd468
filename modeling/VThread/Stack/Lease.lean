import Mathlib.Logic.Function.Basic
import VThread.Lib.Checked
import VThread.Lib.Transition

/-!
# Fiber leases

The transitions of a lease are split around calls into user code, which may panic, call the
lease again or give its stack back in the middle.  Every call is an activation with its own
place; between two sections of one activation any other may move.
-/

namespace VThread.Stack

open VThread.Lib

variable {ι : Type}

inductive Phase where
  | ready
  | running
  | complete
  | reclaiming
  | reclaimed
  deriving DecidableEq, Repr

/-- A fiber, by whether it has completed. -/
structure Fiber where
  isComplete : Bool
  deriving DecidableEq, Repr

/-- The `State` of a lease, with how often its fiber was mounted, extracted as a stack and
dropped, and the activation that executes or reclaims it. -/
structure Lease (ι : Type) where
  phase : Phase
  fiber : Option Fiber
  cleanup : Option Nat
  mounts : Nat
  extracted : Nat
  dropped : Nat
  holder : Option ι
  deriving DecidableEq

namespace Lease

def new : Lease ι := ⟨.ready, some ⟨false⟩, none, 0, 0, 0, none⟩

def live (lease : Lease ι) : Bool := lease.phase ≠ .reclaimed

/-- The part of `resume_using` before the mount. -/
def beginResume (activation : ι) (lease : Lease ι) : Checked (Option (Lease ι × Fiber)) :=
  if lease.phase = .reclaimed then pure none
  else do
    ensure (lease.phase = .ready) "lease is not ready to resume"
    let fiber ← expect lease.fiber "ready fiber"
    pure (some ({ lease with
      phase := .running
      fiber := none
      mounts := lease.mounts + 1
      holder := some activation }, fiber))

/-- `Running` is dropped. -/
def endResume (fiber : Fiber) (lease : Lease ι) : Lease ι :=
  { lease with
    phase := if fiber.isComplete then .complete else .ready
    fiber := some fiber
    holder := none }

/-- The part of `take_stack` before the cleanup is dropped; `into_stack` asserts that the fiber is
complete. -/
def takeStack (lease : Lease ι) : Checked (Option (Lease ι)) :=
  if lease.phase ≠ .complete then pure none
  else do
    ensure (∀ fiber ∈ lease.fiber, fiber.isComplete = true)
      "an incomplete fiber cannot be extracted"
    pure (some { lease with
      phase := .reclaimed
      fiber := none
      cleanup := none
      extracted := lease.extracted + lease.fiber.toList.length })

/-- The part of `reclaim` before the cleanup mount. -/
def beginReclaim (activation : ι) (lease : Lease ι) : Checked (Option (Lease ι)) :=
  if lease.phase = .reclaimed then pure none
  else do
    ensure (lease.phase = .ready ∨ lease.phase = .complete) "lease is executing or reclaiming"
    pure (some { lease with phase := .reclaiming, holder := some activation })

/-- `Reclaiming` is dropped. -/
def restore (previous : Phase) (lease : Lease ι) : Lease ι :=
  if lease.phase = .reclaiming then { lease with phase := previous, holder := none } else lease

/-- The part of `reclaim` after the cleanup mount, up to the destructor of the fiber. -/
def revoke (lease : Lease ι) : Lease ι :=
  { lease with
    phase := .reclaimed
    fiber := none
    cleanup := none
    dropped := lease.dropped + lease.fiber.toList.length
    holder := none }

/-- `cleanup_context`, before the old mount is dropped. -/
def cleanupContext (mount : Nat) (lease : Lease ι) : Checked (Lease ι) := do
  ensure (lease.phase = .ready ∨ lease.phase = .complete) "lease is not idle"
  pure { lease with cleanup := some mount }

end Lease

/-- How the body of a scope ends. -/
inductive Body where
  | value
  | panic (payload : Nat)
  deriving DecidableEq, Repr

/-- The `Registry` of a fiber scope, with the leases it has issued, the activation that runs its
body, and how the body ended. -/
structure Registry (ι : Type) where
  fibers : List Nat
  capacity : Nat
  closed : Bool
  issued : List Nat
  owner : ι
  ended : Option Body

/-- All leases and scopes, and whether the process was aborted. -/
structure Heap (ι : Type) where
  leases : Nat → Lease ι
  nextLease : Nat
  registries : Nat → Registry ι
  nextScope : Nat
  aborted : Bool

/-- What `fiber_scope` does at its end. -/
inductive Exit where
  | value
  | bodyPanic (payload : Nat)
  | cleanupPanic (payload : Nat)
  deriving DecidableEq, Repr

/-- A `drain` in progress: the leases not yet reclaimed, the attempts that the first of them has
left, and the first panic.  The guard drains once more when it is dropped. -/
structure Drain where
  scope : Nat
  pending : List Nat
  attempts : Nat
  failure : Option Nat
  last : Bool
  body : Body
  deriving DecidableEq, Repr

/-- Who called `reclaim`. -/
inductive Caller where
  | user
  | drain (drain : Drain)
  deriving DecidableEq, Repr

/-- Where an activation is. -/
inductive Pc where
  /-- In user code, between two calls. -/
  | idle
  /-- The fiber runs. -/
  | resuming (lease : Nat) (fiber : Fiber)
  /-- `take_stack` drops the cleanup. -/
  | taking
  /-- The cleanup mount of a lease runs. -/
  | mounting (lease : Nat) (previous : Phase) (caller : Caller)
  /-- `reclaim` drops the fiber, the two mounts and the context in turn. -/
  | disposing (left : Nat) (failure : Option Nat) (caller : Caller)
  /-- `cleanup_context` drops the old mount. -/
  | replacing
  /-- The body of a scope runs. -/
  | body (scope : Nat)
  | draining (drain : Drain)
  | left (scope : Nat) (exit : Exit)
  deriving DecidableEq, Repr

inductive Choice where
  | resume (lease : Nat)
  | takeStack (lease : Nat)
  | reclaim (lease : Nat)
  | cleanupContext (lease mount : Nat)
  | fiberScope (capacity : Nat)
  /-- `fits` tells whether the entry fits on its stack. -/
  | spawn (scope : Nat) (fits : Bool)
  /-- The mounted fiber gives control back or panics; it may have completed. -/
  | unmount (isComplete : Bool)
  /-- User code returns. -/
  | back
  /-- User code panics. -/
  | panics (payload : Nat)
  | go
  deriving DecidableEq

/-- The payload of a rejected call. -/
def rejection : Nat := 0

/-- `panic_payload::retain`: the first failure stays. -/
def retain (first : Option Nat) (payload : Nat) : Option Nat := first.or (some payload)

namespace Heap

variable (heap : Heap ι)

def setLease (id : Nat) (lease : Lease ι) : Heap ι :=
  { heap with leases := Function.update heap.leases id lease }

def setRegistry (id : Nat) (registry : Registry ι) : Heap ι :=
  { heap with registries := Function.update heap.registries id registry }

/-- Drop the leases that are no longer live. -/
def retainLive (scope : Nat) : Heap ι :=
  heap.setRegistry scope { heap.registries scope with
    fibers := (heap.registries scope).fibers.filter fun id => (heap.leases id).live }

/-- A new lease joins a scope. -/
def issue (scope : Nat) : Heap ι :=
  { heap with
    leases := Function.update heap.leases heap.nextLease .new
    nextLease := heap.nextLease + 1
    registries := Function.update heap.registries scope { heap.registries scope with
      fibers := (heap.registries scope).fibers ++ [heap.nextLease]
      issued := (heap.registries scope).issued ++ [heap.nextLease] } }

/-- `FiberScope::spawn`. -/
def spawn (scope : Nat) (fits : Bool) : Heap ι :=
  let heap := heap.retainLive scope
  let registry := heap.registries scope
  if registry.closed = true ∨ registry.capacity ≤ registry.fibers.length ∨ fits = false then heap
  else heap.issue scope

/-- `closed.set(true)` and `fibers.take()`. -/
def close (scope : Nat) : Heap ι :=
  heap.setRegistry scope { heap.registries scope with closed := true, fibers := [] }

/-- The body of a scope ends. -/
def finish (scope : Nat) (body : Body) : Heap ι :=
  heap.setRegistry scope { heap.registries scope with ended := some body }

/-- The registry of a new scope. -/
def openScope (activation : ι) (capacity : Nat) : Heap ι :=
  { heap with
    registries := Function.update heap.registries heap.nextScope
      ⟨[], capacity, false, [], activation, none⟩
    nextScope := heap.nextScope + 1 }

end Heap

/-- The payload of an attempt is kept; the last drain returns it to nobody. -/
def Drain.note (drain : Drain) : Option Nat → Drain
  | none => drain
  | some payload =>
      if drain.last then drain else { drain with failure := retain drain.failure payload }

/-- What follows a call of `reclaim`. -/
def Caller.resume (failure : Option Nat) : Caller → Pc
  | .user => .idle
  | .drain current => .draining (current.note failure)

/-- How `fiber_scope` ends: the panic of the body comes before one of the cleanup. -/
def Drain.exit (drain : Drain) : Exit :=
  match drain.body, drain.failure with
  | .panic payload, _ => .bodyPanic payload
  | .value, some payload => .cleanupPanic payload
  | .value, none => .value

/-- A `drain` begins. -/
def beginDrain (heap : Heap ι) (scope : Nat) (failure : Option Nat) (last : Bool) (body : Body) :
    Heap ι × Pc :=
  (heap.close scope, .draining ⟨scope, (heap.registries scope).fibers, 2, failure, last, body⟩)

/-- One round of `drain`. -/
def drainStep (activation : ι) (heap : Heap ι) (drain : Drain) : Heap ι × Pc :=
  match drain.pending with
  | [] =>
      if drain.last then (heap, .left drain.scope drain.exit)
      else beginDrain heap drain.scope drain.failure true drain.body
  | id :: rest =>
      if (heap.leases id).live = false then
        (heap, .draining { drain with pending := rest, attempts := 2 })
      else match drain.attempts with
        | 0 => ({ heap with aborted := true }, .draining drain)
        | attempts + 1 =>
            match (heap.leases id).beginReclaim activation with
            | .error _ => (heap, .draining ({ drain with attempts }.note (some rejection)))
            | .ok none => (heap, .draining { drain with attempts })
            | .ok (some lease) =>
                (heap.setLease id lease,
                  .mounting id (heap.leases id).phase (.drain { drain with attempts }))

/-- A call from user code. -/
def callStep (activation : ι) (heap : Heap ι) : Choice → Option (Heap ι × Pc)
  | .resume id =>
      if id < heap.nextLease then
        match (heap.leases id).beginResume activation with
        | .ok (some (lease, fiber)) => some (heap.setLease id lease, .resuming id fiber)
        | _ => some (heap, .idle)
      else none
  | .takeStack id =>
      if id < heap.nextLease then
        match (heap.leases id).takeStack with
        | .ok (some lease) => some (heap.setLease id lease, .taking)
        | _ => some (heap, .idle)
      else none
  | .reclaim id =>
      if id < heap.nextLease then
        match (heap.leases id).beginReclaim activation with
        | .ok (some lease) =>
            some (heap.setLease id lease, .mounting id (heap.leases id).phase .user)
        | _ => some (heap, .idle)
      else none
  | .cleanupContext id mount =>
      if id < heap.nextLease then
        match (heap.leases id).cleanupContext mount with
        | .ok lease => some (heap.setLease id lease, .replacing)
        | .error _ => some (heap, .idle)
      else none
  | .fiberScope capacity => some (heap.openScope activation capacity, .body heap.nextScope)
  | .spawn scope fits =>
      if scope < heap.nextScope then some (heap.spawn scope fits, .idle) else none
  | _ => none

/-- The next section of an activation. -/
def step (activation : ι) (choice : Choice) (heap : Heap ι) (pc : Pc) : Option (Heap ι × Pc) :=
  if heap.aborted then none
  else match pc, choice with
    | .idle, choice => callStep activation heap choice
    | .resuming id _, .unmount isComplete =>
        some (heap.setLease id ((heap.leases id).endResume ⟨isComplete⟩), .idle)
    | .taking, .back => some (heap, .idle)
    | .taking, .panics _ => some (heap, .idle)
    | .replacing, .back => some (heap, .idle)
    | .replacing, .panics _ => some (heap, .idle)
    | .mounting id _ caller, .back =>
        some (heap.setLease id (heap.leases id).revoke, .disposing 4 none caller)
    | .mounting id previous caller, .panics payload =>
        if (heap.leases id).cleanup.isSome then
          some (heap.setLease id ((heap.leases id).restore previous),
            caller.resume (some payload))
        else none
    | .disposing 0 failure caller, .go => some (heap, caller.resume failure)
    | .disposing (left + 1) failure caller, .back => some (heap, .disposing left failure caller)
    | .disposing (left + 1) failure caller, .panics payload =>
        some (heap, .disposing left (retain failure payload) caller)
    | .body scope, .back => some (beginDrain (heap.finish scope .value) scope none false .value)
    | .body scope, .panics payload =>
        some (beginDrain (heap.finish scope (.panic payload)) scope none false (.panic payload))
    | .draining drain, .go => some (drainStep activation heap drain)
    | _, _ => none

/-- A carrier before its first lease. -/
def Heap.new [Inhabited ι] : Heap ι :=
  ⟨fun _ => .new, 0, fun _ => ⟨[], 0, true, [], default, none⟩, 0, false⟩

def program (ι : Type) [Inhabited ι] : Program ι (Heap ι) Pc where
  initial heap := heap = .new
  start := .idle
  advance activation heap pc heap' pc' :=
    ∃ choice, step activation choice heap pc = some (heap', pc')

def scheduler (ι : Type) [Inhabited ι] [DecidableEq ι] : (program ι).Scheduler Choice where
  next activation choice heap pc := step activation choice heap pc
  sound _ choice _ _ _ taken := ⟨choice, taken⟩

end VThread.Stack
