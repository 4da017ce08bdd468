import VThread.Kernel.State
import VThread.Lib.SwapRemove

/-!
# Cleanup of a kernel

Aborts of one scope or of all of them, their deferral and their retries, and the sweep of
revoked borrowed tasks.
-/

namespace VThread.Kernel

open VThread.Lib VThread.Carrier VThread.Ready VThread.Wait

/-- `scope.is_none_or(|scope| other == scope)`. -/
def inScope (scope : Option Nat) (other : Nat) : Bool := scope.all (other == ·)

namespace World

/-! ## Discarding tasks -/

/-- `discard_pending`. -/
def discardPending (reason : TaskFailure) (world : World) : Checked World := do
  let packet ← expect world.pending "pending packet"
  pure ({ world with pending := none }.complete packet.task (some reason))

/-- `discard_in_flight`.  Dropping the fiber of a revoked lease does nothing more. -/
def discardInFlight (reason : TaskFailure) (world : World) : Checked World := do
  let key ← expect world.inFlight "owned task key"
  let task ← expect (world.tasks.get key) "live task key"
  let world ← if world.revoked key then pure world else world.unwind [task.frames]
  let world ← world.removeInFlight
  pure (world.complete task.id (some reason))

/-- `remove_parked`. -/
def removeParked (key : TaskKey) (world : World) : Checked (World × ParkedTask) := do
  let parked ← expect (world.parked.find? (·.task == key)) "owned park route"
  let world := { world with parked := world.parked.filter (·.task ≠ key) }
  if parked.deferred then
    let index ← expect (world.deferredWakes.findIdx? fun notice =>
      notice.route == key && notice.token == parked.token) "owned deferred generation"
    let (_, deferredWakes) ← expect (swapRemove world.deferredWakes index) "swap_remove index"
    pure ({ world with deferredWakes }, parked)
  else pure (world, parked)

/-- Discard a parked task whose generation can be retired. -/
def discardParked (reason : TaskFailure) (message : String) (key : TaskKey) (world : World) :
    Checked World := do
  let (world, parked) ← world.removeParked key
  let (world, retired) := (world.unregisterWake parked.token).tryAbandon parked.token
  ensure (retired = true) message
  { world with
    timers := world.timers.filter (·.1 ≠ parked.token)
    inFlight := some parked.task }.discardInFlight reason

/-- Discard the ready tasks that match, one at a time: an inspection of the whole queue. -/
def discardReady (matching : World → TaskKey → Bool) (reason : TaskFailure) :
    Nat → Inspection → World → Checked World
  | 0, _, world => pure world
  | calls + 1, inspection, world => do
      let removal ← world.ready.removeMatching inspection (matching world)
      ensure (∀ key ∈ removal.visited, (world.tasks.get key).isSome = true) "ready task"
      let world := { world with ready := removal.queue }
      match removal.found with
      | none => pure world
      | some key =>
          let world ← { world with inFlight := some key }.discardInFlight reason
          discardReady matching reason calls removal.inspection world

/-- As many calls as the queue has entries, and one that finds nothing. -/
def discardAllReady (matching : World → TaskKey → Bool) (reason : TaskFailure) (world : World) :
    Checked World :=
  world.discardReady matching reason (world.ready.len + 1) world.ready.inspection

/-- Discard parked tasks one after the other. -/
def discardAllParked (reason : TaskFailure) (message : String) :
    List TaskKey → World → Checked World
  | [], world => pure world
  | key :: keys, world => do
      let world ← world.discardParked reason message key
      discardAllParked reason message keys world

/-- Discard the ready tasks that match, then the parked ones. -/
def discardMatching (matching : World → TaskKey → Bool) (reason : TaskFailure) (message : String)
    (world : World) : Checked World := do
  let world ← world.discardAllReady matching reason
  let keys := (world.parked.filter fun parked => matching world parked.task).map (·.task)
  world.discardAllParked reason message keys

/-! ## Tasks that have not started -/

/-- The loop over the drained start packets. -/
def discardIncoming (scope : Option Nat) (reason : TaskFailure) : Nat → World → Checked World
  | 0, world => pure world
  | count + 1, world =>
      match world.incoming with
      | [] => throw "drained start packet"
      | packet :: incoming =>
          if inScope scope packet.scope then do
            let world ← { world with incoming, pending := some packet }.discardPending reason
            discardIncoming scope reason count world
          else discardIncoming scope reason count { world with incoming := incoming ++ [packet] }

/-- The loop over `pop_scope`; it ends when the inbox has no packet of the scope left. -/
def discardInbox (scope : Option Nat) (reason : TaskFailure) : Nat → World → Checked World
  | 0, world => pure world
  | count + 1, world =>
      match world.inbox.state.starts.find? (fun packet => inScope scope packet.scope) with
      | none => pure world
      | some packet => do
          let world ← { world with
            inbox := world.inbox.popScope scope
            pending := some packet }.discardPending reason
          discardInbox scope reason count world

/-- The packets of the drained batch, then those of the inbox. -/
def discardQueued (scope : Option Nat) (reason : TaskFailure) (world : World) :
    Checked World := do
  let world ← world.discardIncoming scope reason world.incoming.length
  world.discardInbox scope reason world.inbox.state.starts.length

/-- What `abort` does to the tasks that have not started. -/
def discardUnstarted (scope : Option Nat) (reason : TaskFailure) (world : World) :
    Checked World := do
  let world ← if world.pending.any (inScope scope ·.scope) then world.discardPending reason
    else pure world
  let queued ← { world with pending := none }.discardQueued scope reason
  pure { queued with pending := world.pending }

/-- A local start becomes runnable. -/
def insertStart (world : World) (task : Task) : World :=
  let inserted := world.tasks.insertBorrowed task
  { world with tasks := inserted.1, ready := world.ready.pushBack inserted.2 }

/-- All local starts become runnable. -/
def takeStarts (world : World) : World :=
  world.starts.foldl insertStart { world with starts := [] }

/-! ## Deferral -/

/-- The loop of `prepare_abort` over the parked tasks.  The others move before every attempt. -/
def prepareEach (others : Nat → List Move) (scope : Option Nat) :
    List ParkedTask → World → Checked (World × Bool)
  | [], world => pure (world, true)
  | parked :: rest, world => do
      let task ← expect (world.tasks.get parked.task) "live task key"
      if inScope scope task.scope then
        let (world, complete) := (world.pause others).tryAbandon parked.token
        let (world, retired) ← prepareEach others scope rest world
        pure (world, complete && retired)
      else prepareEach others scope rest world

def prepareAbort (others : Nat → List Move) (scope : Option Nat) (world : World) :
    Checked (World × Bool) :=
  world.prepareEach others scope world.parked

/-- The first pending abort of the scope gets the new reason. -/
def replaceReason (scope : Option Nat) (reason : TaskFailure) :
    List (Option Nat × TaskFailure) → List (Option Nat × TaskFailure)
  | [] => []
  | entry :: rest =>
      if entry.1 = scope then (scope, reason) :: rest else entry :: replaceReason scope reason rest

/-- The task in flight, when it belongs to the scope. -/
def flightIn (scope : Option Nat) (world : World) : Checked Bool :=
  match world.inFlight with
  | none => pure false
  | some key => do
      let task ← expect (world.tasks.get key) "live task key"
      pure (inScope scope task.scope)

/-- The pending aborts with one more, unless an abort of all scopes is pending. -/
def pushAbort (scope : Option Nat) (reason : TaskFailure) (world : World) : Checked World := do
  let pendingAborts := if scope.isNone then [] else world.pendingAborts
  if pendingAborts.any (·.1 == scope) then
    pure { world with pendingAborts := replaceReason scope reason pendingAborts }
  else do
    ensure (pendingAborts.length < world.config.maxOwnedScopes)
      "deferred cleanup exceeds bounded scope admission"
    pure { world with pendingAborts := pendingAborts ++ [(scope, reason)] }

/-- The task in flight becomes runnable again, when it belongs to the scope. -/
def returnFlight (scope : Option Nat) (world : World) : Checked World := do
  if ← world.flightIn scope then do
    let key ← expect world.inFlight "retained ancestor"
    pure { world with ready := world.ready.pushFront key, inFlight := none }
  else pure world

def deferAbort (scope : Option Nat) (reason : TaskFailure) (world : World) : Checked World :=
  if scope.isSome && world.pendingAborts.any (·.1.isNone) then pure world
  else do
    let world ← world.pushAbort scope reason
    world.returnFlight scope

/-! ## Aborts -/

/-- The scope of a live task. -/
def scopeOf (world : World) (key : TaskKey) : Option Nat := (world.tasks.get key).map (·.scope)

/-- The task of a key belongs to the scope. -/
def keyIn (scope : Option Nat) (world : World) (key : TaskKey) : Bool :=
  (world.scopeOf key).any (inScope scope ·)

/-- Discard the task in flight, when it belongs to the scope. -/
def discardFlight (scope : Option Nat) (reason : TaskFailure) (world : World) :
    Checked World := do
  if ← world.flightIn scope then world.discardInFlight reason else pure world

/-- The task in flight is put in front of the ready ones. -/
def hideFlight (world : World) : World :=
  match world.inFlight with
  | none => world
  | some key => { world with ready := world.ready.pushFront key, inFlight := none }

/-- The task that was in flight is again. -/
def restoreFlight (retained : Option TaskKey) (world : World) : Checked World :=
  match retained with
  | none => pure world
  | some key => do
      let (ready, moved) := world.ready.remove key
      ensure (moved = true) "retained in-flight task moved"
      pure { world with ready, inFlight := some key }

/-- What `abort` does once no generation of the scope can be claimed any more. -/
def reclaim (scope : Option Nat) (reason : TaskFailure) (world : World) : Checked World := do
  let world := { world with
    pendingAborts := world.pendingAborts.filter fun entry => scope.isSome && entry.1 != scope }
  let world ← world.discardFlight scope reason
  let retained := world.inFlight
  let world ← world.hideFlight.discardMatching (keyIn scope) reason
    "preflight retained a publisher"
  let world ← world.restoreFlight retained
  pure world.refreshBorrowed

/-- `abort`, which reports whether the tasks are reclaimed. -/
def abort (others : Nat → List Move) (scope : Option Nat) (reason : TaskFailure) (world : World) :
    Checked (World × Bool) := do
  let world ← world.discardUnstarted scope reason
  let (world, retired) ← world.takeStarts.prepareAbort others scope
  if retired then do
    let world ← world.reclaim scope reason
    pure (world, true)
  else do
    let world ← world.deferAbort scope reason
    pure (world, false)

def setPendingAborts (pendingAborts : List (Option Nat × TaskFailure)) (world : World) : World :=
  { world with pendingAborts }

/-- One round of `retry_aborts`. -/
def retryAbort (others : Nat → List Move) (entry : Option Nat × TaskFailure) (world : World) :
    Checked World := do
  let (world, _) ← world.abort others entry.1 entry.2
  pure world

/-- `retry_aborts`, with the aborts it has attempted. -/
def retryAborts (others : Nat → List Move) (world : World) :
    Checked (World × List (Option Nat × TaskFailure)) :=
  sweep pendingAborts setPendingAborts (retryAbort others) world.pendingAborts.length world

/-! ## Revocation -/

/-- `sweep_revoked`. -/
def sweepRevoked (world : World) : Checked World := do
  if !world.hasBorrowed then pure world
  else if world.epoch = world.observedEpoch then pure world
  else do
    let world := { world with observedEpoch := world.epoch }
    let world ← world.discardMatching revoked .scopeClosed "revoked frame retained a publisher"
    pure world.refreshBorrowed

end World

end VThread.Kernel
