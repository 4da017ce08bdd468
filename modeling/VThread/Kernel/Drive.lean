import VThread.Kernel.Cleanup

/-!
# Driving a kernel

Receiving starts, processing wakes and the tick that dispatches one task.  What the
dispatched task does before it gives the carrier back is a parameter of the tick.  A step
that returns a fault stops the drive just as a panic does, so both are errors here.
-/

namespace VThread.Kernel

open VThread.Lib VThread.Carrier VThread.Ready VThread.Wait

/-- `REMOTE_READY_TARGET`. -/
def remoteReadyTarget : Nat := 64

/-- `REMOTE_ADMISSION_DISPATCH_BOUND`. -/
def remoteAdmissionDispatchBound : Nat := 65536

namespace World

/-! ## Receiving starts -/

/-- `receive_local_tasks`, and whether there was any. -/
def receiveLocalTasks (world : World) : World × Bool :=
  if world.starts.isEmpty then (world, false)
  else ({ world.takeStarts with hasBorrowed := true }, true)

/-- `receive_local`. -/
def receiveLocal (world : World) : World := world.receiveLocalTasks.1

/-- The number of packets that the next batch may have. -/
def refillLimit (world : World) : Option Nat :=
  let target := min remoteReadyTarget world.config.carrierQueueCapacity
  if world.ready.len ≤ target / 2 then some (target - world.ready.len)
  else if remoteAdmissionDispatchBound ≤ world.admissionPressure then some 1
  else none

/-- The loop over the drained batch.  `granted` tells for every packet whether a stack can be
allocated for it. -/
def startIncoming : List Bool → World → Checked World
  | [], world => pure world
  | stack :: granted, world =>
      match world.incoming with
      | [] => pure world
      | packet :: incoming =>
          if stack then
            let inserted := world.tasks.insertOwned
              ⟨packet.task, packet.scope, [⟨packet.task, packet.scope⟩]⟩
            startIncoming granted { world with
              incoming
              tasks := inserted.1
              ready := world.ready.pushBack inserted.2 }
          else do
            let world ← { world with incoming, pending := some packet }.discardPending
              .stackAllocation
            startIncoming granted world

/-- `receive_remote_tasks`. -/
def receiveRemoteTasks (granted : Nat → Bool) (world : World) : Checked World := do
  ensure (world.incoming = []) "unprocessed start batch"
  match world.refillLimit with
  | none => pure world
  | some limit =>
      let drained := world.inbox.state.starts.take limit
      let world := { world with
        incoming := drained
        inbox := world.inbox.drainInto limit
        admissionPressure := if drained.length ≠ 0 then 0 else world.admissionPressure }
      startIncoming ((List.range drained.length).map granted) world

/-- `receive`. -/
def receive (granted : Nat → Bool) (world : World) : Checked World := do
  let world := { world with
    admissionPressure := world.admissionPressure + world.remotePending.toNat }
  let world ← world.receiveLocal.receiveRemoteTasks granted
  let remotePending := world.inbox.pendingStarts != 0
  pure { world with
    remotePending
    admissionPressure := if remotePending then world.admissionPressure else 0 }

/-! ## Wakes -/

/-- `finish_wake`. -/
def finishWake (notice : Notice) (world : World) : Checked World := do
  let (world, parked) ← world.removeParked notice.route
  pure { world with
    timers := if parked.hasDeadline then world.timers.filter (·.1 ≠ notice.token)
      else world.timers
    ready := world.ready.pushWake parked.task }

/-- Set the deferred flag of a parked task. -/
def setDeferred (world : World) (key : TaskKey) (deferred : Bool) : World :=
  { world with
    parked := world.parked.map fun parked =>
      if parked.task = key then { parked with deferred } else parked }

/-- `process_wake`. -/
def processWake (notice : Notice) (world : World) : Checked World :=
  match world.parked.find? (·.task == notice.route) with
  | none => pure world
  | some parked => do
      let task ← expect (world.tasks.get parked.task) "live task key"
      if task.id ≠ notice.task then throw "wake notice task does not own wait token"
      else if parked.token ≠ notice.token then pure world
      else match world.publication notice.token with
        | .published => world.finishWake notice
        | .inFlight =>
            if parked.deferred then pure world
            else do
              ensure (world.deferredWakes.length < world.config.maxVthreads)
                "deferred wakes exceed live-task admission"
              let world := world.setDeferred notice.route true
              pure { world with deferredWakes := world.deferredWakes ++ [notice] }
        | .stale => pure world

/-- `self.local.pop_wake().or_else(|| self.inbox.hub.pop_wake())`. -/
def popWake (world : World) : Option (Notice × World) :=
  match world.wakes, world.hub with
  | notice :: wakes, _ => some (notice, { world with wakes })
  | [], notice :: hub => some (notice, { world with hub })
  | [], [] => none

/-- The loop of `process_wakes`, over the notices that are there. -/
def processEach : Nat → World → Checked World
  | 0, world => pure world
  | count + 1, world =>
      match world.popWake with
      | none => pure world
      | some (notice, world) => do
          let world ← world.processWake notice
          processEach count world

/-- `process_wakes`.  The others move before it. -/
def processWakes (others : Nat → List Move) (world : World) : Checked World :=
  let world := world.pause others
  processEach (world.wakes.length + world.hub.length) world

/-- One round of `process_deferred_wakes`. -/
def processDeferred (notice : Notice) (world : World) : Checked World :=
  match world.parked.find? (·.task == notice.route) with
  | none => pure world
  | some parked => do
      ensure (parked.token = notice.token) "deferred route reused before retirement"
      (world.setDeferred notice.route false).processWake notice

/-- `process_deferred_wakes`. -/
def processDeferredWakes (others : Nat → List Move) (world : World) : Checked World := do
  let (world, _) ← sweep deferredWakes (fun deferredWakes world => { world with deferredWakes })
    processDeferred world.deferredWakes.length (world.pause others)
  pure world

/-! ## Timers -/

/-- `select_timeout`: the generation times out, unless it has been claimed. -/
def selectTimeout (token : ParkToken) (world : World) : World :=
  match world.generation token with
  | some ⟨_, _, _, .active⟩ =>
      ((world.move (.claim token .timedOut)).move (.link token false)).move (.publish token)
  | _ => world

/-- `expire_timers`, for the timers of some tokens. -/
def expireTimers : List ParkToken → World → World
  | [], world => world
  | token :: expired, world =>
      match world.timers.find? (·.1 == token) with
      | none => expireTimers expired world
      | some (_, key) =>
          let world := { world with timers := world.timers.filter (·.1 ≠ token) }
          let parked := world.parked.any fun parked => parked.task == key && parked.token == token
          expireTimers expired (if parked then world.selectTimeout token else world)

/-! ## Selection -/

/-- A pending abort covers the scope. -/
def blocked (world : World) (scope : Nat) : Bool :=
  world.pendingAborts.any fun entry => inScope entry.1 scope

/-- `select_unblocked`. -/
def selectUnblocked (world : World) : Checked (World × Option TaskKey) := do
  ensure (∀ key ∈ world.ready.normal ++ world.ready.wakes, (world.tasks.get key).isSome = true)
    "ready task"
  let (ready, selected) ← world.ready.popMatching fun key =>
    (world.scopeOf key).any (!world.blocked ·)
  pure ({ world with ready }, selected)

/-- `select_ready`. -/
def selectReady (world : World) : Checked World := do
  let (world, selected) ← if world.pendingAborts.isEmpty then
      pure ({ world with ready := world.ready.popFront.1 }, world.ready.popFront.2)
    else world.selectUnblocked
  pure { world with inFlight := selected }

/-- `abort_reason`. -/
def abortReason (world : World) (scope : Nat) : Option TaskFailure :=
  if !world.accepting then some .runtimeStopped
  else (world.scopes.find? (·.id == scope)).bind (·.aborting)

end World

/-! ## The dispatched task -/

/-- What a task does while it is mounted. -/
inductive Event where
  /-- `local_scope`. -/
  | enter
  /-- `LocalScope::spawn`, in the scope of an index. -/
  | spawn (index : Nat)
  /-- The end of the innermost scope. -/
  | leave
  /-- `begin` on a wait cell. -/
  | begin (wait : Nat)
  /-- The retirement of its generation. -/
  | retire
  deriving DecidableEq

/-- What a task does until it gives its carrier back.  A task that waits for a generation then
parks on it, and any other yields or completes. -/
structure Turn where
  events : List Event
  deadline : Bool
  completes : Bool
  deriving DecidableEq

namespace World

/-- `reserve_with` for a child of a task, and the start it queues. -/
def spawnLocal (parent : Task) (index : Nat) (world : World) : World :=
  match world.openScopes[index]? with
  | none => world
  | some scope =>
      if scope.owner = parent ∧ world.starts.length < world.config.carrierQueueCapacity ∧
          world.accepting = true ∧ world.inbox.stopped = false ∧
          (∃ state ∈ world.scopes, state.id = parent.scope ∧ state.aborting = none) ∧
          world.recordCount < world.config.maxVthreads then
        let frames : Frames := ⟨world.nextTask, parent.scope⟩
        { world with
          nextTask := world.nextTask + 1
          starts := world.starts ++ [⟨world.nextTask, parent.scope, frames :: parent.lineage⟩]
          openScopes := world.openScopes.set index
            { scope with children := scope.children ++ [frames] } }
      else world

/-- Leave the innermost scope of a task: its children are reclaimed. -/
def leaveScope (task : Task) (world : World) : Checked World :=
  match world.openScopes.findIdx? (·.owner == task) with
  | none => pure world
  | some index => do
      let children := (world.openScopes[index]?.map (·.children)).getD []
      let world ← { world with openScopes := world.openScopes.eraseIdx index }.unwind children
      pure (world.publishExits 1)

/-- `begin`, unless the cell or the task is busy. -/
def beginWait (key : TaskKey) (task : Task) (wait : Nat) (world : World) : World :=
  let generation := world.generations wait + 1
  if world.waits.any (fun known => known.token.wait == wait || known.route == key) ||
      maxGeneration < generation then world
  else
    { world with
      generations := fun other => if other = wait then generation else world.generations other
      waits := world.waits ++ [⟨⟨wait, generation⟩, task, key, .active⟩] }

/-- The generation of a task. -/
def waiting (world : World) (key : TaskKey) : Option Generation :=
  world.waits.find? (·.route == key)

/-- The owner retires its generation, unless its claim is unpublished. -/
def retireOwn (key : TaskKey) (world : World) : World :=
  match world.waiting key with
  | none => world
  | some wait =>
      if wait.phase.inFlight then world
      else (world.unregisterWake wait.token).retire wait.token

def event (key : TaskKey) (task : Task) (world : World) : Event → Checked World
  | .enter => pure { world with openScopes := ⟨task, []⟩ :: world.openScopes }
  | .spawn index => pure (world.spawnLocal task index)
  | .leave => world.leaveScope task
  | .begin wait => pure (world.beginWait key task wait)
  | .retire => pure (world.retireOwn key)

/-- The others move before every event. -/
def events (others : Nat → List Move) (key : TaskKey) (task : Task) :
    List Event → World → Checked World
  | [], world => pure world
  | next :: rest, world => do
      let world ← (world.pause others).event key task next
      events others key task rest world

/-- `park_task`. -/
def parkTask (wait : Generation) (deadline : Bool) (world : World) : Checked World := do
  let key ← expect world.inFlight "parking task key"
  ensure (world.parked.find? (·.task == key) = none) "task parked twice"
  ensure (deadline = false ∨ world.timers.any (·.1 == wait.token) = false)
    "wait timer scheduled twice"
  pure { world with
    timers := if deadline then world.timers ++ [(wait.token, key)] else world.timers
    inFlight := none
    parked := world.parked ++ [⟨wait.token, key, deadline, false⟩] }

/-- `complete_task`.  The frames of the task have been left. -/
def completeTask (world : World) : Checked World := do
  let key ← expect world.inFlight "completed task key"
  let task ← expect (world.tasks.get key) "live task key"
  let world ← world.unwind [task.frames]
  let world ← world.removeInFlight
  pure (world.complete task.id none)

/-- Mount a task until it gives its carrier back.  A reclaimed lease is not resumed. -/
def dispatch (others : Nat → List Move) (key : TaskKey) (turn : Turn) (world : World) :
    Checked World := do
  let task ← expect (world.tasks.get key) "ready task key"
  if world.revoked key then world.discardInFlight .scopeClosed
  else do
    let world ← world.events others key task turn.events
    match world.waiting key with
    | some wait => world.parkTask wait turn.deadline
    | none =>
        if turn.completes then world.completeTask
        else pure { world with ready := world.ready.pushBack key, inFlight := none }

/-! ## The tick -/

end World

/-- What a tick has done with a task. -/
inductive Progress where
  | idle
  | aborted (key : TaskKey)
  | dispatched (key : TaskKey)
  deriving DecidableEq

/-- What a tick takes from outside: whether the signal has changed, the timers that have expired
and the turn of the task it dispatches. -/
structure TickInput where
  signalChanged : Bool
  expired : List ParkToken
  turn : Turn
  deriving DecidableEq

namespace World

/-- There are notices to process. -/
def hasWakes (world : World) : Bool := !world.wakes.isEmpty || !world.hub.isEmpty

/-- The part of `tick` before the selection. -/
def maintain (others : Nat → List Move) (input : TickInput) (world : World) : Checked World := do
  let world ← world.sweepRevoked
  let world ← if input.signalChanged then do
      let (world, _) ← world.retryAborts others
      world.processDeferredWakes others
    else pure world
  let world ← if input.signalChanged || (!world.parked.isEmpty && world.hasWakes) then
      world.processWakes others
    else pure world
  if world.timers.isEmpty then pure world
  else (world.expireTimers input.expired).processWakes others

/-- The part of `tick` that chooses the task in flight. -/
def select (others : Nat → List Move) (world : World) : Checked World := do
  let world ← world.selectReady
  if world.inFlight.isNone && world.hasWakes then do
    let world ← world.processWakes others
    world.selectReady
  else pure world

/-- The part of `tick` after the selection. -/
def mount (others : Nat → List Move) (turn : Turn) (world : World) : Checked (World × Progress) :=
  match world.inFlight with
  | none => pure (world, .idle)
  | some key => do
      let task ← expect (world.tasks.get key) "live task key"
      match world.abortReason task.scope with
      | some reason => do
          let (world, _) ← world.abort others (some task.scope) reason
          pure (world, .aborted key)
      | none => do
          let world ← world.dispatch others key turn
          pure (world, .dispatched key)

def tick (others : Nat → List Move) (input : TickInput) (world : World) :
    Checked (World × Progress) := do
  let world ← world.maintain others input
  let world ← world.select others
  world.mount others input.turn

end World

end VThread.Kernel
