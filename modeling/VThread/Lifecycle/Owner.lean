import VThread.Lib.Transition
import VThread.Lib.SwapRemove
import VThread.Lifecycle.Runtime

/-!
# The process lifecycle owner

Starts of runtimes, the reaper, observers of the health and the runtimes themselves act in any
order, one locked section at a time.  A start holds the lock of the owner throughout; here starts
overlap freely.
-/

namespace VThread.Lifecycle

open VThread.Lib

/-- `LIFECYCLE_CAPACITY`. -/
def capacity : Nat := 256

structure Slots where
  occupied : Nat
  entries : List Nat
  failure : Option ThreadFailure
  deriving DecidableEq

inductive StartError where
  | lifecycleFailed (failure : ThreadFailure)
  | capacity (limit : Nat)
  | threadStart (component : ThreadComponent)
  deriving DecidableEq

namespace Slots

/-- The section of `Permit::reserve`. -/
def reserve (slots : Slots) : Except StartError Slots :=
  match slots.failure with
  | some failure => .error (.lifecycleFailed failure)
  | none =>
      if capacity ≤ slots.occupied then .error (.capacity capacity)
      else .ok { slots with occupied := slots.occupied + 1 }

/-- `occupied -= 1`. -/
def release (slots : Slots) : Checked Slots := do
  ensure (0 < slots.occupied) "attempt to subtract with overflow"
  pure { slots with occupied := slots.occupied - 1 }

def push (id : Nat) (slots : Slots) : Slots := { slots with entries := slots.entries ++ [id] }

/-- The section of `State::fail`; the runtimes to tell, unless a failure was published before. -/
def fail (failure : ThreadFailure) (slots : Slots) : Option (Slots × List Nat) :=
  if slots.failure.isSome then none
  else some ({ slots with failure := some failure }, slots.entries)

end Slots

/-- `record_failure` for a list of runtimes, section by section. -/
inductive Telling where
  | check (rest : List Nat)
  | stamp (id : Nat) (rest : List Nat)
  | push (stamped : ThreadFailure) (id : Nat) (rest : List Nat)
  | stop (id : Nat) (rest : List Nat)
  deriving DecidableEq

/-- The thread of the owner. -/
inductive Reaper where
  | absent
  | scanning
  | waiting
  /-- A claim is held, its entry about to be joined. -/
  | claimed (id : Nat)
  /-- The handle is taken out of the join slot. -/
  | joining (id : Nat)
  | reporting (id : Nat)
  | recording (stamped : ThreadFailure) (id : Nat)
  | checking (id : Nat)
  /-- The resources are drained; the terminal phase is chosen. -/
  | naming (id : Nat)
  | dropping (id : Nat) (phase : ShutdownPhase)
  /-- The entry is dropped and still counted. -/
  | counting (id : Nat) (phase : ShutdownPhase)
  | publishing (id : Nat) (phase : ShutdownPhase)
  /-- The claim is dropped with its entry. -/
  | restoring (id : Nat) (failure : ThreadFailure)
  | failing (failure : ThreadFailure)
  | telling (failure : ThreadFailure) (tell : Telling)
  | finished
  deriving DecidableEq

/-- The entry of the reaper's claim. -/
def Reaper.held : Reaper → Option Nat
  | claimed id | joining id | reporting id | recording _ id | checking id | naming id
  | dropping id _ | restoring id _ => some id
  | _ => none

/-- The entry that was dropped and is still counted. -/
def Reaper.uncounted : Reaper → Option Nat
  | counting id _ => some id
  | _ => none

/-- Where a call of `start`, or of `check_health`, is. -/
inductive Place where
  | owner
  | health
  | failing
  | reading
  | reserving
  /-- A permit is held, the coordinator not yet spawned. -/
  | spawning
  /-- The permit is dropped. -/
  | dropping
  /-- The coordinator is spawned, its entry about to be installed. -/
  | installing
  /-- A failure was published: by this call, or before its entry was installed. -/
  | telling (failure : ThreadFailure) (tell : Telling) (installed : Bool)
  | done (result : Except StartError Unit)

/-- A permit that is not installed. -/
def Place.permit : Place → Bool
  | spawning | dropping | installing => true
  | _ => false

/-- The entry may still be installed. -/
def Place.pending : Place → Bool
  | owner | health | failing | reading | reserving | spawning | installing => true
  | telling _ _ installed => !installed
  | dropping | done _ => false

structure Start where
  runtime : Nat
  place : Place

/-- The process. -/
structure World where
  slots : Slots
  runtimes : Nat → Runtime
  next : Nat
  reaper : Reaper
  starts : List Start
  /-- How often a count went below zero. -/
  underflows : Nat

namespace World

variable (world : World)

def initial : World := ⟨⟨0, [], none⟩, fun _ => .new, 0, .absent, [], 0⟩

def modify (id : Nat) (change : Runtime → Runtime) : World :=
  { world with runtimes := Function.update world.runtimes id (change (world.runtimes id)) }

def setStage (id : Nat) (stage : Stage) : World :=
  world.modify id fun runtime => { runtime with stage }

def setReaper (reaper : Reaper) : World := { world with reaper }

def setSlots (slots : Slots) : World := { world with slots }

def setPlace (index : Nat) (place : Place) : World :=
  { world with starts := world.starts.modify index fun start => { start with place } }

/-- A slot is released. -/
def release : World :=
  match world.slots.release with
  | .ok slots => world.setSlots slots
  | .error _ => { world with underflows := world.underflows + 1 }

/-- The permits that are not installed. -/
def permits : Nat := world.starts.countP (·.place.permit)

/-! ## Telling runtimes -/

/-- One section of `record_failure`; none when every runtime has been told. -/
def tell (failure : ThreadFailure) : Telling → Option (World × Telling)
  | .check [] => none
  | .check (id :: rest) =>
      if (world.runtimes id).shutdownPhase ≠ .complete then some (world, .stamp id rest)
      else some (world, .check rest)
  | .stamp id rest =>
      some (world,
        .push { failure with shutdownPhase := (world.runtimes id).shutdownPhase } id rest)
  | .push stamped id rest => some (world.modify id (.pushFailure stamped), .stop id rest)
  | .stop id rest => some (world.modify id .requestStop, .check rest)

/-! ## The reaper -/

/-- `Claim::ready`. -/
def claim : World :=
  match world.slots.entries.findIdx? (fun id => (world.runtimes id).finished) with
  | none => world.setReaper .waiting
  | some index =>
      match swapRemove world.slots.entries index with
      | none => world.setReaper .waiting
      | some (id, rest) =>
          ((world.setSlots { world.slots with entries := rest }).setStage id .claimed).setReaper
            (.claimed id)

def stoppedFailure (message : String) : ThreadFailure :=
  .new .lifecycleOwner "vthread-lifecycle-owner" .running ⟨message, false, false⟩

/-- The next section of the reaper. -/
def reap : Option World :=
  match world.reaper with
  | .absent => none
  | .scanning => some world.claim
  | .waiting => some (world.setReaper .scanning)
  | .claimed id =>
      match (world.runtimes id).worker with
      | .retained =>
          some ((world.modify id fun runtime => { runtime with worker := .joining }).setReaper
            (.joining id))
      | _ => some (world.setReaper (.checking id))
  | .joining id =>
      if (world.runtimes id).exited.isSome then
        some ((world.modify id fun runtime => { runtime with worker := .joined }).setReaper
          (.reporting id))
      else none
  | .reporting id =>
      match (world.runtimes id).exited with
      | some (some report) =>
          some (world.setReaper (.recording
            { ThreadFailure.new .coordinator "vthread-shutdown" .join report with
              shutdownPhase := (world.runtimes id).shutdownPhase } id))
      | _ => some ((world.modify id (.joinedCleanly .coordinator "vthread-shutdown")).setReaper
          (.checking id))
  | .recording stamped id =>
      some ((world.modify id (.pushFailure stamped)).setReaper (.checking id))
  | .checking id =>
      let runtime := world.runtimes id
      if runtime.resources.drained runtime.worker.isJoined then
        some ((world.modify id fun runtime => { runtime with
          confirmed := some runtime.resources }).setReaper (.naming id))
      else some (world.setReaper
        (.restoring id (stoppedFailure "coordinator exited before cleanup was confirmed")))
  | .naming id =>
      some (world.setReaper (.dropping id
        (if (world.runtimes id).failures.isEmpty then .complete else .failed)))
  | .dropping id phase => some ((world.setStage id .dropped).setReaper (.counting id phase))
  | .counting id phase =>
      some ((world.release.setStage id .released).setReaper (.publishing id phase))
  | .publishing id phase => some ((world.modify id (.advanceShutdown phase)).setReaper .scanning)
  | .restoring id failure =>
      some (((world.setSlots (world.slots.push id)).setStage id .listed).setReaper
        (.failing failure))
  | .failing failure =>
      match world.slots.fail failure with
      | none => some (world.setReaper .finished)
      | some (slots, told) =>
          some ((world.setSlots slots).setReaper (.telling failure (.check told)))
  | .telling failure tell =>
      match world.tell failure tell with
      | none => some (world.setReaper .finished)
      | some (world, tell) => some (world.setReaper (.telling failure tell))
  | .finished => none

/-- The reaper panics before it releases an entry: the handle goes back to its join slot, and the
claim, if there is one, back to the table. -/
def reaperPanics (report : PanicReport) : Option World :=
  let failure := ThreadFailure.new .lifecycleOwner "vthread-lifecycle-owner" .running report
  match world.reaper with
  | .scanning | .waiting => some (world.setReaper (.failing failure))
  | .joining id =>
      some ((world.modify id fun runtime => { runtime with worker := .retained }).setReaper
        (.restoring id failure))
  | .claimed id | .reporting id | .recording _ id | .checking id | .naming id | .dropping id _ =>
      some (world.setReaper (.restoring id failure))
  | _ => none

/-! ## Starts -/

/-- A call for a new runtime begins. -/
def begin : World :=
  { world with
    next := world.next + 1
    starts := world.starts ++ [⟨world.next, .owner⟩] }

/-- The next section of a start.  A decision tells whether a thread can be spawned, and whether
the caller wants more than the health. -/
def start (index : Nat) (decision : Bool) : Option World :=
  world.starts[index]?.bind fun start =>
    match start.place with
    | .owner =>
        if world.reaper ≠ .absent then some (world.setPlace index .health)
        else if decision then some ((world.setReaper .scanning).setPlace index .health)
        else some (world.setPlace index (.done (.error (.threadStart .lifecycleOwner))))
    | .health =>
        some (world.setPlace index (if world.reaper = .finished then .failing else .reading))
    | .failing =>
        let failure := stoppedFailure "lifecycle owner stopped unexpectedly"
        match world.slots.fail failure with
        | none => some (world.setPlace index .reading)
        | some (slots, told) =>
            some ((world.setSlots slots).setPlace index (.telling failure (.check told) false))
    | .reading =>
        match world.slots.failure with
        | some failure => some (world.setPlace index (.done (.error (.lifecycleFailed failure))))
        | none => some (world.setPlace index (if decision then .reserving else .done (.ok ())))
    | .reserving =>
        match world.slots.reserve with
        | .error error => some (world.setPlace index (.done (.error error)))
        | .ok slots => some ((world.setSlots slots).setPlace index .spawning)
    | .spawning => some (world.setPlace index (if decision then .installing else .dropping))
    | .dropping =>
        some (world.release.setPlace index (.done (.error (.threadStart .coordinator))))
    | .installing =>
        let id := start.runtime
        let pushed := (world.setSlots (world.slots.push id)).setStage id .listed
        match world.slots.failure with
        | none => some (pushed.setPlace index (.done (.ok ())))
        | some failure =>
            some (pushed.setPlace index (.telling failure (.check [id]) true))
    | .telling failure tell installed =>
        match world.tell failure tell with
        | some (world, tell) => some (world.setPlace index (.telling failure tell installed))
        | none => some (world.setPlace index
            (if installed then .done (.error (.lifecycleFailed failure)) else .reading))
    | .done _ => none

end World

/-- What else may happen to a runtime. -/
inductive Event where
  /-- Only the reaper publishes a terminal phase. -/
  | advance (phase : ShutdownPhase)
  | requestStop
  | pushFailure (stamped : ThreadFailure)
  | joined (component : ThreadComponent) (name : String)
  | resources (resources : CoordinatorResources)
  /-- The coordinator ends, with the report of its panic if it panicked. -/
  | exit (panicked : Option PanicReport)

def Event.apply (event : Event) (runtime : Runtime) : Runtime :=
  match event with
  | .advance phase => if phase.terminal then runtime else runtime.advanceShutdown phase
  | .requestStop => runtime.requestStop
  | .pushFailure stamped => runtime.pushFailure stamped
  | .joined component name => runtime.joinedCleanly component name
  | .resources current => { runtime with resources := current }
  | .exit panicked =>
      if runtime.exited.isSome then runtime else { runtime with exited := some panicked }

inductive Choice where
  | begin
  | start (index : Nat) (decision : Bool)
  | reap
  | reaperPanics (report : PanicReport)
  | event (id : Nat) (event : Event)

def next (choice : Choice) (world : World) : Option World :=
  match choice with
  | .begin => some world.begin
  | .start index decision => world.start index decision
  | .reap => world.reap
  | .reaperPanics report => world.reaperPanics report
  | .event id event => some (world.modify id event.apply)

def machine : Machine World Choice where
  initial world := world = .initial
  next := next

end VThread.Lifecycle
