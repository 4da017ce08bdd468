import VThread.Lib.Placement
import VThread.Wait.Parking

/-!
# The pool of native workers

Callers submit jobs and hold leases; workers take, execute and reclaim them.  Every locked
section, every access to a job's flag, result or wait word and every user closure is one
step; user closures may end in a panic.

Accepted jobs are numbered.  Next to the pool, the model keeps where the charge of each job
is, who holds it, and what became of the job.  No step reads that.
-/

namespace VThread.Blocking

open VThread.Lib VThread.Wait

abbrev JobId := Nat

/-- What the caller's closure left in its `Output`. -/
inductive Result where
  | value
  | panicked
  deriving DecidableEq, Repr

/-- How a body was consumed. -/
inductive BodyEnd where
  | ran
  | dropped
  deriving DecidableEq, Repr

/-- Who ended the wait generation of a job: its body with `Ready`, the pool with `Closed`,
or someone else, its own caller included. -/
inductive Ending where
  | body
  | pool
  | elsewhere
  deriving DecidableEq, Repr

/-- What the parties of one job share, and its history. -/
structure Job where
  token : ParkToken
  word : WaitWord
  abandoned : Bool
  output : Option Result
  ending : Option Ending
  stored : Bool
  discarded : Bool
  bodies : List BodyEnd
  reclaims : Nat
  releases : Nat
  deriving DecidableEq

/-- A job as it is submitted. -/
def Job.new (token : ParkToken) (word : WaitWord) : Job :=
  ⟨token, word, false, none, none, false, false, [], 0, 0⟩

/-- `State`. -/
structure State where
  queue : List JobId
  completed : List JobId
  running : Nat
  discarding : Nat
  panicked : Nat
  stopped : Bool
  failed : Bool
  deriving DecidableEq

def State.new : State := ⟨[], [], 0, 0, 0, false, false⟩

/-- Where the charge of a job can be. -/
inductive Place where
  | queued
  | completed
  | running
  | discarding
  deriving DecidableEq, Repr

instance : Fintype Place where
  elems := {.queued, .completed, .running, .discarding}
  complete place := by cases place <;> decide

inductive Error where
  | blockingFailed
  | runtimeStopped
  | capacity (limit : Nat)
  deriving DecidableEq, Repr

/-- `Charge`, for the job it was taken for. -/
structure Charge where
  job : JobId
  discard : Bool
  wake : Bool
  retained : Bool
  deriving DecidableEq

/-- Where `execute` stands, before its next step. -/
inductive ExecuteStage where
  | selectClosed
  | body
  | running
  | store (result : Result)
  | selectReady (panicked : Bool)
  | count (panicked : Bool)
  | settle
  | destroy
  | countReclaim (panicked : Bool)
  | retain
  -- the charge is dropped
  | close
  | release
  deriving DecidableEq

/-- A worker that has failed counts the rounds left to it. -/
inductive Stage where
  | rest
  -- workers
  | take (left : Option Nat)
  | execute (left : Option Nat) (charge : Charge) (stage : ExecuteStage)
  | fail (queued : List JobId)
  | returned
  | panicked (message : String)
  -- callers
  | rejected (error : Error)
  | leased (job : JobId)
  | dropping (job : JobId)
  deriving DecidableEq

/-- Workers, callers, and whoever stops the pool or moves a wait word. -/
inductive Party (ω μ : Type) where
  | worker (id : ω)
  | caller (id : μ)
  | outside
  deriving DecidableEq

structure Shared (ω : Type) where
  capacity : Nat
  state : State
  accepted : Nat
  jobs : JobId → Job
  placement : Placement Place JobId
  holder : JobId → Option ω

/-- What others do to the wait word of a job. -/
inductive CellMove where
  | claim (cause : WakeCause)
  | publish
  | interest
  | retire
  deriving DecidableEq

/-- Free choices of a step: whether the worker fails, a closure panics or the caller takes
its result, what a caller submits, and what happens outside. -/
structure Choice where
  flag : Bool
  token : ParkToken
  word : WaitWord
  outside : Option (JobId × CellMove)
  deriving DecidableEq

variable {ω μ : Type}

/-! ## Jobs -/

namespace Job

/-- `select_ready` and `select_closed`: the first selection of an active generation wins.
A generation that is being bound is waited for. -/
def select (job : Job) (cause : WakeCause) (ending : Ending) : Option Job :=
  match (selectGeneration job.token cause job.word : Decision) with
  | .reload => none
  | .exchange next _ => some { job with word := next, ending := some ending }
  | _ => some job

/-- What others do to the wait word; its owner retires no claimed word. -/
def outside (job : Job) : CellMove → Option Job
  | .claim cause => job.select cause .elsewhere
  | .publish =>
      match job.word.publishClaim with
      | .ok word => some { job with word }
      | .error _ => none
  | .interest =>
      if job.word.isClaimed then some { job with word := job.word.withPermit true } else none
  | .retire =>
      if job.word.isClaimed ∨ job.word.phase = .binding then none
      else some { job with
        word := job.word.retire
        ending := if job.word.phase = .active then some .elsewhere else job.ending }

end Job

namespace Shared

def setJob (shared : Shared ω) (id : JobId) (job : Job) : Shared ω :=
  { shared with jobs := Function.update shared.jobs id job }

/-- The charge of a job moves to another place. -/
def moveJob (shared : Shared ω) (id : JobId) (place : Place) (holder : Option ω) : Shared ω :=
  { shared with
    placement := shared.placement.move id place
    holder := Function.update shared.holder id holder }

def addPanic (shared : Shared ω) (panicked : Bool) : Shared ω :=
  { shared with state.panicked := shared.state.panicked + panicked.toNat }

/-- The jobs charged to the capacity. -/
def charged (shared : Shared ω) : Nat :=
  shared.state.queue.length + shared.state.completed.length + shared.state.running +
    shared.state.discarding

/-! ## Callers -/

/-- `submit`. -/
def submit (shared : Shared ω) (token : ParkToken) (word : WaitWord) :
    Except Error (Shared ω) :=
  if shared.state.failed then .error .blockingFailed
  else if shared.state.stopped then .error .runtimeStopped
  else if shared.capacity ≤ shared.charged then .error (.capacity shared.capacity)
  else .ok { shared with
    state.queue := shared.state.queue ++ [shared.accepted]
    accepted := shared.accepted + 1
    jobs := Function.update shared.jobs shared.accepted (.new token word)
    placement := shared.placement.move shared.accepted .queued }

/-! ## Workers -/

/-- A worker takes a charge. -/
def hold (shared : Shared ω) (worker : ω) (charge : Charge) (job : Job) (state : State) :
    Shared ω :=
  { (shared.moveJob charge.job (if charge.discard then .discarding else .running)
      (some worker)).setJob charge.job job with state }

/-- The locked section of `take`; `none` while it waits. -/
def take (shared : Shared ω) (worker : ω) (left : Option Nat) : Option (Shared ω × Stage) :=
  let state := shared.state
  match state.completed.find? (fun job => (shared.jobs job).abandoned) with
  | some job =>
      let charge : Charge := ⟨job, true, false, false⟩
      some (shared.hold worker charge (shared.jobs job) { state with
        completed := state.completed.eraseP (fun job => (shared.jobs job).abandoned)
        discarding := state.discarding + 1 }, .execute left charge .destroy)
  | none =>
      match state.queue with
      | job :: rest =>
          if state.stopped ∨ (shared.jobs job).abandoned then
            let charge : Charge := ⟨job, true, true, false⟩
            some (shared.hold worker charge { shared.jobs job with discarded := true }
              { state with queue := rest, discarding := state.discarding + 1 },
              .execute left charge .selectClosed)
          else
            let charge : Charge := ⟨job, false, true, false⟩
            some (shared.hold worker charge (shared.jobs job)
              { state with queue := rest, running := state.running + 1 },
              .execute left charge .body)
      | [] =>
          if shared.state.stopped ∧ shared.state.completed.isEmpty then
            some (shared, .returned)
          else none

end Shared

/-- After a job: the next turn of `work`, or the next round after a failure. -/
def afterJob : Option Nat → Stage
  | none => .rest
  | some left => .take (some left)

/-- What becomes of the job of a released charge. -/
def Shared.released (shared : Shared ω) (id : JobId) (state : State) : Shared ω :=
  { shared.setJob id
      { shared.jobs id with releases := (shared.jobs id).releases + 1 } with
    state
    placement := shared.placement.remove id
    holder := Function.update shared.holder id none }

/-- The locked section in which `Charge::drop` releases the capacity. -/
def releaseStep (left : Option Nat) (charge : Charge) (shared : Shared ω) :
    Shared ω × Stage :=
  let state := shared.state
  if charge.discard then
    if state.discarding = 0 then (shared, .panicked "attempt to subtract with overflow")
    else (shared.released charge.job { state with discarding := state.discarding - 1 },
      afterJob left)
  else
    if state.running = 0 then (shared, .panicked "attempt to subtract with overflow")
    else (shared.released charge.job { state with running := state.running - 1 },
      afterJob left)

/-- The steps of `execute`, of the job's body and of `Charge::drop`. -/
def executeStep (flag : Bool) (left : Option Nat) (charge : Charge) (shared : Shared ω) :
    ExecuteStage → Option (Shared ω × Stage)
  | .selectClosed =>
      ((shared.jobs charge.job).select .closed .pool).map fun job =>
        (shared.setJob charge.job job, .execute left charge .body)
  | .body =>
      let job := shared.jobs charge.job
      if charge.discard then
        some (shared.setJob charge.job { job with bodies := job.bodies ++ [.dropped] },
          .execute left charge (.count flag))
      else if job.abandoned then
        some (shared.setJob charge.job { job with bodies := job.bodies ++ [.ran] },
          .execute left charge (.count flag))
      else some (shared, .execute left charge .running)
  -- the caller's closure, whose panic is caught
  | .running =>
      some (shared, .execute left charge (.store (if flag then .panicked else .value)))
  | .store result =>
      let job := shared.jobs charge.job
      some (shared.setJob charge.job { job with output := some result, stored := true },
        .execute left charge (.selectReady (result = .panicked)))
  | .selectReady panicked =>
      ((shared.jobs charge.job).select .ready .body).map fun job =>
        (shared.setJob charge.job { job with bodies := job.bodies ++ [.ran] },
          .execute left charge (.count (panicked || flag)))
  | .count panicked =>
      some (shared.addPanic panicked, .execute left charge .settle)
  | .settle =>
      if charge.discard ∨ (shared.jobs charge.job).abandoned then
        some (shared, .execute left charge .destroy)
      else some (shared, .execute left charge .retain)
  | .destroy =>
      let job := shared.jobs charge.job
      some (shared.setJob charge.job { job with output := none, reclaims := job.reclaims + 1 },
        .execute left charge (.countReclaim flag))
  | .countReclaim panicked =>
      some (shared.addPanic panicked,
        .execute left charge (if charge.wake then .close else .release))
  | .retain =>
      if shared.state.running = 0 then
        some (shared, .panicked "attempt to subtract with overflow")
      else some ({ shared.moveJob charge.job .completed none with
        state := { shared.state with
          running := shared.state.running - 1
          completed := shared.state.completed ++ [charge.job] } },
        .execute left { charge with retained := true } .close)
  | .close =>
      ((shared.jobs charge.job).select .closed .pool).map fun job =>
        (shared.setJob charge.job job,
          if charge.retained then afterJob left else .execute left charge .release)
  | .release => some (releaseStep left charge shared)

/-- The steps of a worker: `run`, `work` and `fail`. -/
def workerStep (worker : ω) (choice : Choice) (shared : Shared ω) :
    Stage → Option (Shared ω × Stage)
  | .rest =>
      if choice.flag then
        some ({ shared with state := { shared.state with failed := true, stopped := true } },
          .fail shared.state.queue)
      else some (shared, .take none)
  | .take (some 0) => some (shared, .returned)
  | .take (some (left + 1)) => shared.take worker (some left)
  | .take none => shared.take worker none
  | .execute left charge stage => executeStep choice.flag left charge shared stage
  | .fail (job :: rest) =>
      ((shared.jobs job).select .closed .pool).map fun closed =>
        (shared.setJob job closed, .fail rest)
  | .fail [] => some (shared, .take (some shared.capacity))
  | _ => none

/-- A caller submits a job, for a generation that its `begin` has activated. -/
def submitStep (choice : Choice) (shared : Shared ω) : Option (Shared ω × Stage) :=
  if choice.word.phase = .active ∧ choice.word.generation = choice.token.generation then
    match shared.submit choice.token choice.word with
    | .ok submitted => some (submitted, .leased shared.accepted)
    | .error error => some (shared, .rejected error)
  else none

/-- The steps of a caller: `submit`, a use of its result, and the drop of its lease. -/
def callerStep (choice : Choice) (shared : Shared ω) : Stage → Option (Shared ω × Stage)
  | .rest | .rejected _ => submitStep choice shared
  | .leased job =>
      if choice.flag then
        some (shared.setJob job { shared.jobs job with output := none }, .leased job)
      else some (shared.setJob job { shared.jobs job with abandoned := true }, .dropping job)
  | .dropping _ => some (shared, .rest)
  | _ => none

/-- `stop`, and moves of the wait words. -/
def outsideStep (choice : Choice) (shared : Shared ω) : Stage → Option (Shared ω × Stage)
  | .rest =>
      match choice.outside with
      | none => some ({ shared with state.stopped := true }, .rest)
      | some (id, move) =>
          if id < shared.accepted then
            ((shared.jobs id).outside move).map fun job => (shared.setJob id job, .rest)
          else none
  | _ => none

def nextStep (party : Party ω μ) (choice : Choice) (shared : Shared ω) (stage : Stage) :
    Option (Shared ω × Stage) :=
  match party with
  | .worker id => workerStep id choice shared stage
  | .caller _ => callerStep choice shared stage
  | .outside => outsideStep choice shared stage

/-- A new pool. -/
def Shared.new (ω : Type) (capacity : Nat) : Shared ω :=
  ⟨capacity, .new, 0, fun _ => .new ⟨0, 0⟩ .initial, .empty, fun _ => none⟩

/-- Workers and callers over one pool. -/
def program (ω μ : Type) : Program (Party ω μ) (Shared ω) Stage where
  initial shared := ∃ capacity, shared = .new ω capacity
  start := .rest
  advance party shared stage shared' stage' :=
    ∃ choice, nextStep party choice shared stage = some (shared', stage')

end VThread.Blocking
