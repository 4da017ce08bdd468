import VThread.Lib.Transition
import VThread.Scope.Registry

/-!
# Completions

A carrier ends a task in steps: the record becomes terminal, the task becomes joinable, and
only then does a completion reach the index of failed tasks, at once or with a batch that the
carrier holds back.  Admissions reclaim records in between.
-/

namespace VThread.Scope

open VThread.Lib VThread.Carrier

variable {ι : Type}

structure CompletionUpdate where
  id : Nat
  scope : Nat
  status : TaskStatus
  deriving DecidableEq, Repr

/-- Where a carrier is between a terminal record and its publication. -/
inductive Phase where
  | idle
  /-- The record is terminal. -/
  | prepared (update : CompletionUpdate) (deferred : Bool)
  /-- The task is joinable. -/
  | completed (update : CompletionUpdate) (deferred : Bool)
  /-- `publish_completions`, of a completion of its own or of the batch. -/
  | publishing (own : Option CompletionUpdate)
  /-- The index of failed tasks is extended. -/
  | extended (own : Option CompletionUpdate)
  deriving DecidableEq

/-- A carrier with its `CompletionBatch`. -/
structure Completer where
  completions : List CompletionUpdate
  phase : Phase
  deriving DecidableEq

/-- `COMPLETION_BATCH`. -/
def completionBatch : Nat := 64

namespace Completer

/-- What `publish_completions` publishes. -/
def batch (completer : Completer) : Option CompletionUpdate → List CompletionUpdate
  | some update => [update]
  | none => completer.completions

/-- The completions whose ids are not yet in an index. -/
def unindexed (completer : Completer) : List CompletionUpdate :=
  match completer.phase with
  | .idle => completer.completions
  | .prepared update _ => update :: completer.completions
  | .completed update _ => update :: completer.completions
  | .publishing (some update) => update :: completer.completions
  | .publishing none => completer.completions
  | .extended (some _) => completer.completions
  | .extended none => []

/-- The completions that are not yet retired. -/
def unretired (completer : Completer) : List CompletionUpdate :=
  match completer.phase with
  | .idle => completer.completions
  | .prepared update _ => update :: completer.completions
  | .completed update _ => update :: completer.completions
  | .publishing (some update) => update :: completer.completions
  | .publishing none => completer.completions
  | .extended (some update) => update :: completer.completions
  | .extended none => completer.completions

/-- No completion is being published and none is held back. -/
def Quiet (completer : Completer) : Prop := completer.phase = .idle ∧ completer.completions = []

end Completer

/-- The ids that a batch adds to the index. -/
def failedIds (batch : List CompletionUpdate) : List Nat :=
  (batch.filter (·.status.failed)).map (·.id)

structure World (ι : Type) where
  shared : Shared ι
  completers : ι → Completer

inductive Choice (ι : Type) where
  | beginOwned
  | closeScope (id : Nat)
  | abortScope (id : Nat) (reason : TaskFailure)
  | stop
  | finishScope (id : Nat)
  | reserve (request : Request ι)
  /-- The packet of a reserved task is queued. -/
  | accept (id : Nat)
  | release (id : Nat)
  /-- A join takes the outcome, or the owner of a borrowed task disowns it. -/
  | observe (id : Nat)
  /-- A panic of the task is retained. -/
  | panic (id : Nat)
  | prepare (carrier : ι) (id : Nat) (failure : Option TaskFailure)
  | complete (carrier : ι)
  | queue (carrier : ι) (flush : Bool)
  | flush (carrier : ι)
  | extend (carrier : ι)
  | retire (carrier : ι)

/-- `prepare_completion` makes a record terminal. -/
def TaskRecord.finish (record : TaskRecord ι) (failure : Option TaskFailure) : TaskRecord ι :=
  { record with
    failure
    status :=
      if failure.isSome then .aborted else if record.panic then .panicked else .completed }

namespace World

def new [Inhabited ι] (maxVthreads : Nat) : World ι := ⟨.new maxVthreads, fun _ => ⟨[], .idle⟩⟩

variable [DecidableEq ι]

def setCompleter (world : World ι) (carrier : ι) (completer : Completer) : World ι :=
  { world with completers := Function.update world.completers carrier completer }

/-- `prepare_completion`, by the carrier of a task. -/
def prepare (world : World ι) (carrier : ι) (id : Nat) (failure : Option TaskFailure) :
    Option (World ι) :=
  let record := world.shared.tasks id
  let completer := world.completers carrier
  if id < world.shared.nextTask ∧ record.stage = .accepted ∧ record.carrier = carrier ∧
      completer.phase = .idle then
    if record.status.isTerminal then some world
    else
      let record := record.finish failure
      some { world.setCompleter carrier { completer with
          phase := .prepared ⟨id, record.scope, record.status⟩ failure.isNone } with
        shared := world.shared.setTask id record }
  else none

/-- `Completion::complete`. -/
def complete (world : World ι) (carrier : ι) : Option (World ι) :=
  let completer := world.completers carrier
  match completer.phase with
  | .prepared update deferred =>
      some { world.setCompleter carrier { completer with phase := .completed update deferred } with
        shared := world.shared.editTask update.id fun record => { record with done := true } }
  | _ => none

/-- `queue_completion`, or the batch of one that `Shared::complete` builds. -/
def queue (world : World ι) (carrier : ι) (flush : Bool) : Option (World ι) :=
  let completer := world.completers carrier
  match completer.phase with
  | .completed update true =>
      -- A batch never crosses scopes.
      if ∀ queued ∈ completer.completions, queued.scope = update.scope then
        let completions := completer.completions ++ [update]
        if completions.length = completionBatch ∨ flush = true then
          some (world.setCompleter carrier ⟨completions, .publishing none⟩)
        else some (world.setCompleter carrier ⟨completions, .idle⟩)
      else none
  | .completed update false =>
      some (world.setCompleter carrier { completer with phase := .publishing (some update) })
  | _ => none

/-- `flush_completions`. -/
def flush (world : World ι) (carrier : ι) : Option (World ι) :=
  let completer := world.completers carrier
  if completer.phase = .idle ∧ completer.completions ≠ [] then
    some (world.setCompleter carrier { completer with phase := .publishing none })
  else none

/-- The part of `retire` under the lock of the index. -/
def extend (world : World ι) (carrier : ι) : Option (World ι) :=
  let completer := world.completers carrier
  match completer.phase with
  | .publishing own =>
      match completer.batch own with
      | [] => none
      | first :: rest =>
          some { world.setCompleter carrier { completer with phase := .extended own } with
            shared := world.shared.setScope first.scope fun scope => { scope with
              failedTasks := scope.failedTasks ++ failedIds (first :: rest) } }
  | _ => none

/-- The rest of `publish_completions`. -/
def retire (world : World ι) (carrier : ι) : Option (World ι) :=
  let completer := world.completers carrier
  match completer.phase with
  | .extended own =>
      match completer.batch own with
      | [] => none
      | first :: rest =>
          let batch := first :: rest
          some { world.setCompleter carrier
              ⟨if own.isSome then completer.completions else [], .idle⟩ with
            shared := world.shared.setScope first.scope fun scope => { scope with
              retired := scope.retired + batch.length
              active := scope.active.filter (· ∉ batch.map (·.id)) } }
  | _ => none

/-- One locked section. -/
def step (choice : Choice ι) (world : World ι) : Option (World ι) :=
  match choice with
  | .beginOwned => some { world with shared := world.shared.beginOwned }
  | .closeScope id => some { world with
      shared := world.shared.setScope id fun scope => { scope with admitting := false } }
  | .abortScope id reason => some { world with
      shared := world.shared.setScope id fun scope => { scope with
        aborting := some reason, admitting := false } }
  | .stop => some { world with shared := { world.shared with accepting := false } }
  | .finishScope id =>
      match world.shared.find id with
      | none => none
      | some scope =>
          -- Its owner has waited until no task of it is active.
          if scope.admitted = scope.retired then
            some { world with shared := world.shared.finishScope id }
          else none
  | .reserve request => some { world with shared := (world.shared.reserve request).1 }
  | .accept id =>
      if id < world.shared.nextTask ∧ (world.shared.tasks id).stage = .reserved then
        some { world with
          shared := world.shared.editTask id fun record => { record with stage := .accepted } }
      else none
  | .release id =>
      if id < world.shared.nextTask ∧ (world.shared.tasks id).stage = .reserved then
        some { world with shared := world.shared.releaseReservation id }
      else none
  | .observe id => some { world with
      shared := world.shared.editTask id fun record => { record with outcomeObserved := true } }
  | .panic id => some { world with
      shared := world.shared.editTask id fun record => { record with panic := true } }
  | .prepare carrier id failure => world.prepare carrier id failure
  | .complete carrier => world.complete carrier
  | .queue carrier flush => world.queue carrier flush
  | .flush carrier => world.flush carrier
  | .extend carrier => world.extend carrier
  | .retire carrier => world.retire carrier

end World

def completionMachine (ι : Type) [DecidableEq ι] [Inhabited ι] (maxVthreads : Nat) :
    Machine (World ι) (Choice ι) where
  initial := (· = .new maxVthreads)
  next := World.step

/-- An eviction reclaims no failed task that is missing in its index. -/
def indexed (choice : Choice ι) (world : World ι) : Bool :=
  match choice with
  | .reserve request =>
      (world.shared.admissible request).toBool == false ||
        world.shared.recordCount < world.shared.maxVthreads ||
        world.shared.scopes.all fun scope => scope.records.all fun id =>
          !world.shared.reclaimable id || !(world.shared.tasks id).status.failed ||
            scope.failedTasks.contains id
  | _ => true

/-- The index of every scope is bounded by the records that it refers to. -/
def FailedBounded (world : World ι) : Prop :=
  (∀ carrier, (world.completers carrier).Quiet) → ∀ scope ∈ world.shared.scopes,
    scope.failedTasks.Nodup ∧ (∀ id ∈ scope.failedTasks, id ∈ scope.records) ∧
      scope.failedTasks.length ≤ world.shared.maxVthreads

end VThread.Scope
