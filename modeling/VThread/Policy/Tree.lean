import VThread.Cancellation.Reference

/-!
# Trees of spawns

Root scopes and supervisors own tasks; a task spawns into any of them, and opens local
scopes with children of their own.  Every owner and every task has a cancellation token and
an optional deadline.

Tokens may be dropped at any time; a dropped token is removed from the graph.  The model
also keeps what each part asked for and which tokens were cancelled, which no step reads.
-/

namespace VThread.Policy

open VThread.Cancellation

abbrev TokenId := Nat
abbrev ScopeId := Nat
abbrev TaskId := Nat
abbrev GroupId := Nat
abbrev Instant := Nat

/-- The earliest of some optional deadlines. -/
def earliest (deadlines : List (Option Instant)) : Option Instant :=
  deadlines.reduceOption.min?

/-- `TaskOptions`. -/
structure TaskOptions where
  cancellation : TokenId
  deadline : Option Instant
  deriving DecidableEq

/-- `SpawnParent`. -/
structure SpawnParent where
  id : TaskId
  scope : ScopeId
  options : TaskOptions

/-- The graph of tokens. -/
abbrev Tokens := World Unit

/-- `CancellationToken::insert`. -/
def insertToken (tokens : Tokens) (parents : List TokenId) : Checked (Tokens × TokenId) := do
  let (next, _) ← tokens.step (.insert parents () : Op Unit Unit)
  pure (next, tokens.graph.next)

def childToken (tokens : Tokens) (token : TokenId) : Checked (Tokens × TokenId) :=
  insertToken tokens [token]

def childForScope (tokens : Tokens) (token scope : TokenId) : Checked (Tokens × TokenId) :=
  insertToken tokens [token, scope]

namespace TaskOptions

def child (self : TaskOptions) (tokens : Tokens) (deadline : Option Instant) :
    Checked (Tokens × TaskOptions) := do
  let (tokens, cancellation) ← childToken tokens self.cancellation
  pure (tokens, ⟨cancellation, earliest [self.deadline, deadline]⟩)

def spawned (self : TaskOptions) (tokens : Tokens) (scope : ScopeId)
    (parent : Option SpawnParent) (deadline : Option Instant) :
    Checked (Tokens × TaskOptions) :=
  match parent with
  | none => self.child tokens deadline
  | some parent => do
      let (tokens, cancellation) ←
        if parent.scope = scope then childToken tokens parent.options.cancellation
        else childForScope tokens parent.options.cancellation self.cancellation
      pure (tokens, ⟨cancellation, earliest [self.deadline, parent.options.deadline, deadline]⟩)

/-- `check`. -/
def check (self : TaskOptions) (tokens : Tokens) (now : Instant) : Checked Bool := do
  let cancelled ← tokens.graph.isCancelled self.cancellation
  pure (!cancelled && !self.deadline.any (· ≤ now))

end TaskOptions

/-! ## The runtime -/

/-- `ScopeState`. -/
structure Scope where
  options : TaskOptions
  deriving DecidableEq

/-- A local scope, run by a task, inside the local scopes it had open. -/
structure LocalScope where
  options : TaskOptions
  task : TaskId
  requested : Option Instant
  enclosing : List GroupId
  deriving DecidableEq

/-- `TaskRecord`, with the deadline asked for and the local scope that owns the task. -/
structure Task where
  scope : ScopeId
  parent : Option TaskId
  options : TaskOptions
  requested : Option Instant
  group : Option GroupId
  deriving DecidableEq

/-- The local scopes that each task has open are listed innermost first. -/
structure Runtime where
  tokens : Tokens
  cancellation : TokenId
  scopes : List Scope
  tasks : List Task
  groups : List LocalScope
  opened : TaskId → List GroupId
  cancelled : List TokenId

/-- A runtime without scopes. -/
def Runtime.new : Checked Runtime := do
  let (tokens, cancellation) ← insertToken .initial []
  pure ⟨tokens, cancellation, [], [], [], fun _ => [], []⟩

inductive Action where
  /-- `begin_owned`, for a scope or a supervisor. -/
  | beginOwned (deadline : Option Instant)
  /-- `spawn_on`, from a task of the runtime or from elsewhere. -/
  | spawn (scope : ScopeId) (parent : Option TaskId) (deadline : Option Instant) (now : Instant)
  /-- `run_local`, until its body runs. -/
  | openLocal (task : TaskId) (deadline : Option Instant)
  /-- `run_local` returns. -/
  | closeLocal (task : TaskId)
  /-- `LocalScope::spawn_with`. -/
  | spawnLocal (group : GroupId) (deadline : Option Instant) (now : Instant)
  | cancel (token : TokenId)
  | dropToken (token : TokenId)
  deriving DecidableEq

/-- A computation that returns. -/
def returned {α : Type} (computation : Checked α) : Option α := computation.toOption

namespace Runtime

/-- Tokens that somebody holds. -/
def holds (runtime : Runtime) (tokens : List TokenId) : Prop :=
  ∀ token ∈ tokens, token ∈ runtime.tokens.live

instance (runtime : Runtime) (tokens : List TokenId) : Decidable (runtime.holds tokens) :=
  inferInstanceAs (Decidable (∀ token ∈ tokens, token ∈ runtime.tokens.live))

def beginOwned (runtime : Runtime) (deadline : Option Instant) : Option Runtime := do
  guard (runtime.holds [runtime.cancellation])
  let (tokens, cancellation) ← returned (childToken runtime.tokens runtime.cancellation)
  pure { runtime with tokens, scopes := runtime.scopes ++ [⟨⟨cancellation, deadline⟩⟩] }

/-- `reserve_with`: the options of a new task are checked before it is recorded. -/
def reserveWith (runtime : Runtime) (tokens : Tokens) (task : Task) (now : Instant) :
    Option Runtime := do
  let admitted ← returned (task.options.check tokens now)
  pure { runtime with
    tokens, tasks := if admitted then runtime.tasks ++ [task] else runtime.tasks }

/-- The caller of `spawn_on`, if it is a task of the runtime. -/
def spawnParent (runtime : Runtime) : Option TaskId → Option (Option SpawnParent)
  | none => some none
  | some id => runtime.tasks[id]?.map fun task => some ⟨id, task.scope, task.options⟩

def spawn (runtime : Runtime) (scope : ScopeId) (parent : Option TaskId)
    (deadline : Option Instant) (now : Instant) : Option Runtime := do
  let owner ← runtime.scopes[scope]?
  let caller ← runtime.spawnParent parent
  guard (runtime.holds [owner.options.cancellation])
  guard (runtime.holds (caller.map (·.options.cancellation)).toList)
  let (tokens, options) ← returned (owner.options.spawned runtime.tokens scope caller deadline)
  runtime.reserveWith tokens ⟨scope, parent, options, deadline, none⟩ now

def openLocal (runtime : Runtime) (id : TaskId) (deadline : Option Instant) :
    Option Runtime := do
  let task ← runtime.tasks[id]?
  guard (runtime.holds [task.options.cancellation])
  let (tokens, options) ← returned (task.options.child runtime.tokens deadline)
  pure { runtime with
    tokens
    groups := runtime.groups ++ [⟨options, id, deadline, runtime.opened id⟩]
    opened := Function.update runtime.opened id (runtime.groups.length :: runtime.opened id) }

def closeLocal (runtime : Runtime) (id : TaskId) : Option Runtime :=
  some { runtime with
    opened := Function.update runtime.opened id (runtime.opened id).tail }

def spawnLocal (runtime : Runtime) (group : GroupId) (deadline : Option Instant)
    (now : Instant) : Option Runtime := do
  let owner ← runtime.groups[group]?
  let task ← runtime.tasks[owner.task]?
  guard (group ∈ runtime.opened owner.task)
  guard (runtime.holds [owner.options.cancellation])
  let (tokens, options) ← returned (owner.options.child runtime.tokens deadline)
  runtime.reserveWith tokens ⟨task.scope, some owner.task, options, deadline, some group⟩ now

def cancel (runtime : Runtime) (token : TokenId) : Option Runtime := do
  guard (runtime.holds [token])
  let (tokens, _) ← returned (runtime.tokens.step (.cancel token some : Op Unit Unit))
  pure { runtime with tokens, cancelled := token :: runtime.cancelled }

def dropToken (runtime : Runtime) (token : TokenId) : Option Runtime := do
  guard (runtime.holds [token])
  let (tokens, _) ← returned (runtime.tokens.step (.remove token : Op Unit Unit))
  pure { runtime with tokens }

def perform (runtime : Runtime) : Action → Option Runtime
  | .beginOwned deadline => runtime.beginOwned deadline
  | .spawn scope parent deadline now => runtime.spawn scope parent deadline now
  | .openLocal task deadline => runtime.openLocal task deadline
  | .closeLocal task => runtime.closeLocal task
  | .spawnLocal group deadline now => runtime.spawnLocal group deadline now
  | .cancel token => runtime.cancel token
  | .dropToken token => runtime.dropToken token

/-- A run of a new runtime. -/
inductive Reachable : Runtime → Prop where
  | new {runtime : Runtime} : Runtime.new = .ok runtime → Reachable runtime
  | step {runtime next : Runtime} {action : Action} : Reachable runtime →
      runtime.perform action = some next → Reachable next

def run (runtime : Runtime) : List Action → Option Runtime
  | [] => some runtime
  | action :: actions => do (← runtime.perform action).run actions

end Runtime

end VThread.Policy
