import VThread.Inherited.Nodes

/-!
# Checkpoints over a cancellation domain

A task context caches the epoch of its domain: a checkpoint looks at the token only where
the epoch has moved since the last look.  Any number of threads create, cancel and drop
tokens while the owners of contexts mask, unmask, check, close and reuse them; every atomic
operation and every locked section that nobody can look into is one step.

The history tells which cancellations have started, marked, advanced the epoch and returned,
and what every checkpoint decided.  No step reads it.
-/

namespace VThread.Checkpoint

open VThread.Lib VThread.Cancellation

/-! ## Task contexts -/

/-- `CheckpointDecision`. -/
inductive Decision where
  | continue
  | runtimeStopped
  | cancelled
  | deadlineExceeded
  | checkDeadline
  deriving DecidableEq

/-- `TaskPolicy`; the three flags are the bits of its state. -/
structure Policy where
  cancellation : Nat
  observedEpoch : BitVec 64
  masked : Nat
  closing : Bool
  cancelled : Bool
  deadline : Bool
  deriving DecidableEq

namespace Policy

def new (cancellation : Nat) (hasDeadline : Bool) : Policy where
  cancellation
  observedEpoch := 0#64
  masked := 0
  closing := false
  cancelled := false
  deadline := hasDeadline

/-- `reset`; its assertion compares the only domain with itself. -/
def reset (policy : Policy) (cancellation : Nat) (hasDeadline : Bool) : Policy :=
  { policy with
    cancellation, observedEpoch := 0#64, masked := 0
    closing := false, cancelled := false, deadline := hasDeadline }

def checkpointDecision (policy : Policy) (epoch : BitVec 64) (isCancelled : Bool) :
    Policy × Decision :=
  if policy.closing then (policy, .runtimeStopped)
  else if policy.masked ≠ 0 then (policy, .continue)
  else if policy.cancelled then (policy, .cancelled)
  else
    let (policy, found) := if epoch ≠ policy.observedEpoch then
        ({ policy with observedEpoch := epoch, cancelled := isCancelled }, isCancelled)
      else (policy, false)
    if found then (policy, .cancelled)
    else if policy.deadline then (policy, .checkDeadline)
    else (policy, .continue)

/-- `checkpoint_decision` up to its look at the token: it decides, or has observed a new
epoch. -/
def observe (policy : Policy) (epoch : BitVec 64) : Policy × Option Decision :=
  if policy.closing then (policy, some .runtimeStopped)
  else if policy.masked ≠ 0 then (policy, some .continue)
  else if policy.cancelled then (policy, some .cancelled)
  else if epoch ≠ policy.observedEpoch then ({ policy with observedEpoch := epoch }, none)
  else if policy.deadline then (policy, some .checkDeadline)
  else (policy, some .continue)

/-- The rest of `checkpoint_decision`, with what the token says. -/
def look (policy : Policy) (isCancelled : Bool) : Policy × Decision :=
  if isCancelled then ({ policy with cancelled := true }, .cancelled)
  else if policy.deadline then (policy, .checkDeadline)
  else (policy, .continue)

/-- Both parts together are the whole function. -/
theorem checkpointDecision_eq (policy : Policy) (epoch : BitVec 64) (isCancelled : Bool) :
    policy.checkpointDecision epoch isCancelled =
      match policy.observe epoch with
      | (policy, some decision) => (policy, decision)
      | (policy, none) => policy.look isCancelled := by
  rcases policy with ⟨cancellation, observed, masked, closing, cancelled, deadline⟩
  cases closing with
  | true => rfl
  | false =>
      cases cancelled <;> cases isCancelled <;> cases deadline <;>
        by_cases unmasked : masked = 0 <;> by_cases same : epoch = observed <;>
        simp [checkpointDecision, observe, look, unmasked, same]

end Policy

/-- `TaskContext::checkpoint_decision` on top: a deadline is compared with the clock. -/
def Decision.resolve (decision : Decision) (expired : Bool) : Decision :=
  if decision = .checkDeadline then if expired then .deadlineExceeded else .continue
  else decision

/-! ## The domain -/

/-- A cancellation `Domain` and its nodes.  `strong` holds the nodes that upgrade and
`leaving` those whose drop runs. -/
structure Domain where
  world : World Nat
  strong : Finset Nat
  leaving : Finset Nat
  retired : List Nat
  flags : Nat → Bool
  epoch : BitVec 64

/-- A checkpoint that has ended, with what had been cancelled around it. -/
structure Verdict where
  task : Nat
  before : Policy
  after : Policy
  decision : Decision
  returned : List Nat
  started : List Nat
  deriving DecidableEq

/-- The domain and the lock of its graph, which a cancellation holds with the nodes it has
not visited yet; the nodes that contexts and running calls keep alive; and the history. -/
structure Shared (ι : Type) where
  domain : Domain
  lock : Option (ι × List Nat)
  borrowed : List (ι × Nat)
  started : List Nat
  marked : List Nat
  advanced : List Nat
  returned : List Nat

/-- Stages of `cancel`. -/
inductive CancelStage where
  | lock
  | mark
  | unlock
  | select
  deriving DecidableEq

/-- What a thread is in. -/
inductive Pc where
  | rest
  | cancelling (root : Nat) (stage : CancelStage)
  | probing (before : Policy) (returned : List Nat)
  | panicked (message : String)
  deriving DecidableEq

/-- A thread with its task context; tasks on it are numbered. -/
structure Local where
  policy : Option Policy
  task : Nat
  log : List Verdict
  pc : Pc
  deriving DecidableEq

/-- What a thread does next; `expired` is what the clock says. -/
inductive Request where
  | insert (parents : List Nat)
  | cancel (root : Nat)
  | reuse (cancellation : Nat) (hasDeadline : Bool)
  | setMasked (masked : Nat)
  | close
  | checkpoint (expired : Bool)
  | release (node : Nat)
  | retire (node : Nat)
  | proceed (expired : Bool)

variable {ι : Type}

/-- The nodes a thread keeps alive. -/
def Local.nodes (mine : Local) : List Nat :=
  (mine.policy.map Policy.cancellation).toList ++
    match mine.pc with
    | .cancelling root _ => [root]
    | _ => []

namespace Domain

/-- `insert`; the new node is nobody's yet when its flag is set. -/
def insert (domain : Domain) (parents : List Nat) : Checked Domain := do
  let node := domain.world.graph.next
  ensure (node < 2 ^ 63) "cancellation identity exhausted"
  let (world, _) ← domain.world.step (.insert parents node : Op Nat Nat)
  let cancelled ← world.graph.isCancelled node
  pure { domain with
    world
    strong := Insert.insert node domain.strong
    flags := Function.update domain.flags node cancelled }

/-- `cancel_nodes`, with the nodes it visits in order. -/
def cancelNodes (domain : Domain) (root : Nat) : Checked (Domain × List Nat) := do
  let (world, nodes) ← domain.world.step (.cancel root some : Op Nat Nat)
  pure ({ domain with world }, nodes)

/-- A visited node that still upgrades is cancelled. -/
def visit (domain : Domain) (node : Nat) : Domain :=
  if node ∈ domain.strong then
    { domain with flags := Function.update domain.flags node true }
  else domain

/-- `Domain::retire`. -/
def retire (domain : Domain) (node : Nat) : Checked Domain := do
  let leaving := domain.leaving.erase node
  let retired := domain.retired ++ [node]
  if retired.length < Inherited.retirementBatch then pure { domain with leaving, retired }
  else do
    let world ← retired.foldlM
      (fun world node => Prod.fst <$> world.step (.remove node : Op Nat Nat)) domain.world
    pure { domain with world, leaving, retired := [] }

end Domain

/-! ## Steps -/

/-- A checkpoint has ended. -/
def Local.decide (mine : Local) (shared : Shared ι) (before after : Policy)
    (returned : List Nat) (decision : Decision) : Local :=
  { mine with
    policy := some after
    log := ⟨mine.task, before, after, decision, returned, shared.started⟩ :: mine.log
    pc := .rest }

variable [DecidableEq ι]

/-- A step of `cancel`. -/
def cancelStep (thread : ι) (shared : Shared ι) (mine : Local) (root : Nat) :
    CancelStage → Option (Shared ι × Local)
  | .lock =>
      match shared.lock with
      | some _ => none
      | none =>
          match shared.domain.cancelNodes root with
          | .error message => some (shared, { mine with pc := .panicked message })
          | .ok (domain, nodes) =>
              some ({ shared with
                domain, lock := some (thread, nodes), marked := root :: shared.marked },
                { mine with pc := .cancelling root .mark })
  | .mark =>
      match shared.lock with
      | none => none
      | some (holder, nodes) =>
          if holder = thread then
            match nodes with
            | node :: nodes =>
                some ({ shared with
                  domain := shared.domain.visit node, lock := some (thread, nodes) }, mine)
            | [] =>
                -- `fetch_add` wraps around.
                some ({ shared with
                  domain := { shared.domain with epoch := shared.domain.epoch + 1 }
                  advanced := root :: shared.advanced },
                  { mine with pc := .cancelling root .unlock })
          else none
  | .unlock => some ({ shared with lock := none }, { mine with pc := .cancelling root .select })
  | .select => some ({ shared with returned := root :: shared.returned },
      { mine with pc := .rest })

/-- A resting thread makes a call or starts a checkpoint. -/
def callStep (shared : Shared ι) (mine : Local) : Request → Option (Shared ι × Local)
  | .insert parents =>
      if shared.lock = none ∧ ∀ parent ∈ parents, parent ∈ shared.domain.strong then
        match shared.domain.insert parents with
        | .ok domain => some ({ shared with domain }, mine)
        | .error message => some (shared, { mine with pc := .panicked message })
      else none
  | .cancel root =>
      if root ∈ shared.domain.strong then
        some ({ shared with started := root :: shared.started },
          { mine with pc := .cancelling root .lock })
      else none
  | .reuse cancellation hasDeadline =>
      if cancellation ∈ shared.domain.strong then
        some (shared, { mine with
          policy := some (match mine.policy with
            | none => .new cancellation hasDeadline
            | some policy => policy.reset cancellation hasDeadline)
          task := mine.task + 1 })
      else none
  | .setMasked masked => mine.policy.map fun policy =>
      (shared, { mine with policy := some { policy with masked } })
  | .close => mine.policy.map fun policy =>
      (shared, { mine with policy := some { policy with closing := true } })
  | .checkpoint expired => mine.policy.map fun policy =>
      match policy.observe shared.domain.epoch with
      | (after, some decision) => (shared,
          mine.decide shared policy after shared.returned (decision.resolve expired))
      | (after, none) => (shared, { mine with
          policy := some after, pc := .probing policy shared.returned })
  | _ => none

/-- A thread continues its call or makes a new one. -/
def runStep (thread : ι) (request : Request) (shared : Shared ι) (mine : Local) :
    Option (Shared ι × Local) :=
  match mine.pc, request with
  | .rest, request => callStep shared mine request
  | .cancelling root stage, .proceed _ => cancelStep thread shared mine root stage
  | .probing before returned, .proceed expired => mine.policy.map fun policy =>
      let (after, decision) := policy.look (shared.domain.flags policy.cancellation)
      (shared, mine.decide shared before after returned (decision.resolve expired))
  | _, _ => none

/-- One step of a thread; the drop of a node may run in the middle of any call. -/
def nextStep (thread : ι) (request : Request) (shared : Shared ι) (mine : Local) :
    Option (Shared ι × Local) :=
  match request with
  | .release node =>
      if node ∈ shared.domain.strong ∧ ∀ entry ∈ shared.borrowed, entry.2 ≠ node then
        some ({ shared with domain := { shared.domain with
          strong := shared.domain.strong.erase node
          leaving := Insert.insert node shared.domain.leaving } }, mine)
      else none
  | .retire node =>
      if node ∈ shared.domain.leaving ∧ (shared.lock = none ∨
          shared.domain.retired.length + 1 < Inherited.retirementBatch) then
        match shared.domain.retire node with
        | .ok domain => some ({ shared with domain }, mine)
        | .error message => some (shared, { mine with pc := .panicked message })
      else none
  | request =>
      (runStep thread request shared mine).map fun (shared, mine) =>
        ({ shared with borrowed := Inherited.borrow thread mine.nodes shared.borrowed }, mine)

/-- A new domain. -/
def Domain.initial : Domain where
  world := .initial
  strong := ∅
  leaving := ∅
  retired := []
  flags := fun _ => false
  epoch := 1#64

def Shared.initial : Shared ι := ⟨.initial, none, [], [], [], [], []⟩

/-- All threads over one domain. -/
def program : Program ι (Shared ι) Local where
  initial shared := shared = .initial
  start := ⟨none, 0, [], .rest⟩
  advance thread shared mine shared' mine' :=
    ∃ request, nextStep thread request shared mine = some (shared', mine')

/-- Run the program by a schedule of requests. -/
def scheduler : (program : Program ι (Shared ι) Local).Scheduler Request where
  next := nextStep
  sound := fun _ request _ _ _ taken => ⟨request, taken⟩

/-- The first state of a run. -/
def origin : Threads ι (Shared ι) Local := ⟨.initial, fun _ => ⟨none, 0, [], .rest⟩⟩

theorem origin_reachable :
    (program : Program ι (Shared ι) Local).system.Reachable origin :=
  .initial ⟨rfl, fun _ => rfl⟩

end VThread.Checkpoint
