import VThread.Kernel.Drive
import VThread.Lib.Transition

/-!
# The runs of a carrier

The drive loop of a carrier, one call into its kernel after the other, while the rest of the
runtime opens, aborts and finishes scopes, submits tasks and moves wait generations on.
-/

namespace VThread.Kernel

open VThread.Lib VThread.Carrier VThread.Ready VThread.Wait

/-- What the rest of the runtime does in one section. -/
inductive Control where
  | beginOwned (supervised : Bool)
  | submit (scope : Nat)
  | abortScope (scope : Nat) (reason : TaskFailure)
  | closeScope (scope : Nat)
  | finishScope (scope : Nat)
  | requestStop
  | stopInbox
  deriving DecidableEq

namespace World

/-- `begin_owned`. -/
def beginOwned (supervised : Bool) (world : World) : World :=
  if world.accepting = true ∧ (supervised = true ∨ world.activeScope = none) ∧
      world.scopes.length < world.config.maxOwnedScopes then
    { world with
      nextScope := world.nextScope + 1
      activeScope := if supervised then world.activeScope else some world.nextScope
      scopes := world.scopes ++ [⟨world.nextScope, true, none⟩] }
  else world

/-- `submit`: a reservation on this carrier and its packet. -/
def submit (scope : Nat) (world : World) : World :=
  if world.accepting = true ∧
      (∃ state ∈ world.scopes, state.id = scope ∧ state.admitting = true ∧
        state.aborting = none) ∧
      world.recordCount < world.config.maxVthreads then
    match world.inbox.push ⟨world.nextTask, scope⟩ with
    | none => world
    | some (inbox, _) => { world with inbox, nextTask := world.nextTask + 1 }
  else world

/-- Change what is kept of one scope. -/
def updateScope (scope : Nat) (update : ScopeState → ScopeState) (world : World) : World :=
  { world with
    scopes := world.scopes.map fun state => if state.id = scope then update state else state }

/-- `abort_scope`. -/
def abortScope (scope : Nat) (reason : TaskFailure) (world : World) : World :=
  if world.scopes.any (·.id == scope) then
    { world.updateScope scope fun state =>
        { state with aborting := some reason, admitting := false } with
      inbox := world.inbox.abort scope reason }
  else world

/-- The carrier holds no task of the scope that has not ended. -/
def Drained (scope : Nat) (world : World) : Prop :=
  (∀ packet ∈ world.inbox.state.starts ++ world.pending.toList ++ world.incoming,
    packet.scope ≠ scope) ∧
  (∀ task ∈ world.starts, task.scope ≠ scope) ∧
  (∀ task ∈ world.tasks.owned.slots.reduceOption ++ world.tasks.borrowed.slots.reduceOption,
    task.scope ≠ scope)

instance (scope : Nat) (world : World) : Decidable (world.Drained scope) :=
  inferInstanceAs (Decidable (_ ∧ _ ∧ _))

/-- `finish_scope`, by an owner that has waited for the tasks of the scope. -/
def finishScope (scope : Nat) (world : World) : World :=
  if world.Drained scope then
    { world with
      scopes := world.scopes.filter (·.id ≠ scope)
      activeScope := if world.activeScope = some scope then none else world.activeScope
      inbox := world.inbox.clearAbort scope }
  else world

/-- Where several sections are involved, one of them. -/
def control (world : World) : Control → World
  | .beginOwned supervised => world.beginOwned supervised
  | .submit scope => world.submit scope
  | .abortScope scope reason => world.abortScope scope reason
  | .closeScope scope => world.updateScope scope fun state => { state with admitting := false }
  | .finishScope scope => world.finishScope scope
  | .requestStop => { world with accepting := false }
  | .stopInbox => { world with inbox := { world.inbox.stop with stopped := true } }

end World

/-! ## The drive loop -/

/-- Where the drive loop stands. -/
inductive Pc where
  | top
  | draining
  | ticking (signalChanged : Bool)
  | stopped
  deriving DecidableEq

structure Drive where
  world : World
  pc : Pc

/-- The next section.  A kernel call is one section, but the others move inside of it, too. -/
inductive Choice where
  | moves (others : Nat → List Move)
  | control (control : Control)
  | signal
  | takeAbort (others : Nat → List Move)
  | receive (granted : Nat → Bool)
  | receiveLocal
  | abortAll (others : Nat → List Move)
  | tick (others : Nat → List Move) (expired : List ParkToken) (turn : Turn)
  | observeIdle

namespace Drive

/-- A call that does not fail. -/
def call {α : Type} (result : Checked α) (next : α → Drive) : Option Drive :=
  match result with
  | .ok value => some (next value)
  | .error _ => none

/-- The drive loop; it may read its signal as changed at any time. -/
def next : Choice → Drive → Option Drive
  | .moves others, ⟨world, pc⟩ => some ⟨world.pause others, pc⟩
  | .control control, ⟨world, pc⟩ => some ⟨world.control control, pc⟩
  | .signal, ⟨world, .top⟩ => if world.inbox.stopped then none else some ⟨world, .draining⟩
  | .takeAbort others, ⟨world, .draining⟩ =>
      match world.inbox.state.abort with
      | [] => none
      | (scope, reason) :: _ =>
          call ({ world with inbox := world.inbox.takeAbort }.abort others (some scope) reason)
            fun result => ⟨result.1, .draining⟩
  | .receive granted, ⟨world, .draining⟩ =>
      if world.inbox.state.abort = [] then
        call (world.receive granted) fun world => ⟨world, .ticking true⟩
      else none
  | .receive granted, ⟨world, .top⟩ =>
      call (world.receive granted) fun world => ⟨world, .ticking false⟩
  | .receiveLocal, ⟨world, .top⟩ => some ⟨world.receiveLocal, .ticking false⟩
  | .abortAll others, ⟨world, .top⟩ =>
      if world.inbox.stopped then
        call (world.abort others none .runtimeStopped) fun result =>
          ⟨result.1, if result.2 then .stopped else .ticking true⟩
      else none
  | .tick others expired turn, ⟨world, .ticking signalChanged⟩ =>
      call (world.tick others ⟨signalChanged, expired, turn⟩) fun result => ⟨result.1, .top⟩
  | .observeIdle, ⟨world, .top⟩ =>
      some ⟨{ world with
        remotePending := world.remotePending || world.inbox.pendingStarts != 0 }, .top⟩
  | _, _ => none

end Drive

/-- The runs of a carrier from its start. -/
def machine (config : Config) : Machine Drive Choice where
  initial drive := drive = ⟨.new config, .top⟩
  next := Drive.next

/-- States of the runs. -/
def Reachable (config : Config) (drive : Drive) : Prop :=
  (machine config).system.Reachable drive

end VThread.Kernel
