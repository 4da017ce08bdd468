import VThread.Kernel.Calls

/-!
# The flag of borrowed tasks

The sweep of revoked tasks relies on a flag.  An abort that is deferred starts the queued local
tasks without setting it.
-/

namespace VThread.Kernel

open VThread.Lib VThread.Carrier VThread.Ready VThread.Wait

/-- Borrowed tasks are flagged, and a sweep after a scope has been left leaves no revoked one. -/
structure Watched (world : World) : Prop where
  flagged : ∀ key task, key.isBorrowed = true → world.tasks.get key = some task →
    world.hasBorrowed = true
  swept : world.epoch ≠ world.observedEpoch → ∀ world', world.sweepRevoked = .ok world' →
    ∀ key ∈ world'.ready.normal ++ (world'.ready.wakes ++ world'.parked.map (·.task)),
      world'.revoked key = false

/-- An abort of the scope starts no local task, or the flag is set already, or no claim is
unpublished among the generations that it has to retire. -/
def Covered (others : Nat → List Move) (scope : Option Nat) (world : World) : Prop :=
  world.starts = [] ∨ world.hasBorrowed = true ∨ ¬ World.Meets others scope world

/-- Where a step of the drive loop aborts, the abort is covered. -/
def AbortsCovered : Choice → Drive → Prop
  | .takeAbort others, drive =>
      ∀ request ∈ drive.world.inbox.state.abort.head?, Covered others (some request.1) drive.world
  | .abortAll others, drive => Covered others none drive.world
  | _, _ => True

theorem Steady.watched {world : World} (steady : Steady world) (flagged : world.Flagged) :
    Watched world := by
  refine ⟨flagged, fun apart world' ran key _ => ?_⟩
  obtain ⟨swept, ran', revoked⟩ := World.sweepRevoked_spec steady.sound steady.inFlight
  rw [ran] at ran'
  cases ran'
  cases there : world'.tasks.get key with
  | none => simp [World.revoked, there]
  | some task => exact revoked.unrevoked flagged apart key task there

/-- A covered abort keeps the flag right. -/
theorem Covered.flagged {others : Nat → List Move} {scope : Option Nat} {reason : TaskFailure}
    {world world' : World} {retired : Bool} (covered : Covered others scope world)
    (aborted : World.Aborted others scope reason world world' retired) (flagged : world.Flagged) :
    world'.Flagged := by
  refine aborted.flagged flagged (covered.imp_right (Or.imp_right fun apart => ?_))
  by_contra deferred
  exact apart (aborted.complete.mp (by simpa using deferred))

/-- The flag is right, and no local start is queued when the carrier ticks. -/
def Drive.Flagged (drive : Drive) : Prop :=
  drive.world.Flagged ∧ ∀ changed, drive.pc = .ticking changed → drive.world.starts = []

theorem Drive.Takes.flagged {choice : Choice} {drive drive' : Drive}
    (taken : Drive.Takes choice drive drive') (steady : Steady drive.world)
    (covered : AbortsCovered choice drive) (flagged : drive.Flagged) : drive'.Flagged := by
  have sound := steady.sound
  cases taken with
  | moves others =>
      obtain ⟨-, woken⟩ := sound.pause others
      exact ⟨Flagged.congr flagged.1 woken.tasks woken.hasBorrowed, fun changed same =>
        woken.starts.trans (flagged.2 changed same)⟩
  | control control world pc =>
      obtain ⟨_, _, _, _, _, _, same⟩ := world.control_same control
      refine ⟨?_, fun changed at' => ?_⟩
      all_goals
        dsimp only
        rw [same]
      · exact flagged.1
      · exact flagged.2 changed at'
  | signal _ => exact ⟨flagged.1, nofun⟩
  | takeAbort requested ran =>
      rename_i others world world' scope reason rest retired
      obtain ⟨_, _, ran', aborted⟩ := World.abort_spec steady.takeAbort.sound others (some scope)
        reason
      rw [ran] at ran'
      cases ran'
      have met : Covered others (some scope) { world with inbox := world.inbox.takeAbort } :=
        covered (scope, reason) (by rw [show world.inbox.state.abort = _ from requested]; rfl)
      exact ⟨met.flagged aborted flagged.1, nofun⟩
  | receiveAll quiet ran =>
      obtain ⟨_, ran', -, -, received, none'⟩ := World.receive_spec sound steady.unpacked _
      rw [ran] at ran'
      cases ran'
      exact ⟨received.flagged flagged.1, fun _ _ => none'⟩
  | receive ran =>
      obtain ⟨_, ran', -, -, received, none'⟩ := World.receive_spec sound steady.unpacked _
      rw [ran] at ran'
      cases ran'
      exact ⟨received.flagged flagged.1, fun _ _ => none'⟩
  | receiveLocal world =>
      obtain ⟨-, received, none', -⟩ := World.receiveLocal_spec sound
      exact ⟨received.flagged flagged.1, fun _ _ => none'⟩
  | abortAll stopped ran =>
      rename_i others world world' retired
      obtain ⟨_, _, ran', aborted⟩ := World.abort_spec sound others none .runtimeStopped
      rw [ran] at ran'
      cases ran'
      exact ⟨Covered.flagged covered aborted flagged.1, fun _ _ => aborted.starts⟩
  | tick ran =>
      rename_i others expired turn signalChanged world world' progress
      have ticked := (World.tick_spec sound steady.inFlight others
        ⟨signalChanged, expired, turn⟩).of_eq ran
      exact ⟨ticked.flagged (flagged.2 signalChanged rfl) flagged.1, nofun⟩
  | observeIdle world => exact ⟨flagged.1, nofun⟩

/-- In every run of a carrier whose aborts are all covered, borrowed tasks are flagged, and a
sweep after a scope has been left leaves no revoked task. -/
theorem borrowed_watched (config : Config) (drive : Drive)
    (reachable : ((machine config).guarded AbortsCovered).Reachable drive) :
    Watched drive.world := by
  have flagged : drive.Flagged := by
    refine @System.Reachable.induct _ _ Drive.Flagged ?_ ?_ drive reachable
    · rintro _ rfl
      exact ⟨fun key task _ there => absurd there (by
        cases key <;>
          simp [World.new, KernelTasks.get, KernelTasks.new, TaskSlab.get, TaskSlab.new]), nofun⟩
    · rintro drive drive' before flagged ⟨choice, covered, taken⟩
      exact (Drive.next_takes taken).flagged
        (steady_of_drive (Machine.guarded_reachable before)) covered flagged
  exact (steady_of_drive (Machine.guarded_reachable reachable)).watched flagged.1

/-! ## A covered run and another one -/

/-- The others stand still. -/
def still : Nat → List Move := fun _ => []

/-- An abort comes when no local start is queued, or once the flag is set. -/
def quietAborts : Choice → Drive → Bool
  | .takeAbort _, drive => drive.world.starts.isEmpty || drive.world.hasBorrowed
  | .abortAll _, drive => drive.world.starts.isEmpty || drive.world.hasBorrowed
  | _, _ => true

theorem covered_of_quiet {choice : Choice} {drive : Drive}
    (quiet : quietAborts choice drive = true) : AbortsCovered choice drive := by
  have either : ∀ world : World, (world.starts.isEmpty || world.hasBorrowed) = true →
      ∀ others scope, Covered others scope world := by
    intro world quiet others scope
    rcases Bool.or_eq_true_iff.mp quiet with empty | set
    · exact .inl (List.isEmpty_iff.mp empty)
    · exact .inr (.inl set)
  cases choice with
  | takeAbort others => exact fun request _ => either drive.world quiet others _
  | abortAll others => exact either drive.world quiet others none
  | _ => trivial

/-- A task opens a scope, its child starts, and then it leaves the scope. -/
def leavingRun : List Choice :=
  [.control (.beginOwned false), .control (.submit 1), .receive fun _ => true,
    .tick still [] ⟨[.enter, .spawn 0], false, false⟩, .receiveLocal,
    .tick still [] ⟨[.leave], false, false⟩, .receiveLocal]

theorem leaving_watched : ∃ drive : Drive, drive.world.epoch ≠ drive.world.observedEpoch ∧
    drive.world.hasBorrowed = true ∧ Watched drive.world := by
  have runs : ((machine crowdConfig).run quietAborts leavingRun ⟨.new crowdConfig, .top⟩).any
      (fun drive => drive.world.epoch != drive.world.observedEpoch && drive.world.hasBorrowed) =
        true := by decide
  obtain ⟨drive, ran, view⟩ := (Option.any_eq_true _ _).mp runs
  rw [Bool.and_eq_true, bne_iff_ne] at view
  have start : ((machine crowdConfig).guarded fun choice drive =>
      quietAborts choice drive = true).Reachable ⟨.new crowdConfig, .top⟩ := .initial rfl
  have covered := Machine.guarded_imp (fun _ _ => covered_of_quiet)
    (Machine.run_reachable start ran)
  exact ⟨drive, view.1, view.2, borrowed_watched crowdConfig drive covered⟩

/-- A task of the first scope has queued a child when the second scope is aborted, in which the
claim of a parked task is unpublished.  The child becomes a borrowed task without the flag, and
stays ready once its lease is reclaimed. -/
def overtakenRun : List Choice :=
  [.control (.beginOwned false), .control (.beginOwned true), .control (.submit 1),
    .control (.submit 2), .receive fun _ => true, .tick still [] ⟨[], false, false⟩,
    .receiveLocal, .tick still [] ⟨[.begin 0], false, false⟩,
    .receiveLocal, .tick still [] ⟨[.enter, .spawn 0], false, false⟩,
    .moves fun _ => [.claim ⟨0, 1⟩ .ready], .control (.abortScope 2 .scopeClosed),
    .signal, .takeAbort still, .receive fun _ => true,
    .tick still [] ⟨[.leave], false, false⟩, .receiveLocal]

/-- A revoked task that is not flagged is left over by a sweep. -/
theorem revoked_overlooked : ∃ drive, Reachable crowdConfig drive ∧
    (∃ key task, key.isBorrowed = true ∧ drive.world.tasks.get key = some task ∧
      drive.world.hasBorrowed = false) ∧
    drive.world.epoch ≠ drive.world.observedEpoch ∧
    ∃ world', drive.world.sweepRevoked = .ok world' ∧
      ∃ key ∈ world'.ready.normal, world'.revoked key = true := by
  have runs : ((machine crowdConfig).run (fun _ _ => true) overtakenRun
      ⟨.new crowdConfig, .top⟩).any (fun drive => !drive.world.hasBorrowed &&
        (drive.world.epoch != drive.world.observedEpoch &&
          drive.world.ready.normal.any drive.world.revoked)) = true := by decide
  obtain ⟨drive, ran, view⟩ := (Option.any_eq_true _ _).mp runs
  rw [Bool.and_eq_true, Bool.and_eq_true, bne_iff_ne, List.any_eq_true] at view
  obtain ⟨unset, apart, key, member, isRevoked⟩ := view
  have start : ((machine crowdConfig).guarded fun choice drive =>
      (fun _ _ => true : Choice → Drive → Bool) choice drive = true).Reachable
        ⟨.new crowdConfig, .top⟩ := .initial rfl
  obtain ⟨isBorrowed, within⟩ := (Bool.and_eq_true_iff).mp isRevoked
  obtain ⟨task, there, -⟩ := (Option.any_eq_true _ _).mp within
  refine ⟨drive, Machine.guarded_reachable (Machine.run_reachable start ran),
    ⟨key, task, isBorrowed, there, by simpa using unset⟩, apart, drive.world, ?_, key, member,
    isRevoked⟩
  rw [World.sweepRevoked, if_pos unset]
  rfl

end VThread.Kernel
