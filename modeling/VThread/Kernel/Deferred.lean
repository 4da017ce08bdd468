import VThread.Kernel.Requested

/-!
# Aborts that are deferred

An abort discards all started tasks of its scope or none of them.  A tick attempts every pending
abort once, and until an attempt succeeds no task of the scope is taken.
-/

namespace VThread.Kernel

open VThread.Lib VThread.Carrier VThread.Ready VThread.Wait

/-! ## One abort -/

/-- What an abort does to the tasks of a kernel. -/
structure Settlement (others : Nat → List Move) (scope : Option Nat) (reason : TaskFailure)
    (world world' : World) (retired : Bool) : Prop where
  /-- It is deferred where it meets an unpublished claim, and only there. -/
  complete : retired = false ↔ World.Meets others scope world
  kept : retired = false →
    (∀ key task, world.tasks.get key = some task → world'.tasks.get key = some task) ∧
    world'.outcomes = world.outcomes ++
      World.failed reason (world.packets.filter (inScope scope ·.scope)) ∧
    ∀ other, inScope scope other = true → world'.blocked other = true
  replaced : retired = false → scope = none → world'.pendingAborts = [(none, reason)]
  started : world'.starts = []
  /-- Otherwise it discards the tasks of its scope, and no others. -/
  discarded : retired = true → ∃ gone : List (TaskKey × Task), (gone.map (·.1)).Nodup ∧
    (∀ entry ∈ gone, inScope scope entry.2.scope = true ∧
      (world.tasks.get entry.1 = some entry.2 ∨
        entry.1.isBorrowed = true ∧ entry.2 ∈ world.starts)) ∧
    (∀ key task, world.tasks.get key = some task → inScope scope task.scope = true →
      (key, task) ∈ gone) ∧
    (∀ key task, world.tasks.get key = some task → inScope scope task.scope = false →
      world'.tasks.get key = some task) ∧
    (∀ key task, world'.tasks.get key = some task → inScope scope task.scope = false) ∧
    world'.outcomes = world.outcomes ++
      World.failed reason (world.packets.filter (inScope scope ·.scope)) ++
      gone.map (fun entry => (entry.2.id, some reason)) ∧
    world'.pendingAborts =
      world.pendingAborts.filter fun entry => scope.isSome && entry.1 != scope

namespace World.Aborted

variable {others : Nat → List Move} {scope : Option Nat} {reason : TaskFailure}
  {world world' : World} {retired : Bool}

/-- A deferred abort of all scopes takes the place of the pending ones. -/
theorem replaced (aborted : Aborted others none reason world world' false) :
    world'.pendingAborts = [(none, reason)] := by
  obtain ⟨begun, prepared, keys, -, -, -, defers⟩ := aborted.parts
  rcases (defers rfl).pushed with ⟨-, some, -⟩ | ⟨pushed, -⟩
  · exact absurd rfl some
  · exact pushed.replaces rfl

theorem settlement (aborted : Aborted others scope reason world world' retired) :
    Settlement others scope reason world world' retired := by
  refine ⟨aborted.complete, ?_, ?_, aborted.starts, ?_⟩
  · rintro rfl
    obtain ⟨kept, -, -, outcomes⟩ := aborted.deferred
    obtain ⟨begun, prepared, keys, -, -, -, defers⟩ := aborted.parts
    exact ⟨kept, outcomes, (defers rfl).covered⟩
  · rintro rfl rfl
    exact aborted.replaced
  · rintro rfl
    obtain ⟨begun, prepared, keys, begins, ⟨stirred, -⟩, reclaims, -⟩ := aborted.parts
    obtain ⟨gone, reclaimed⟩ := reclaims rfl
    have discarded := reclaimed.discarded
    have tasks : prepared.tasks = begun.tasks := stirred.tasks
    have same : prepared.outcomes = begun.outcomes ∧
        prepared.pendingAborts = world.pendingAborts := by
      obtain ⟨_, _, _, _, _, stirs, -⟩ := stirred
      obtain ⟨_, _, _, _, _, _, begun⟩ := begins.same
      rw [stirs, begun]
      exact ⟨rfl, rfl⟩
    have were : ∀ entry ∈ gone, prepared.tasks.get entry.1 = some entry.2 := discarded.were
    have isIn : ∀ entry ∈ gone, inScope scope entry.2.scope = true := by
      intro entry member
      have chosen := (reclaimed.exact entry.1).mp (List.mem_map_of_mem member)
      rwa [keyIn_eq (were entry member)] at chosen
    refine ⟨gone, discarded.distinct, fun entry member => ⟨isIn entry member,
      begins.new _ _ (tasks ▸ were entry member)⟩, fun key task there inside => ?_,
      fun key task there outside => ?_, fun key task there => ?_, ?_, ?_⟩
    · -- The key is gone, and it was the key of this task.
      have before : prepared.tasks.get key = some task := tasks ▸ begins.kept key task there
      obtain ⟨entry, member, rfl⟩ := List.mem_map.mp
        ((reclaimed.exact key).mpr ((keyIn_eq before).trans inside))
      have found := were entry member
      rw [before] at found
      cases found
      exact member
    · have before : prepared.tasks.get key = some task := tasks ▸ begins.kept key task there
      rw [discarded.tasks, if_neg]
      · exact before
      · rw [reclaimed.exact, keyIn_eq before, outside]
        exact Bool.false_ne_true
    · obtain ⟨left, found⟩ := discarded.live there
      have before : prepared.tasks.get key = some task := found
      rw [reclaimed.exact, keyIn_eq before] at left
      simpa using left
    · rw [discarded.outcomes, ← begins.outcomes, ← same.1]
    · rw [← same.2]
      exact (congrArg World.pendingAborts discarded.outside :)

end World.Aborted

/-- What one retry does. -/
def RetrySettles (others : Nat → List Move) (entry : Option Nat × TaskFailure)
    (world world' : World) : Prop :=
  ∃ retired, world.abort others entry.1 entry.2 = .ok (world', retired) ∧
    Settlement others entry.1 entry.2 world world' retired

/-- Aborts and retries, in a state of a kernel. -/
structure AbortsSettle (world : World) : Prop where
  abort : ∀ others scope reason, ∃ world' retired,
    world.abort others scope reason = .ok (world', retired) ∧
      Settlement others scope reason world world' retired
  /-- The pending aborts are attempted once each, the last one first. -/
  retries : ∀ others, ∃ world', world.retryAborts others =
      .ok (world', world.pendingAborts.reverse) ∧
    Swept World.pendingAborts World.setPendingAborts (RetrySettles others)
      world.pendingAborts.reverse world world'
  distinct : (world.pendingAborts.map (·.1)).Nodup
  alone : none ∈ world.pendingAborts.map (·.1) → world.pendingAborts.length = 1
  bounded : world.pendingAborts.length ≤ world.config.maxOwnedScopes

/-- Whatever the order of the calls, an abort never fails, and it discards all tasks of its
scope or none of them. -/
theorem aborts_settle (config : Config) (world : World)
    (reachable : (calls config).system.Reachable world) : AbortsSettle world := by
  have steady := steady_of_calls reachable
  refine ⟨fun others scope reason => ?_, fun others => ?_, steady.sound.pending.distinct,
    steady.sound.pending.alone, steady.sound.pending.length_le steady.sound.admitted⟩
  · obtain ⟨world', retired, ran, aborted⟩ := World.abort_spec steady.sound others scope reason
    exact ⟨world', retired, ran, aborted.settlement⟩
  · obtain ⟨world', ran, -, -, -, -, swept⟩ :=
      World.retryAborts_spec steady.sound steady.inFlight others
    refine ⟨world', ran, swept.imp fun entry before after retried => ?_⟩
    obtain ⟨-, retired, ran, aborted⟩ := retried
    exact ⟨retired, ran, aborted.settlement⟩

/-- The abort of a scope meets the unpublished claim of a parked task. -/
def deferringCalls : List Call :=
  [.control (.beginOwned false), .control (.submit 1), .receive fun _ => true,
    .tick (fun _ => []) ⟨false, [], ⟨[.begin 0], false, false⟩⟩,
    .moves fun _ => [.claim ⟨0, 1⟩ .ready], .abort (fun _ => []) (some 1) .scopeClosed]

theorem deferred_settle : ∃ world, world.pendingAborts.length = 1 ∧ AbortsSettle world := by
  have runs : ((calls pairConfig).run (fun _ _ => true) deferringCalls (.new pairConfig)).any
      (fun world => world.pendingAborts.length == 1) = true := by decide
  obtain ⟨world, ran, one⟩ := (Option.any_eq_true _ _).mp runs
  exact ⟨world, by simpa using one, aborts_settle pairConfig world (calls_run ran)⟩

/-! ## Runs after an abort -/

/-- What the ticks of a kernel take, where a scope has been aborted. -/
def TakesOthers (scope : Nat) (world : World) : Prop :=
  ∀ others input, ∃ before mounting,
    world.tick others input = mounting.mount others input.turn ∧
    World.Chose before mounting ∧
    (∀ key, mounting.inFlight = some key → ∃ task, mounting.tasks.get key = some task ∧
      mounting.blocked task.scope = false ∧ task.scope ≠ scope) ∧
    (mounting.inFlight = none → ∀ key ∈ mounting.ready.held,
      ∃ task, mounting.tasks.get key = some task ∧ mounting.blocked task.scope = true)

theorem Barred.takesOthers {scope : Nat} {world : World} (steady : Steady world)
    (barred : Barred scope world) : TakesOthers scope world := by
  intro others input
  obtain ⟨before, mounting, ran, kept, chose, selected⟩ :=
    World.prepareMount_spec steady.sound steady.inFlight others input
  refine ⟨before, mounting, ?_, chose, fun key flight => ?_, fun idle key member => ?_⟩
  · rw [World.tick_eq, ran, ok_bind]
  · obtain ⟨task, isTask⟩ := selected key flight
    exact ⟨task, isTask.there, isTask.unblocked,
      (kept.barred scope barred).apart isTask.there isTask.unblocked⟩
  · obtain ⟨task, there⟩ := World.ready_live kept.sound.valid member
    have isBlocked := chose.none_eligible idle key member
    rw [World.eligible_eq there] at isBlocked
    exact ⟨task, there, by simpa using isBlocked⟩

/-- A scope stays barred. -/
theorem barred_later {config : Config} {scope : Nat} {drive later : Drive}
    (reachable : Reachable config drive) (barred : Barred scope drive.world)
    (follows : Relation.ReflTransGen (machine config).system.step drive later) :
    Reachable config later ∧ Barred scope later.world := by
  induction follows with
  | refl => exact ⟨reachable, barred⟩
  | tail _ taken ih =>
      obtain ⟨choice, next⟩ := taken
      exact ⟨.step ih.1 ⟨choice, next⟩,
        (Drive.next_takes next).barred (steady_of_drive ih.1) ih.2⟩

/-- After a step that attempts an abort of a scope, no tick of any later state takes a task of
the scope, and tasks without a pending abort are taken as before. -/
theorem aborted_unmounted (config : Config) (scope : Nat) (choice : Choice)
    (drive drive' later : Drive) (reachable : Reachable config drive)
    (aborts : Drive.Aborts scope choice drive)
    (taken : (machine config).next choice drive = some drive')
    (follows : Relation.ReflTransGen (machine config).system.step drive' later) :
    TakesOthers scope later.world := by
  have bars := (Drive.next_takes taken).bars aborts (steady_of_drive reachable)
    (requested_of_drive reachable)
  obtain ⟨reachable', barred⟩ := barred_later (.step reachable ⟨choice, taken⟩) bars follows
  exact barred.takesOthers (steady_of_drive reachable')

/-- Two scopes have a task each, one of them parked with an unpublished claim, when its scope is
aborted. -/
def blockedRun : List Choice :=
  [.control (.beginOwned false), .control (.beginOwned true), .control (.submit 1),
    .control (.submit 2), .receive fun _ => true, .tick (fun _ => []) [] ⟨[], false, false⟩,
    .receiveLocal, .tick (fun _ => []) [] ⟨[.begin 0], false, false⟩,
    .moves fun _ => [.claim ⟨0, 1⟩ .ready], .control (.abortScope 2 .scopeClosed), .signal]

theorem blocked_unmounted : ∃ drive : Drive, drive.world.pendingAborts.length = 1 ∧
    drive.world.ready.normal.length = 1 ∧ TakesOthers 2 drive.world := by
  have runs : ((machine crowdConfig).run (fun _ _ => true) blockedRun
      ⟨.new crowdConfig, .top⟩).any (fun drive => drive.pc == .draining &&
        (drive.world.inbox.state.abort == [(2, .scopeClosed)] &&
          ((machine crowdConfig).next (.takeAbort fun _ => []) drive).any fun drive =>
            drive.world.pendingAborts.length == 1 && drive.world.ready.normal.length == 1)) =
      true := by decide
  obtain ⟨⟨world, pc⟩, ran, view⟩ := (Option.any_eq_true _ _).mp runs
  simp only [Bool.and_eq_true, beq_iff_eq] at view
  obtain ⟨rfl, asked, after⟩ := view
  obtain ⟨drive', taken, view'⟩ := (Option.any_eq_true _ _).mp after
  rw [Bool.and_eq_true, beq_iff_eq, beq_iff_eq] at view'
  have start : ((machine crowdConfig).guarded fun choice drive =>
      (fun _ _ => true : Choice → Drive → Bool) choice drive = true).Reachable
        ⟨.new crowdConfig, .top⟩ := .initial rfl
  have reachable := Machine.guarded_reachable (Machine.run_reachable start ran)
  exact ⟨drive', view'.1, view'.2, aborted_unmounted crowdConfig 2 (.takeAbort fun _ => [])
    ⟨world, .draining⟩ drive' drive' reachable (.request asked) taken .refl⟩

end VThread.Kernel
