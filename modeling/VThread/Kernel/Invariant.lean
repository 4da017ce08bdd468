import VThread.Kernel.Steps

/-!
# What holds of a kernel between its steps

Every task is in one place; whoever borrows frames has an owned ancestor that is still there;
every generation belongs to a live task; and the deferred wakes are those of the parked tasks
that are marked.  Each part names the fields it is about, so that a step which leaves them
alone keeps it as it is.
-/

namespace VThread.Kernel

open VThread.Lib VThread.Carrier VThread.Ready VThread.Wait

/-! ## Places -/

/-- Where the tasks are. -/
def World.keys (world : World) : List TaskKey :=
  world.inFlight.toList ++ (world.ready.normal ++ (world.ready.wakes ++
    world.parked.map (·.task)))

/-- The live tasks are in one place each. -/
structure Located (tasks : KernelTasks) (keys : List TaskKey) : Prop where
  nodup : keys.Nodup
  live : ∀ key, key ∈ keys ↔ (tasks.get key).isSome = true

namespace Located

variable {tasks : KernelTasks} {keys keys' : List TaskKey} {key : TaskKey} {task : Task}

theorem get (located : Located tasks keys) (member : key ∈ keys) :
    ∃ task, tasks.get key = some task :=
  Option.isSome_iff_exists.mp ((located.live key).mp member)

theorem mem (located : Located tasks keys) (there : tasks.get key = some task) : key ∈ keys :=
  (located.live key).mpr (by simp [there])

theorem perm (located : Located tasks keys) (same : keys.Perm keys') : Located tasks keys' where
  nodup := same.nodup_iff.mp located.nodup
  live key := by
    rw [← same.mem_iff]
    exact located.live key

/-- A task is gone from its slab and from its place. -/
theorem remove (located : Located tasks (key :: keys)) : Located (tasks.remove key).1 keys where
  nodup := located.nodup.of_cons
  live other := by
    rw [KernelTasks.remove_get]
    by_cases same : other = key
    · subst same
      simp [(List.nodup_cons.mp located.nodup).1]
    · rw [if_neg same, ← located.live other, List.mem_cons]
      simp [same]

/-- A task has got a vacant slot and a place. -/
theorem insert {tasks' : KernelTasks} (located : Located tasks keys)
    (fresh : tasks.get key = none)
    (inserted : ∀ other, tasks'.get other = if other = key then some task else tasks.get other) :
    Located tasks' (key :: keys) where
  nodup := by
    refine List.nodup_cons.mpr ⟨fun member => ?_, located.nodup⟩
    obtain ⟨task, there⟩ := located.get member
    rw [fresh] at there
    cases there
  live other := by
    rw [inserted other, List.mem_cons, located.live other]
    by_cases same : other = key
    · simp [same]
    · simp [same]

end Located

/-! ## Frames -/

/-- An owned ancestor of a task is still there. -/
def HasRoot (tasks : KernelTasks) (task : Task) : Prop :=
  ∃ index root, tasks.get (.owned index) = some root ∧ root.frames ∈ task.lineage

/-- What is known of every task by its lineage. -/
structure Descends (bound : Nat) (task : Task) : Prop where
  self : task.frames ∈ task.lineage
  bounded : ∀ frames ∈ task.lineage, frames.task < bound
  scope : ∀ frames ∈ task.lineage, frames.scope = task.scope

/-- Whose frames the tasks use. -/
structure Framed (tasks : KernelTasks) (reclaimed : List Frames) (starts : List Task)
    (openScopes : List LocalScope) (packets : List SpawnPacket) (bound : Nat) : Prop where
  live : ∀ key task, tasks.get key = some task → Descends bound task
  queued : ∀ task ∈ starts, Descends bound task
  issued : ∀ packet ∈ packets, packet.task < bound
  liveRooted : ∀ index task, tasks.get (.borrowed index) = some task →
    task.within reclaimed = false → HasRoot tasks task
  queuedRooted : ∀ task ∈ starts, task.within reclaimed = false → HasRoot tasks task
  children : ∀ scope ∈ openScopes, ∀ child ∈ scope.children, child ∉ scope.owner.lineage

/-! ## Generations -/

/-- The unretired generations, of which every task has one at most: it is parked on it, has been
woken by it, or runs. -/
structure Waiting (running : Option TaskKey) (tasks : KernelTasks) (waits : List Generation)
    (reclaimed : List Frames) (generations : Nat → Nat) (parked : List ParkedTask) : Prop where
  tokens : (waits.map (·.token)).Nodup
  routes : (waits.map (·.route)).Nodup
  owner : ∀ wait ∈ waits, tasks.get wait.route = some wait.task
  alive : ∀ wait ∈ waits, wait.route.isBorrowed = true → wait.task.within reclaimed = false
  numbered : ∀ wait ∈ waits, wait.token.generation ≤ generations wait.token.wait
  past : ∀ task ∈ parked, task.token.generation ≤ generations task.token.wait
  own : ∀ task ∈ parked, ∀ wait ∈ waits, wait.route = task.task ↔ wait.token = task.token
  woken : ∀ wait ∈ waits, running = some wait.route ∨ (∃ task ∈ parked, task.task = wait.route) ∨
    ∃ cause, wait.phase = .selected cause

/-! ## Deferred wakes -/

/-- The deferred wakes are those of the parked tasks that are marked. -/
structure Deferring (deferredWakes : List Notice) (parked : List ParkedTask) : Prop where
  routes : (deferredWakes.map (·.route)).Nodup
  marked : ∀ notice ∈ deferredWakes, ∃ task ∈ parked, task.task = notice.route ∧
    task.token = notice.token ∧ task.deferred = true
  noted : ∀ task ∈ parked, task.deferred = true →
    ∃ notice ∈ deferredWakes, notice.route = task.task ∧ notice.token = task.token

/-! ## Notices -/

/-- A notice of an unretired generation. -/
def Announces (waits : List Generation) (notice : Notice) : Prop :=
  ∃ wait ∈ waits, wait.token = notice.token ∧ wait.route = notice.route ∧
    wait.task.id = notice.task

/-- A notice whose task is still there. -/
def Names (tasks : KernelTasks) (notice : Notice) : Prop :=
  ∃ task, tasks.get notice.route = some task ∧ task.id = notice.task

/-- A notice whose task is still parked on the generation. -/
def Holds (tasks : KernelTasks) (parked : List ParkedTask) (notice : Notice) : Prop :=
  Names tasks notice ∧ ∃ task ∈ parked, task.task = notice.route ∧ task.token = notice.token

/-- No queue names a task that is gone.  A local wake may outlive its generation, but not the
park that waits for it. -/
structure Noticed (tasks : KernelTasks) (waits : List Generation) (parked : List ParkedTask)
    (hub wakes deferredWakes : List Notice) (timers : List (ParkToken × TaskKey)) : Prop where
  hub : ∀ notice ∈ hub, Announces waits notice
  wakes : ∀ notice ∈ wakes, Announces waits notice ∨ Holds tasks parked notice
  deferred : ∀ notice ∈ deferredWakes, Names tasks notice
  timers : ∀ timer ∈ timers, ∃ task ∈ parked, task.token = timer.1 ∧ task.task = timer.2 ∧
    task.hasDeadline = true

theorem Announces.subset {waits waits' : List Generation} {notice : Notice}
    (announces : Announces waits notice)
    (kept : ∀ wait ∈ waits, wait.token = notice.token → wait ∈ waits') :
    Announces waits' notice := by
  obtain ⟨wait, known, token, same⟩ := announces
  exact ⟨wait, kept wait known token, token, same⟩

theorem Names.grow {tasks tasks' : KernelTasks} {notice : Notice} (names : Names tasks notice)
    (kept : ∀ task, tasks.get notice.route = some task → tasks'.get notice.route = some task) :
    Names tasks' notice := by
  obtain ⟨task, there, same⟩ := names
  exact ⟨task, kept task there, same⟩

/-! ## Records -/

/-- Records and slots are bounded by the configuration. -/
structure Bounded (world : World) : Prop where
  records : world.recordCount ≤ world.config.maxVthreads
  owned : world.tasks.owned.slots.length ≤ world.config.maxVthreads
  borrowed : world.tasks.borrowed.slots.length ≤ world.config.maxVthreads

theorem bounded_new (config : Config) : Bounded (World.new config) where
  records := by
    simp [World.recordCount, World.new, Inbox.new, KernelTasks.len, KernelTasks.new, TaskSlab.len,
      TaskSlab.new]
  owned := by simp [World.new, KernelTasks.new, TaskSlab.new]
  borrowed := by simp [World.new, KernelTasks.new, TaskSlab.new]

/-! ## Scopes -/

/-- The packets of tasks that have not started. -/
def World.packets (world : World) : List SpawnPacket :=
  world.pending.toList ++ (world.incoming ++ world.inbox.state.starts)

/-- Every task belongs to a scope the runtime knows. -/
structure Scoped (world : World) : Prop where
  distinct : (world.scopes.map (·.id)).Nodup
  bounded : world.scopes.length ≤ world.config.maxOwnedScopes
  fresh : ∀ state ∈ world.scopes, state.id < world.nextScope
  live : ∀ key task, world.tasks.get key = some task → task.scope ∈ world.scopes.map (·.id)
  queued : ∀ task ∈ world.starts, task.scope ∈ world.scopes.map (·.id)
  issued : ∀ packet ∈ world.packets, packet.scope ∈ world.scopes.map (·.id)

/-- An owned task of a scope is there. -/
def HasOwned (tasks : KernelTasks) (scope : Nat) : Prop :=
  ∃ index root, tasks.get (.owned index) = some root ∧ root.scope = scope

/-- Every pending abort has an owned task to discard, and one of all scopes is the only one. -/
structure Pending (tasks : KernelTasks) (pendingAborts : List (Option Nat × TaskFailure)) :
    Prop where
  distinct : (pendingAborts.map (·.1)).Nodup
  alone : none ∈ pendingAborts.map (·.1) → pendingAborts.length = 1
  rooted : ∀ scope, some scope ∈ pendingAborts.map (·.1) → HasOwned tasks scope

/-- Pending aborts are within the bound on scopes. -/
theorem Pending.length_le {world : World} (pending : Pending world.tasks world.pendingAborts)
    (admitted : Scoped world) : world.pendingAborts.length ≤ world.config.maxOwnedScopes := by
  by_cases all : none ∈ world.pendingAborts.map (·.1)
  · rw [pending.alone all]
    exact world.config.positive
  · have inside : world.pendingAborts.map (·.1) ⊆ (world.scopes.map (·.id)).map some := by
      intro entry member
      cases entry with
      | none => exact absurd member all
      | some scope =>
          obtain ⟨index, root, there, rfl⟩ := pending.rooted scope member
          exact List.mem_map_of_mem (admitted.live _ root there)
    have bound := (pending.distinct.subperm inside).length_le
    rw [List.length_map, List.length_map, List.length_map] at bound
    exact bound.trans admitted.bounded

/-! ## The flag of borrowed tasks -/

/-- While there is a borrowed task, the flag says so. -/
def World.Flagged (world : World) : Prop :=
  ∀ key task, key.isBorrowed = true → world.tasks.get key = some task → world.hasBorrowed = true

theorem World.flagged_iff {world : World} :
    world.Flagged ↔ (world.tasks.borrowedCount ≠ 0 → world.hasBorrowed = true) := by
  constructor
  · intro flagged counted
    by_contra unset
    refine counted (KernelTasks.borrowedCount_eq_zero.mpr fun key isBorrowed => ?_)
    cases there : world.tasks.get key with
    | none => rfl
    | some task => exact absurd (flagged key task isBorrowed there) unset
  · intro flag key task isBorrowed there
    refine flag fun none => ?_
    rw [KernelTasks.borrowedCount_eq_zero.mp none key isBorrowed] at there
    cases there

theorem World.refreshBorrowed_flagged (world : World) : world.refreshBorrowed.Flagged := by
  rw [flagged_iff]
  intro counted
  exact bne_iff_ne.mpr counted

/-! ## All of it -/

/-- What holds while a task runs, or none. -/
structure Valid (running : Option TaskKey) (world : World) : Prop where
  located : Located world.tasks world.keys
  framed : Framed world.tasks world.reclaimed world.starts world.openScopes world.packets
    world.nextTask
  waiting : Waiting running world.tasks world.waits world.reclaimed world.generations world.parked
  deferring : Deferring world.deferredWakes world.parked
  noticed : Noticed world.tasks world.waits world.parked world.hub world.wakes
    world.deferredWakes world.timers

theorem valid_new (config : Config) : Valid none (World.new config) where
  located := ⟨by simp [World.keys, World.new, ReadyQueue.new], by
    intro key
    cases key <;>
      simp [World.keys, World.new, ReadyQueue.new, KernelTasks.get, KernelTasks.new,
        TaskSlab.get, TaskSlab.new]⟩
  framed := {
    live := by
      intro key task there
      cases key <;>
        simp [World.new, KernelTasks.get, KernelTasks.new, TaskSlab.get, TaskSlab.new] at there
    queued := by simp [World.new]
    issued := by simp [World.new, World.packets, Inbox.new]
    liveRooted := by simp [World.new, KernelTasks.get, KernelTasks.new, TaskSlab.get, TaskSlab.new]
    queuedRooted := by simp [World.new]
    children := by simp [World.new] }
  waiting := {
    tokens := by simp [World.new]
    routes := by simp [World.new]
    owner := by simp [World.new]
    alive := by simp [World.new]
    numbered := by simp [World.new]
    past := by simp [World.new]
    own := by simp [World.new]
    woken := by simp [World.new] }
  deferring := {
    routes := by simp [World.new]
    marked := by simp [World.new]
    noted := by simp [World.new] }
  noticed := {
    hub := by simp [World.new]
    wakes := by simp [World.new]
    deferred := by simp [World.new]
    timers := by simp [World.new] }

theorem scoped_new (config : Config) : Scoped (World.new config) where
  distinct := by simp [World.new]
  bounded := by simp [World.new]
  fresh := by simp [World.new]
  live := by
    intro key task there
    cases key <;>
      simp [World.new, KernelTasks.get, KernelTasks.new, TaskSlab.get, TaskSlab.new] at there
  queued := by simp [World.new]
  issued := by simp [World.new, World.packets, Inbox.new]

theorem pending_nil (tasks : KernelTasks) : Pending tasks [] where
  distinct := List.nodup_nil
  alone := by simp
  rooted := by simp

end VThread.Kernel
