import VThread.Kernel.Calls

/-!
# Routes and the tasks they name

A key is no more than a slot.  The routes stay in the range of the wake queue, and nothing in
any queue outlives the task it names.
-/

namespace VThread.Kernel

open VThread.Lib VThread.Carrier VThread.Ready VThread.Wait

/-- The routes of the wake queue of a carrier. -/
def World.routes (world : World) : Nat := 2 * world.config.maxVthreads + 2

/-- All notices that are queued. -/
def World.notices (world : World) : List Notice := world.hub ++ (world.wakes ++ world.deferredWakes)

/-- No queue names the key. -/
structure Unnamed (key : TaskKey) (world : World) : Prop where
  notices : ∀ notice ∈ world.notices, notice.route ≠ key
  timers : ∀ timer ∈ world.timers, timer.2 ≠ key
  parked : ∀ parked ∈ world.parked, parked.task ≠ key

/-- The generation of a notice was begun by the task that its route names now. -/
def Owns (world : World) (notice : Notice) (task : Task) : Prop :=
  (∃ wait ∈ world.waits, wait.token = notice.token ∧ wait.route = notice.route ∧
    wait.task = task) ∨
  ∃ parked ∈ world.parked, parked.task = notice.route ∧ parked.token = notice.token

/-- Routes are in range, and name the tasks they were made for. -/
structure Routed (world : World) : Prop where
  range : ∀ key, (world.tasks.get key).isSome = true → key.encoded < world.routes
  apart : (world.keys.map TaskKey.encoded).Nodup
  all : ∀ key, (world.tasks.get key).isSome = true → key ∈ world.keys
  fresh : ∀ task, world.tasks.get (world.tasks.insertOwned task).2 = none ∧
    world.tasks.get (world.tasks.insertBorrowed task).2 = none
  links : ∀ wait ∈ world.waits, world.tasks.get wait.route = some wait.task ∧
    wait.route.encoded < world.routes
  notices : ∀ notice ∈ world.notices, ∃ task, world.tasks.get notice.route = some task ∧
    task.id = notice.task ∧ Owns world notice task
  unnamed : ∀ key, world.tasks.get key = none → Unnamed key world

theorem encoded_lt {tasks : KernelTasks} {key : TaskKey} {bound : Nat}
    (owned : tasks.owned.slots.length ≤ bound) (borrowed : tasks.borrowed.slots.length ≤ bound)
    (live : (tasks.get key).isSome = true) : key.encoded < 2 * bound + 2 := by
  obtain ⟨task, there⟩ := Option.isSome_iff_exists.mp live
  cases key with
  | owned index =>
      have inside : index < tasks.owned.slots.length := TaskSlab.get_lt there
      simp only [TaskKey.encoded, TaskKey.index, TaskKey.isBorrowed, Bool.toNat_false]
      omega
  | borrowed index =>
      have inside : index < tasks.borrowed.slots.length := TaskSlab.get_lt there
      simp only [TaskKey.encoded, TaskKey.index, TaskKey.isBorrowed, Bool.toNat_true]
      omega

theorem Steady.routed {world : World} (steady : Steady world) : Routed world := by
  have valid := steady.sound.valid
  have bounded := steady.sound.bounded
  have notices : ∀ notice ∈ world.notices, ∃ task, world.tasks.get notice.route = some task ∧
      task.id = notice.task ∧ Owns world notice task := by
    have announced : ∀ notice, Announces world.waits notice → ∃ task,
        world.tasks.get notice.route = some task ∧ task.id = notice.task ∧
          Owns world notice task := by
      rintro notice ⟨wait, known, token, route, id⟩
      exact ⟨wait.task, route ▸ valid.waiting.owner wait known, id,
        .inl ⟨wait, known, token, route, rfl⟩⟩
    intro notice queued
    rw [World.notices, List.mem_append, List.mem_append] at queued
    rcases queued with queued | queued | queued
    · exact announced notice (valid.noticed.hub notice queued)
    · rcases valid.noticed.wakes notice queued with known | ⟨⟨task, there, id⟩, held⟩
      · exact announced notice known
      · exact ⟨task, there, id, .inr held⟩
    · obtain ⟨task, there, id⟩ := valid.noticed.deferred notice queued
      obtain ⟨parked, member, route, token, -⟩ := valid.deferring.marked notice queued
      exact ⟨task, there, id, .inr ⟨parked, member, route, token⟩⟩
  refine ⟨fun key => encoded_lt bounded.owned bounded.borrowed,
    valid.located.nodup.map TaskKey.encoded_injective, fun key => (valid.located.live key).mpr,
    fun task => ⟨world.tasks.insertOwned_fresh task, world.tasks.insertBorrowed_fresh task⟩,
    fun wait known => ⟨valid.waiting.owner wait known, encoded_lt bounded.owned bounded.borrowed
      (by rw [valid.waiting.owner wait known]; rfl)⟩, notices,
    fun key gone => ⟨fun notice queued same => ?_, fun timer armed same => ?_,
      fun parked member same => ?_⟩⟩
  · obtain ⟨task, there, -⟩ := notices notice queued
    rw [same, gone] at there
    cases there
  · obtain ⟨parked, member, -, isKey, -⟩ := valid.noticed.timers timer armed
    have located : key ∈ world.keys := by
      rw [← same, ← isKey]
      simp [World.keys, List.mem_map_of_mem member]
    obtain ⟨task, there⟩ := valid.located.get located
    rw [gone] at there
    cases there
  · have located : key ∈ world.keys := by
      rw [← same]
      simp [World.keys, List.mem_map_of_mem member]
    obtain ⟨task, there⟩ := valid.located.get located
    rw [gone] at there
    cases there

/-- After any calls in any order every route is in range and names the task it was made for.  A
key that a call frees is named by no queue any more, and no call meets a notice of a task that
has gone. -/
theorem routes_live (config : Config) (world : World)
    (reachable : (calls config).system.Reachable world) :
    Routed world ∧ ∀ call,
      world.call call ≠ .error "wake notice task does not own wait token" ∧
      world.call call ≠ .error "deferred route reused before retirement" ∧
      ∀ world', world.call call = .ok world' → Routed world' := by
  have steady := steady_of_calls reachable
  refine ⟨steady.routed, fun call => ?_⟩
  rcases steady.call call with ⟨world', ran, steady'⟩ | failed
  · refine ⟨by simp [ran], by simp [ran], fun other same => ?_⟩
    rw [ran] at same
    cases same
    exact steady'.routed
  · rw [failed]
    refine ⟨by simp [incompletePublication], by simp [incompletePublication], fun other same => ?_⟩
    cases same

/-- A task parks, and the claim of its generation is linked to the hub. -/
def linkingCalls : List Call :=
  [.control (.beginOwned false), .control (.submit 1), .receive fun _ => true,
    .tick (fun _ => []) ⟨false, [], ⟨[.begin 0], false, false⟩⟩,
    .moves fun _ => [.claim ⟨0, 1⟩ .ready, .link ⟨0, 1⟩ false]]

theorem linked_live : ∃ world, world.notices.length = 1 ∧ Routed world := by
  have runs : ((calls pairConfig).run (fun _ _ => true) linkingCalls (.new pairConfig)).any
      (fun world => world.notices.length == 1) = true := by decide
  obtain ⟨world, ran, one⟩ := (Option.any_eq_true _ _).mp runs
  exact ⟨world, by simpa using one, (routes_live pairConfig world (calls_run ran)).1⟩

end VThread.Kernel
