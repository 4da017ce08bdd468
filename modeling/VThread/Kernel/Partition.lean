import VThread.Kernel.Calls

/-!
# Where the tasks of a kernel are

Between any calls, every live task is ready, parked or in flight, and in one of these places
only.
-/

namespace VThread.Kernel

open VThread.Lib VThread.Carrier VThread.Ready VThread.Wait

/-! ## Sizes -/

/-- The indices in use are counted. -/
theorem TaskSlab.length_eq_len {α : Type} {slab : TaskSlab α} {indices : List Nat}
    (distinct : indices.Nodup) (live : ∀ index, index ∈ indices ↔ (slab.get index).isSome = true) :
    indices.length = slab.len := by
  refine Nat.le_antisymm (length_le_len distinct fun index => (live index).mp) ?_
  have all : List.range slab.slots.length ⊆ indices ++ slab.vacant := by
    intro index member
    have inside := List.mem_range.mp member
    rw [List.mem_append, live, slab.mem_vacant, List.getElem?_eq_getElem inside]
    rw [get, List.getElem?_eq_getElem inside]
    cases slab.slots[index] with
    | none => exact .inr rfl
    | some value => exact .inl rfl
  have bound := (List.nodup_range.subperm all).length_le
  rw [List.length_range, List.length_append] at bound
  rw [len]
  omega

/-- The live tasks of one slab are counted by their places. -/
theorem Located.size_slab {tasks : KernelTasks} {keys : List TaskKey}
    (located : Located tasks keys) (slab : TaskSlab Task) (name : Nat → TaskKey)
    (which : TaskKey → Bool) (named : ∀ key, which key = true → name key.index = key)
    (indexed : ∀ index, (name index).index = index ∧ which (name index) = true)
    (gets : ∀ index, tasks.get (name index) = slab.get index) :
    (keys.filter which).length = slab.len := by
  rw [← List.length_map (·.index)]
  refine TaskSlab.length_eq_len ?_ fun index => ?_
  · refine (located.nodup.filter _).map_on fun key isKey other isOther same => ?_
    rw [← named key (List.mem_filter.mp isKey).2, ← named other (List.mem_filter.mp isOther).2,
      same]
  · rw [← gets, ← located.live, List.mem_map]
    constructor
    · rintro ⟨key, member, rfl⟩
      obtain ⟨known, isName⟩ := List.mem_filter.mp member
      rwa [named key isName]
    · intro member
      exact ⟨name index, List.mem_filter.mpr ⟨member, (indexed index).2⟩, (indexed index).1⟩

/-- The live tasks are counted by their places. -/
theorem Located.size {tasks : KernelTasks} {keys : List TaskKey} (located : Located tasks keys) :
    keys.length = tasks.len := by
  have owned := located.size_slab tasks.owned .owned (!·.isBorrowed) (fun key isOwned => by
    cases key with
    | owned index => rfl
    | borrowed index => cases isOwned) (fun _ => ⟨rfl, rfl⟩) fun _ => rfl
  have borrowed := located.size_slab tasks.borrowed .borrowed (·.isBorrowed)
    (fun key isBorrowed => by
      cases key with
      | owned index => cases isBorrowed
      | borrowed index => rfl) (fun _ => ⟨rfl, rfl⟩) fun _ => rfl
  have split := @List.length_eq_length_filter_add _ keys TaskKey.isBorrowed
  rw [split, borrowed, owned, KernelTasks.len]
  exact Nat.add_comm _ _

/-! ## The partition -/

/-- Every live task is in one place, and the queues hold no other task. -/
structure Partitioned (world : World) : Prop where
  once : ∀ key, (world.tasks.get key).isSome = true → world.keys.count key = 1
  only : ∀ key ∈ world.keys, (world.tasks.get key).isSome = true
  /-- The assertion of `snapshot`. -/
  snapshot : world.tasks.len =
    world.ready.len + world.parked.length + world.inFlight.isSome.toNat
  marked : ∀ parked ∈ world.parked, parked.deferred = true ↔
    world.deferredWakes.countP (fun notice =>
      notice.route == parked.task && notice.token == parked.token) = 1
  noted : ∀ notice ∈ world.deferredWakes, ∃ parked ∈ world.parked, parked.deferred = true ∧
    parked.task = notice.route ∧ parked.token = notice.token
  armed : ∀ timer ∈ world.timers, ∃ parked ∈ world.parked, parked.token = timer.1 ∧
    parked.task = timer.2 ∧ parked.hasDeadline = true

/-- A notice is deferred once. -/
theorem Deferring.count {deferredWakes : List Notice} {parked : List ParkedTask}
    (deferring : Deferring deferredWakes parked) (distinct : (parked.map (·.task)).Nodup)
    {task : ParkedTask} (member : task ∈ parked) : task.deferred = true ↔
      deferredWakes.countP (fun notice =>
        notice.route == task.task && notice.token == task.token) = 1 := by
  have atMost : deferredWakes.countP (fun notice =>
      notice.route == task.task && notice.token == task.token) ≤ 1 := by
    have once := List.nodup_iff_count_le_one.mp deferring.routes task.task
    rw [List.count_eq_countP, List.countP_map] at once
    exact (List.countP_mono_left fun notice _ matched => (Bool.and_eq_true_iff.mp matched).1).trans
      once
  rw [show (deferredWakes.countP _ = 1) ↔ 0 < deferredWakes.countP (fun notice =>
    notice.route == task.task && notice.token == task.token) from ⟨fun one => by omega,
      fun some => by omega⟩, List.countP_pos_iff]
  constructor
  · intro marked
    obtain ⟨notice, noted, route, token⟩ := deferring.noted task member marked
    exact ⟨notice, noted, by simp [route, token]⟩
  · rintro ⟨notice, noted, matched⟩
    obtain ⟨other, isOther, route, token, marked⟩ := deferring.marked notice noted
    rw [Bool.and_eq_true, beq_iff_eq, beq_iff_eq] at matched
    have same : other = task := List.inj_on_of_nodup_map distinct isOther member
      (route.trans matched.1)
    exact same ▸ marked

theorem Steady.partitioned {world : World} (steady : Steady world) : Partitioned world := by
  have valid := steady.sound.valid
  have located := valid.located
  have distinct : (world.parked.map (·.task)).Nodup := by
    have all := located.nodup
    rw [World.keys, ← List.append_assoc, ← List.append_assoc] at all
    exact (List.nodup_append.mp all).2.1
  refine ⟨fun key live => List.count_eq_one_of_mem located.nodup ((located.live key).mpr live),
    fun key => (located.live key).mp, ?_, fun parked => valid.deferring.count distinct,
    fun notice noted => ?_, valid.noticed.timers⟩
  · rw [← located.size, World.keys, steady.inFlight, ReadyQueue.len]
    simp [Nat.add_assoc]
  · obtain ⟨parked, member, route, token, marked⟩ := valid.deferring.marked notice noted
    exact ⟨parked, member, marked, route, token⟩

/-- After any calls in any order every live task is ready, parked or in flight, exactly once.  The
deferred wakes are those of the parked tasks that say so, and every timer is of a parked task that
says so.  No call fails, except where a task leaves frames that have a claim in flight. -/
theorem tasks_partitioned (config : Config) (world : World)
    (reachable : (calls config).system.Reachable world) : Partitioned world ∧
      ∀ call, (∃ world', world.call call = .ok world') ∨
        world.call call = .error incompletePublication := by
  have steady := steady_of_calls reachable
  refine ⟨steady.partitioned, fun call => ?_⟩
  exact (steady.call call).imp_left fun ⟨world', ran, _⟩ => ⟨world', ran⟩

/-- A task is submitted and started, and parks with a deadline. -/
def parkingCalls : List Call :=
  [.control (.beginOwned false), .control (.submit 1), .receive fun _ => true,
    .tick (fun _ => []) ⟨false, [], ⟨[.begin 0], true, false⟩⟩]

theorem parked_partitioned : ∃ world, (calls pairConfig).system.Reachable world ∧
    world.timers.length = 1 ∧ Partitioned world := by
  have runs : ((calls pairConfig).run (fun _ _ => true) parkingCalls (.new pairConfig)).any
      (fun world => world.timers.length == 1) = true := by decide
  obtain ⟨world, ran, one⟩ := (Option.any_eq_true _ _).mp runs
  have reachable := calls_run ran
  exact ⟨world, reachable, by simpa using one,
    (tasks_partitioned pairConfig world reachable).1⟩

end VThread.Kernel
