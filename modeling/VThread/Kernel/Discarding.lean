import VThread.Kernel.Generations

/-!
# Discarding tasks

What is left after started tasks were discarded: one in flight, the ready ones that match, and
parked ones whose generation can be retired.
-/

namespace VThread.Kernel

open VThread.Lib VThread.Carrier VThread.Ready VThread.Wait

/-! ## What is discarded -/

/-- What discarding tasks cannot change. -/
def World.outside (world : World) : World :=
  { world with
    tasks := .new, ready := .new, parked := [], deferredWakes := [], inFlight := none
    timers := [], hasBorrowed := false, wakes := [], epoch := 0, hub := [], waits := []
    reclaimed := [], openScopes := [], retained := 0, outcomes := [] }

/-- What only aborts, receipts and the rest of the runtime change. -/
def World.aside (world : World) : World :=
  { world.outside with
    starts := [], observedEpoch := 0, generations := fun _ => 0, nextTask := 0, clock := 0 }

theorem World.aside_of_outside {world world' : World} (same : world'.outside = world.outside) :
    world'.aside = world.aside := by rw [aside, aside, same]

/-- These tasks were discarded for a reason, one after the other, and no others. -/
structure Discarded (reason : TaskFailure) (world world' : World)
    (gone : List (TaskKey × Task)) : Prop where
  outside : world'.outside = world.outside
  distinct : (gone.map (·.1)).Nodup
  were : ∀ entry ∈ gone, world.tasks.get entry.1 = some entry.2
  tasks : ∀ key, world'.tasks.get key =
    if key ∈ gone.map (·.1) then none else world.tasks.get key
  outcomes : world'.outcomes = world.outcomes ++ gone.map fun entry => (entry.2.id, some reason)
  waits : world'.waits.Sublist world.waits
  reclaimed : ∀ frames ∈ world.reclaimed, frames ∈ world'.reclaimed
  revoked : (∀ entry ∈ gone, world.revoked entry.1 = true) → world'.reclaimed = world.reclaimed
  size : world'.tasks.len + gone.length = world.tasks.len
  capacity : world'.tasks.capacity = world.tasks.capacity
  retained : world'.retained = world.retained + gone.length
  flagged : world.Flagged → world'.Flagged

namespace Discarded

variable {reason : TaskFailure} {world world' world'' : World} {gone gone' : List (TaskKey × Task)}

theorem nil (same : world'.outside = world.outside) (tasks : world'.tasks = world.tasks)
    (outcomes : world'.outcomes = world.outcomes) (waits : world'.waits.Sublist world.waits)
    (reclaimed : world'.reclaimed = world.reclaimed) (retained : world'.retained = world.retained)
    (flag : world'.hasBorrowed = world.hasBorrowed) : Discarded reason world world' [] where
  outside := same
  distinct := List.nodup_nil
  were := by simp
  tasks key := by simp [tasks]
  outcomes := by simp [outcomes]
  waits := waits
  reclaimed := by simp [reclaimed]
  revoked _ := reclaimed
  size := by simp [tasks]
  capacity := by rw [tasks]
  retained := by simp [retained]
  flagged flagged key task := by
    rw [tasks, flag]
    exact flagged key task

theorem refl (world : World) : Discarded reason world world [] :=
  .nil rfl rfl rfl (.refl _) rfl rfl rfl

/-- A discarded task stays gone. -/
theorem live (first : Discarded reason world world' gone) {key : TaskKey} {task : Task}
    (there : world'.tasks.get key = some task) :
    key ∉ gone.map (·.1) ∧ world.tasks.get key = some task := by
  rw [first.tasks] at there
  split at there
  · cases there
  · rename_i kept
    exact ⟨kept, there⟩

theorem append (first : Discarded reason world world' gone)
    (second : Discarded reason world' world'' gone') :
    Discarded reason world world'' (gone ++ gone') where
  outside := second.outside.trans first.outside
  distinct := by
    rw [List.map_append]
    refine first.distinct.append second.distinct fun key isFirst isSecond => ?_
    obtain ⟨entry, member, rfl⟩ := List.mem_map.mp isSecond
    exact (first.live (second.were entry member)).1 isFirst
  were entry member := by
    rcases List.mem_append.mp member with member | member
    · exact first.were entry member
    · exact (first.live (second.were entry member)).2
  tasks key := by
    rw [second.tasks, first.tasks, List.map_append]
    by_cases isFirst : key ∈ gone.map (·.1)
    · simp [isFirst]
    · by_cases isSecond : key ∈ gone'.map (·.1)
      · simp [isSecond]
      · simp [isFirst, isSecond]
  outcomes := by rw [second.outcomes, first.outcomes, List.map_append, List.append_assoc]
  waits := second.waits.trans first.waits
  reclaimed frames member := second.reclaimed frames (first.reclaimed frames member)
  revoked all := by
    have kept := first.revoked fun entry member => all entry (List.mem_append_left _ member)
    rw [← kept]
    refine second.revoked fun entry member => ?_
    have before := all entry (List.mem_append_right _ member)
    rw [World.revoked] at before ⊢
    rw [second.were entry member, kept]
    rwa [(first.live (second.were entry member)).2] at before
  size := by
    have before := first.size
    have after := second.size
    rw [List.length_append]
    omega
  capacity := second.capacity.trans first.capacity
  retained := by rw [second.retained, first.retained, List.length_append, Nat.add_assoc]
  flagged flagged := second.flagged (first.flagged flagged)

end Discarded

/-! ## The task in flight -/

/-- Nothing is lost with a task but its own frames and those that borrow from it. -/
theorem Framed.remove {tasks : KernelTasks} {reclaimed : List Frames} {starts : List Task}
    {openScopes : List LocalScope} {packets : List SpawnPacket} {bound : Nat} {key : TaskKey}
    (framed : Framed tasks reclaimed starts openScopes packets bound)
    (lost : ∀ index root, key = .owned index → tasks.get key = some root →
      root.frames ∈ reclaimed) :
    Framed (tasks.remove key).1 reclaimed starts openScopes packets bound := by
  have rooted : ∀ task, task.within reclaimed = false → HasRoot tasks task →
      HasRoot (tasks.remove key).1 task := by
    rintro task unrevoked ⟨index, root, there, uses⟩
    refine ⟨index, root, ?_, uses⟩
    rw [KernelTasks.remove_get, if_neg, there]
    rintro rfl
    rw [Task.within_of_mem uses (lost index root rfl there)] at unrevoked
    cases unrevoked
  have before : ∀ key' task, (tasks.remove key).1.get key' = some task →
      tasks.get key' = some task := by
    intro key' task there
    rw [KernelTasks.remove_get] at there
    split at there
    · cases there
    · exact there
  exact { framed with
    live := fun key' task there => framed.live key' task (before key' task there)
    liveRooted := fun index task there unrevoked =>
      rooted task unrevoked (framed.liveRooted index task (before _ _ there) unrevoked)
    queuedRooted := fun task member unrevoked =>
      rooted task unrevoked (framed.queuedRooted task member unrevoked) }

namespace World

variable {running : Option TaskKey} {world : World} {key : TaskKey} {task : Task}
  {reason : TaskFailure}

theorem unwind_eq {gone : List Frames}
    (settled : ∀ wait ∈ world.waits, wait.task.within gone = true → wait.phase.inFlight = false) :
    world.unwind gone = .ok (world.unwound gone) := by
  rw [unwind, ensure_of settled, ok_bind]
  rfl

theorem revoked_eq (there : world.tasks.get key = some task) :
    world.revoked key = (key.isBorrowed && task.within world.reclaimed) := by
  rw [revoked, there]
  rfl

/-- A task in flight, whose generations are gone and whose descendants are revoked, can leave its
slab. -/
theorem removeInFlight_eq (flight : world.inFlight = some key)
    (there : world.tasks.get key = some task) :
    ∃ hasBorrowed, world.removeInFlight =
        .ok { world with inFlight := none, tasks := (world.tasks.remove key).1, hasBorrowed } ∧
      (world.Flagged →
        { world with
          inFlight := none, tasks := (world.tasks.remove key).1, hasBorrowed }.Flagged) := by
  have live : (world.tasks.remove key).2 = true := by
    rw [KernelTasks.remove_snd, there]
    rfl
  rw [removeInFlight, flight, expect_some, ok_bind, ensure_of live, ok_bind]
  cases isBorrowed : key.isBorrowed with
  | true =>
      exact ⟨_, rfl, fun _ => refreshBorrowed_flagged
        { world with inFlight := none, tasks := (world.tasks.remove key).1 }⟩
  | false =>
      refine ⟨_, rfl, fun flagged other task borrowed there => flagged other task borrowed ?_⟩
      rw [KernelTasks.remove_get] at there
      split at there
      · cases there
      · exact there

theorem valid_without (valid : Valid running world) (flight : world.inFlight = some key)
    (idle : ∀ wait ∈ world.waits, wait.route ≠ key)
    (lost : ∀ index root, key = .owned index → world.tasks.get key = some root →
      root.frames ∈ world.reclaimed) (hasBorrowed : Bool) :
    Valid running
      { world with inFlight := none, tasks := (world.tasks.remove key).1, hasBorrowed } where
  located := by
    have located := valid.located
    rw [keys, flight] at located
    exact located.remove
  framed := valid.framed.remove lost
  waiting := valid.waiting.remove idle
  deferring := valid.deferring
  noticed := by
    refine valid.noticed.remove valid.deferring ?_
    rintro parked member rfl
    have distinct := valid.located.nodup
    rw [keys, flight, Option.toList_some, List.singleton_append, List.nodup_cons] at distinct
    exact distinct.1 (by simp [List.mem_map_of_mem member])

/-- Without its frames a task has no generation, and none of its descendants is unrevoked. -/
theorem frameless (valid : Valid running world) (there : world.tasks.get key = some task) :
    (∀ wait ∈ (world.unwound [task.frames]).waits, wait.route ≠ key) ∧
      task.frames ∈ (world.unwound [task.frames]).reclaimed := by
  constructor
  · rintro wait member rfl
    obtain ⟨known, stays⟩ := List.mem_filter.mp member
    rw [valid.waiting.owner wait known] at there
    cases there
    have self := (valid.framed.live _ _ (valid.waiting.owner wait known)).self
    rw [Task.within_of_mem self (List.mem_singleton.mpr rfl)] at stays
    cases stays
  · exact List.mem_append_left _ (List.mem_singleton.mpr rfl)

/-- A revoked task has no generation. -/
theorem revoked_idle (valid : Valid running world) (there : world.tasks.get key = some task)
    (isRevoked : world.revoked key = true) : ∀ wait ∈ world.waits, wait.route ≠ key := by
  rintro wait known rfl
  rw [valid.waiting.owner wait known] at there
  cases there
  rw [revoked_eq (valid.waiting.owner wait known), Bool.and_eq_true] at isRevoked
  rw [valid.waiting.alive wait known isRevoked.1] at isRevoked
  cases isRevoked.2

/-- The task in flight is discarded, once no claim is open on the generations of its frames. -/
theorem discardInFlight_spec (valid : Valid running world) (flight : world.inFlight = some key)
    (there : world.tasks.get key = some task)
    (settled : world.revoked key = false → ∀ wait ∈ world.waits,
      wait.task.within [task.frames] = true → wait.phase.inFlight = false) :
    ∃ world', world.discardInFlight reason = .ok world' ∧ Valid running world' ∧
      Discarded reason world world' [(key, task)] ∧ world'.inFlight = none ∧
      world'.ready = world.ready ∧ world'.parked = world.parked := by
  have removed (before : World) (same : before.tasks = world.tasks) (other : TaskKey) :
      (before.tasks.remove key).1.get other =
        if other ∈ [(key, task)].map (·.1) then none else world.tasks.get other := by
    simp only [KernelTasks.remove_get, same, List.map_singleton, List.mem_singleton]
  rw [discardInFlight, flight, expect_some, ok_bind, there, expect_some, ok_bind]
  cases isRevoked : world.revoked key with
  | true =>
      obtain ⟨hasBorrowed, removal, flags⟩ := removeInFlight_eq flight there
      rw [if_pos rfl]
      simp only [pure, Except.pure, ok_bind, removal]
      have borrowed : key.isBorrowed = true := by
        rw [revoked_eq there, Bool.and_eq_true] at isRevoked
        exact isRevoked.1
      refine ⟨_, rfl, ?_, ?_, rfl, rfl, rfl⟩
      · have without := valid_without valid flight (revoked_idle valid there isRevoked) (by
          rintro index root rfl
          cases borrowed) hasBorrowed
        exact ⟨without.located, without.framed, without.waiting, without.deferring,
          without.noticed⟩
      · exact ⟨rfl, List.nodup_singleton _, by simpa using there, removed world rfl, rfl, .refl _,
          fun _ member => member, fun _ => rfl, KernelTasks.remove_len there,
          KernelTasks.remove_capacity _ _, rfl, flags⟩
  | false =>
      rw [if_neg (by simp), unwind_eq (settled isRevoked), ok_bind]
      obtain ⟨hasBorrowed, removal, flags⟩ :=
        @removeInFlight_eq (world.unwound [task.frames]) key task flight there
      simp only [ok_bind, removal, pure, Except.pure]
      obtain ⟨idle, gone⟩ := frameless valid there
      refine ⟨_, rfl, ?_, ?_, rfl, rfl, rfl⟩
      · have without := valid_without (valid.unwound [task.frames]) flight idle (by
          intro index root _ same
          have known : world.tasks.get key = some root := same
          rw [there] at known
          cases known
          exact gone) hasBorrowed
        exact ⟨without.located, without.framed, without.waiting, without.deferring,
          without.noticed⟩
      · refine ⟨rfl, List.nodup_singleton _, by simpa using there, removed _ rfl, rfl,
          List.filter_sublist, fun _ member => List.mem_append_right _ member, fun all => ?_,
          KernelTasks.remove_len there, KernelTasks.remove_capacity _ _, rfl, flags⟩
        have revoked := all (key, task) (List.mem_singleton.mpr rfl)
        rw [show (key, task).1 = key from rfl, isRevoked] at revoked
        cases revoked

end World

/-! ## Parked tasks -/

namespace World

variable {running : Option TaskKey} {world : World} {key : TaskKey} {task : Task}
  {reason : TaskFailure}

/-- A parked task is the one that is found under its key. -/
theorem find_parked (valid : Valid running world) {parked : ParkedTask}
    (member : parked ∈ world.parked) :
    world.parked.find? (·.task == parked.task) = some parked := by
  have distinct : (world.parked.map (·.task)).Nodup :=
    ((valid.located.nodup.of_append_right).of_append_right).of_append_right
  cases found : world.parked.find? (·.task == parked.task) with
  | none => exact absurd (List.find?_eq_none.mp found parked member) (by simp)
  | some other =>
      have same : other.task = parked.task := by simpa using List.find?_some found
      rw [List.inj_on_of_nodup_map distinct (List.mem_of_find?_eq_some found) member same]

theorem parked_unique (valid : Valid running world) {parked other : ParkedTask}
    (member : parked ∈ world.parked) (known : other ∈ world.parked)
    (same : other.task = parked.task) : other = parked := by
  have first := find_parked valid member
  rw [← same, find_parked valid known] at first
  exact Option.some.inj first

/-- The deferred wake of a parked task goes with it. -/
theorem removeParked_eq (valid : Valid running world) {parked : ParkedTask}
    (member : parked ∈ world.parked) :
    ∃ deferredWakes, world.removeParked parked.task = .ok ({ world with
        parked := world.parked.filter (·.task ≠ parked.task), deferredWakes }, parked) ∧
      Deferring deferredWakes (world.parked.filter (·.task ≠ parked.task)) ∧
      deferredWakes ⊆ world.deferredWakes := by
  have deferring := valid.deferring
  rw [removeParked, find_parked valid member, expect_some, ok_bind]
  cases isDeferred : parked.deferred with
  | false =>
      refine ⟨world.deferredWakes, rfl, ⟨deferring.routes, fun notice noted => ?_,
        fun other kept => deferring.noted other (List.mem_of_mem_filter kept)⟩, fun _ => id⟩
      obtain ⟨other, known, same, token, marked⟩ := deferring.marked notice noted
      refine ⟨other, ?_, same, token, marked⟩
      rw [List.mem_filter]
      refine ⟨known, ?_⟩
      rw [decide_eq_true_eq]
      intro equal
      rw [parked_unique valid member known equal, isDeferred] at marked
      cases marked
  | true =>
      obtain ⟨notice, noted, route, token⟩ := deferring.noted parked member isDeferred
      obtain ⟨index, found⟩ : ∃ index, (world.deferredWakes.findIdx? fun notice =>
          notice.route == parked.task && notice.token == parked.token) = some index := by
        rw [← Option.isSome_iff_exists, List.findIdx?_isSome, List.any_eq_true]
        exact ⟨notice, noted, by simp [route, token]⟩
      have place := List.of_findIdx?_eq_some found
      obtain ⟨entry, there⟩ : ∃ entry, world.deferredWakes[index]? = some entry := by
        cases there : world.deferredWakes[index]? with
        | none =>
            rw [there] at place
            cases place
        | some entry => exact ⟨entry, rfl⟩
      obtain ⟨taken, rest, removed⟩ :=
        swapRemove_isSome (List.getElem?_eq_some_iff.mp there).1
      obtain ⟨front, back, split, length, perm, -⟩ := swapRemove_cases removed
      have isEntry : taken = entry := by
        rw [split, ← length] at there
        simpa using there
      have isRoute : taken.route = parked.task := by
        rw [there] at place
        rw [isEntry]
        simpa using (Bool.and_eq_true_iff.mp place).1
      have routes := deferring.routes
      have others : ∀ other ∈ rest, other ∈ world.deferredWakes ∧ other.route ≠ parked.task := by
        intro other kept
        have known := perm.subset kept
        refine ⟨by rw [split]; simpa using (List.mem_append.mp known).imp id .inr, ?_⟩
        rw [split, List.map_append, List.map_cons, List.nodup_middle, List.nodup_cons,
          ← List.map_append] at routes
        rintro same
        exact routes.1 (List.mem_map.mpr ⟨other, known, same.trans isRoute.symm⟩)
      refine ⟨rest, ?_, ⟨?_, fun other kept => ?_, fun other kept marked => ?_⟩,
        fun other kept => (others other kept).1⟩
      · simp only [if_pos, found, removed, expect_some, ok_bind, pure, Except.pure]
      · rw [split, List.map_append, List.map_cons, List.nodup_middle, List.nodup_cons,
          ← List.map_append] at routes
        exact (perm.map _).nodup_iff.mpr routes.2
      · obtain ⟨known, different⟩ := others other kept
        obtain ⟨owner, isParked, same, token, marked⟩ := deferring.marked other known
        refine ⟨owner, ?_, same, token, marked⟩
        rw [List.mem_filter]
        exact ⟨isParked, by simpa [same] using different⟩
      · obtain ⟨isParked, different⟩ := List.mem_filter.mp kept
        rw [decide_eq_true_eq] at different
        obtain ⟨note, known, route, token⟩ := deferring.noted other isParked marked
        refine ⟨note, perm.symm.subset ?_, route, token⟩
        rw [split] at known
        rcases List.mem_append.mp known with before | after
        · exact List.mem_append_left _ before
        · rcases List.mem_cons.mp after with rfl | after
          · exact absurd (route.symm.trans isRoute) different
          · exact List.mem_append_right _ after

theorem parked_split (valid : Valid running world) {parked : ParkedTask}
    (member : parked ∈ world.parked) : (world.parked.map (·.task)).Perm
      (parked.task :: (world.parked.filter (·.task ≠ parked.task)).map (·.task)) := by
  have distinct : (world.parked.map (·.task)).Nodup :=
    ((valid.located.nodup.of_append_right).of_append_right).of_append_right
  have erased : (world.parked.filter (·.task ≠ parked.task)).map (·.task) =
      (world.parked.map (·.task)).erase parked.task := by
    rw [distinct.erase_eq_filter, List.filter_map]
    congr 1
    apply List.filter_congr
    intro other _
    simp [bne, beq_eq_decide]
  rw [erased]
  exact List.perm_cons_erase (List.mem_map_of_mem member)

/-- A generation without an open claim is retired. -/
theorem tryAbandon_eq {token : ParkToken}
    (open' : ∀ wait, world.generation token = some wait → wait.phase.inFlight = false) :
    ∃ hub, world.tryAbandon token =
        ({ world with waits := world.waits.filter (·.token ≠ token), hub }, true) ∧
      ∀ notice ∈ hub, notice ∈ world.hub ∧
        ∀ wait ∈ world.waits, wait.token = notice.token → wait.token ≠ token := by
  rw [tryAbandon]
  cases found : world.generation token with
  | none =>
      refine ⟨world.hub, ?_, fun notice member =>
        ⟨member, fun wait known _ => generation_eq_none.mp found wait known⟩⟩
      have same : world.waits.filter (·.token ≠ token) = world.waits :=
        List.filter_eq_self.mpr fun wait member => by
          simpa using generation_eq_none.mp found wait member
      rw [same]
  | some wait =>
      simp only [open' wait found]
      refine ⟨_, rfl, fun notice member => ?_⟩
      obtain ⟨known, other⟩ := List.mem_filter.mp member
      exact ⟨known, fun wait _ same => by simpa [same] using other⟩

end World

/-! ## Loops that discard -/

/-- What a loop relies on that discards the matching tasks: which tasks match stays the same, and
no claim is open where frames are reclaimed. -/
structure Discards (matching : World → TaskKey → Bool) (eligible : TaskKey → Bool)
    (reason : TaskFailure) (holds : World → Prop) : Prop where
  agree : ∀ world key task, holds world → world.tasks.get key = some task →
    matching world key = eligible key
  settled : ∀ world key task, holds world → world.tasks.get key = some task →
    eligible key = true → world.revoked key = false → ∀ wait ∈ world.waits,
      wait.task.within [task.frames] = true → wait.phase.inFlight = false
  retired : ∀ world wait, Valid none world → holds world → wait ∈ world.waits →
    eligible wait.route = true → wait.phase.inFlight = false
  step : ∀ world world' gone, holds world → (∀ entry ∈ gone, eligible entry.1 = true) →
    Discarded reason world world' gone → holds world'

namespace World

variable {matching : World → TaskKey → Bool} {eligible : TaskKey → Bool} {reason : TaskFailure}
  {holds : World → Prop} {world : World}

/-- One parked task is discarded. -/
theorem discardParked_spec (discards : Discards matching eligible reason holds) (message : String)
    (valid : Valid none world) (holding : holds world) (flight : world.inFlight = none)
    {parked : ParkedTask} (member : parked ∈ world.parked)
    (chosen : eligible parked.task = true) :
    ∃ world' task, world.discardParked reason message parked.task = .ok world' ∧
      Valid none world' ∧ holds world' ∧ Discarded reason world world' [(parked.task, task)] ∧
      world'.inFlight = none ∧ world'.ready = world.ready ∧
      world'.parked = world.parked.filter (·.task ≠ parked.task) := by
  obtain ⟨deferredWakes, removed, deferring, subset⟩ := removeParked_eq valid member
  obtain ⟨task, there⟩ : ∃ task, world.tasks.get parked.task = some task :=
    valid.located.get (by simp [keys, flight, List.mem_map_of_mem member])
  let gone : World := { world with
    parked := world.parked.filter (·.task ≠ parked.task), deferredWakes }
  have noClaim : ∀ wait, (gone.unregisterWake parked.token).generation parked.token = some wait →
      wait.phase.inFlight = false := by
    intro wait found
    obtain ⟨known, token⟩ := generation_eq_some found
    have route := (valid.waiting.own parked member wait known).mpr token
    exact discards.retired world wait valid holding known (route ▸ chosen)
  obtain ⟨hub, abandoned, hubs⟩ := tryAbandon_eq noClaim
  let flying : World := { gone.unregisterWake parked.token with
    waits := world.waits.filter (·.token ≠ parked.token), hub
    timers := world.timers.filter (·.1 ≠ parked.token)
    inFlight := some parked.task }
  have idle : ∀ wait ∈ flying.waits, wait.route ≠ parked.task := by
    intro wait kept same
    obtain ⟨known, different⟩ := List.mem_filter.mp kept
    rw [(valid.waiting.own parked member wait known).mp same] at different
    simp at different
  have validFlying : Valid none flying := by
    refine ⟨valid.located.perm ?_, valid.framed, ?_, deferring, ?_⟩
    · simp only [keys, flight, Option.toList_none, List.nil_append]
      refine (((parked_split valid member).append_left _).append_left _).trans ?_
      exact (List.perm_middle.append_left _).trans List.perm_middle
    · refine (valid.waiting.sublist List.filter_sublist).unpark fun wait kept same => ?_
      exact absurd same (idle wait kept)
    · have noticed : Noticed world.tasks flying.waits world.parked hub flying.wakes deferredWakes
          world.timers := by
        refine (valid.noticed.fewer (fun _ => id) (fun _ => id) subset (fun _ => id)).rolled
          (fun notice left => ?_) (fun notice left => ?_)
        · exact ⟨(hubs notice left).1, fun wait known same =>
            List.mem_filter.mpr ⟨known, by simpa using (hubs notice left).2 wait known same⟩⟩
        · obtain ⟨known, other⟩ := List.mem_filter.mp left
          exact ⟨known, fun wait isWait same =>
            List.mem_filter.mpr ⟨isWait, by simpa [same] using other⟩⟩
      refine noticed.unpark parked.token (fun other known same => ?_) (fun notice left same => ?_)
        (fun timer left => ?_)
      · rw [parked_unique valid member known same]
      · exact absurd same (by simpa using (List.mem_filter.mp left).2)
      · obtain ⟨known, other⟩ := List.mem_filter.mp left
        exact ⟨known, fun owner _ _ same => by simpa [same] using other⟩
  have fewer : Discarded reason world flying [] :=
    .nil rfl rfl rfl List.filter_sublist rfl rfl rfl
  have revoked : flying.revoked parked.task = world.revoked parked.task := rfl
  obtain ⟨world', ran, valid', discarded, flight', ready, parkedLeft⟩ :=
    @discardInFlight_spec none flying parked.task task reason validFlying rfl there
      fun unrevoked wait kept => discards.settled world _ _ holding there chosen
        (revoked ▸ unrevoked) wait (List.mem_of_mem_filter kept)
  have whole := fewer.append discarded
  refine ⟨world', task, ?_, valid',
    discards.step world world' _ holding (by simpa using chosen) whole, whole,
    flight', ready, parkedLeft⟩
  rw [discardParked, removed, ok_bind]
  dsimp only
  rw [show (World.unregisterWake _ parked.token).tryAbandon parked.token = _ from abandoned]
  exact ran

/-- Parked tasks are discarded in turn. -/
theorem discardAllParked_spec (discards : Discards matching eligible reason holds)
    (message : String) {keys : List TaskKey} (valid : Valid none world) (holding : holds world)
    (flight : world.inFlight = none) (distinct : keys.Nodup)
    (chosen : ∀ key ∈ keys, eligible key = true ∧ ∃ parked ∈ world.parked, parked.task = key) :
    ∃ world' gone, world.discardAllParked reason message keys = .ok world' ∧
      Valid none world' ∧ holds world' ∧ Discarded reason world world' gone ∧
      gone.map (·.1) = keys ∧ world'.inFlight = none ∧ world'.ready = world.ready ∧
      world'.parked = world.parked.filter (·.task ∉ keys) := by
  induction keys generalizing world with
  | nil => exact ⟨world, [], rfl, valid, holding, .refl _, rfl, flight, rfl, by simp⟩
  | cons key keys ih =>
      obtain ⟨isEligible, parked, member, rfl⟩ := chosen key List.mem_cons_self
      obtain ⟨absent, distinct⟩ := List.nodup_cons.mp distinct
      obtain ⟨middle, task, ran, valid', holding', first, flight', ready, left⟩ :=
        discardParked_spec discards message valid holding flight member isEligible
      obtain ⟨world', gone, rest, valid'', holding'', second, names, flight'', ready', left'⟩ :=
        ih valid' holding' flight' distinct fun key later => by
          obtain ⟨isEligible, other, known, rfl⟩ := chosen key (List.mem_cons_of_mem _ later)
          refine ⟨isEligible, other, ?_, rfl⟩
          rw [left, List.mem_filter]
          refine ⟨known, decide_eq_true fun same => ?_⟩
          rw [same] at later
          exact absent later
      refine ⟨world', (parked.task, task) :: gone, ?_, valid'', holding'', first.append second,
        by rw [List.map_cons, names], flight'', ready'.trans ready, ?_⟩
      · rw [discardAllParked, ran, ok_bind]
        exact rest
      · rw [left', left, List.filter_filter]
        apply List.filter_congr
        intro other _
        rw [Bool.eq_iff_iff]
        simp [and_comm]

/-- A ready task that was taken out of the queue is discarded. -/
theorem discardSelected_spec (discards : Discards matching eligible reason holds)
    (valid : Valid none world) (holding : holds world) (flight : world.inFlight = none)
    (queue : ReadyQueue TaskKey) {key : TaskKey}
    (taken : (world.ready.normal ++ world.ready.wakes).Perm
      (key :: (queue.normal ++ queue.wakes))) (chosen : eligible key = true) :
    ∃ world' task, { world with ready := queue, inFlight := some key }.discardInFlight reason =
        .ok world' ∧ Valid none world' ∧ holds world' ∧
      Discarded reason world world' [(key, task)] ∧ world'.inFlight = none ∧
      world'.ready = queue ∧ world'.parked = world.parked := by
  obtain ⟨task, there⟩ : ∃ task, world.tasks.get key = some task := by
    apply valid.located.get
    have member := taken.symm.subset List.mem_cons_self
    rw [keys, flight, Option.toList_none, List.nil_append, ← List.append_assoc]
    exact List.mem_append_left _ member
  have places : world.keys.Perm
      { world with ready := queue, inFlight := some key : World }.keys := by
    simp only [keys, flight, Option.toList_none, List.nil_append, Option.toList_some]
    rw [← List.append_assoc, ← List.append_assoc queue.normal, ← List.append_assoc [key]]
    exact taken.append_right _
  have valid' : Valid none { world with ready := queue, inFlight := some key } :=
    ⟨valid.located.perm places, valid.framed, valid.waiting, valid.deferring, valid.noticed⟩
  have same : Discarded reason world { world with ready := queue, inFlight := some key } [] :=
    .nil rfl rfl rfl (.refl _) rfl rfl rfl
  obtain ⟨world', ran, valid'', discarded, flight', ready, left⟩ :=
    @discardInFlight_spec none _ key task reason valid' rfl there fun unrevoked =>
      discards.settled world key task holding there chosen unrevoked
  have whole := same.append discarded
  exact ⟨world', task, ran, valid'', discards.step world world' _ holding
    (by simpa using chosen) whole, whole, flight', ready, left⟩

/-- From the middle of an inspection, the ready tasks that match are discarded and the others
keep their places. -/
theorem discardReady_spec (discards : Discards matching eligible reason holds) (calls : Nat)
    {normal wakes keptNormal keptWakes : List TaskKey} {streak : Nat} (valid : Valid none world)
    (holding : holds world) (flight : world.inFlight = none)
    (queue : world.ready = ⟨normal ++ keptNormal, wakes ++ keptWakes, streak⟩)
    (enough : ((normal ++ wakes).filter eligible).length < calls) :
    ∃ world' gone, world.discardReady matching reason calls ⟨normal.length, wakes.length⟩ =
        .ok world' ∧ Valid none world' ∧ holds world' ∧ Discarded reason world world' gone ∧
      gone.map (·.1) = (normal ++ wakes).filter eligible ∧ world'.inFlight = none ∧
      world'.parked = world.parked ∧
      world'.ready = ⟨keptNormal ++ normal.filter (!eligible ·),
        keptWakes ++ wakes.filter (!eligible ·), streak⟩ := by
  induction calls generalizing world normal wakes keptNormal keptWakes with
  | zero => exact absurd enough (Nat.not_lt_zero _)
  | succ calls ih =>
      have ready : ∀ key ∈ normal ++ wakes, ∃ task, world.tasks.get key = some task := by
        intro key member
        apply valid.located.get
        rw [keys, flight, queue]
        rcases List.mem_append.mp member with member | member
        · simp [member]
        · simp [member]
      have agree : ∀ key ∈ normal ++ wakes, matching world key = eligible key := by
        intro key member
        obtain ⟨task, there⟩ := ready key member
        exact discards.agree world key task holding there
      have visible : ∀ visited : List TaskKey, visited ⊆ normal ++ wakes →
          ∀ key ∈ visited, (world.tasks.get key).isSome = true := by
        intro visited inside key member
        obtain ⟨task, there⟩ := ready key (inside member)
        simp [there]
      have rejects : ∀ lane : List TaskKey, lane ⊆ normal ++ wakes →
          NoMatch (matching world) lane → NoMatch eligible lane := by
        intro lane inside none key member
        rw [← agree key (inside member)]
        exact none key member
      rw [discardReady, queue]
      rcases ReadyQueue.removeMatching_cases (matching world) normal wakes keptNormal keptWakes
          streak with
        ⟨before, key, after, rfl, none, matched, call⟩ |
        ⟨before, key, after, noNormal, rfl, none, matched, call⟩ | ⟨noNormal, noWake, call⟩
      · have before_rejects := rejects before (by simp) none
        have isEligible : eligible key = true := by rw [← agree key (by simp), matched]
        obtain ⟨middle, task, ran, valid', holding', first, flight', ready', left⟩ :=
          discardSelected_spec discards valid holding flight
            ⟨after ++ (keptNormal ++ before), wakes ++ keptWakes, streak⟩ (by
              rw [queue, List.perm_iff_count]
              intro other
              simp only [List.count_append, List.count_cons]
              omega) isEligible
        have fewer : ((after ++ wakes).filter eligible).length < calls := by
          simpa [before_rejects.filter, isEligible] using enough
        obtain ⟨world', gone, rest, valid'', holding'', second, names, flight'', left', lanes⟩ :=
          ih valid' holding' flight' ready' fewer
        rw [call, ok_bind, ensure_of (visible _ (by simp)), ok_bind]
        simp only [ran, ok_bind, rest]
        refine ⟨world', _, rfl, valid'', holding'', first.append second, ?_, flight'',
          left'.trans left, ?_⟩
        · simp [names, before_rejects.filter, isEligible]
        · simp [lanes, before_rejects.keep, isEligible]
      · have normal_rejects := rejects normal (by simp) noNormal
        have before_rejects := rejects before (by intro; simp; tauto) none
        have isEligible : eligible key = true := by rw [← agree key (by simp), matched]
        obtain ⟨middle, task, ran, valid', holding', first, flight', ready', left⟩ :=
          discardSelected_spec discards valid holding flight
            ⟨keptNormal ++ normal, after ++ (keptWakes ++ before), streak⟩ (by
              rw [queue, List.perm_iff_count]
              intro other
              simp only [List.count_append, List.count_cons]
              omega) isEligible
        have fewer : (([] ++ after).filter eligible).length < calls := by
          simpa [before_rejects.filter, normal_rejects.filter, isEligible] using enough
        obtain ⟨world', gone, rest, valid'', holding'', second, names, flight'', left', lanes⟩ :=
          @ih middle [] after (keptNormal ++ normal) (keptWakes ++ before) valid' holding' flight'
            ready' fewer
        rw [call, ok_bind, ensure_of (visible _ (by intro; simp; tauto)), ok_bind]
        simp only [ran, ok_bind]
        refine ⟨world', _, rest, valid'', holding'', first.append second, ?_, flight'',
          left'.trans left, ?_⟩
        · simp [names, before_rejects.filter, normal_rejects.filter, isEligible]
        · simp [lanes, before_rejects.keep, normal_rejects.keep, isEligible]
      · have normal_rejects := rejects normal (by simp) noNormal
        have wakes_rejects := rejects wakes (by simp) noWake
        rw [call, ok_bind, ensure_of (visible _ (by simp)), ok_bind]
        have same : Discarded reason world
            { world with ready := ⟨keptNormal ++ normal, keptWakes ++ wakes, streak⟩ } [] :=
          .nil rfl rfl rfl (.refl _) rfl rfl rfl
        have places : world.keys.Perm
            { world with
              ready := ⟨keptNormal ++ normal, keptWakes ++ wakes, streak⟩ : World }.keys := by
          simp only [keys, queue, List.perm_iff_count, List.count_append]
          omega
        refine ⟨_, [], rfl, ⟨valid.located.perm places, valid.framed, valid.waiting,
          valid.deferring, valid.noticed⟩, ?_, same, ?_, flight, rfl, ?_⟩
        · exact discards.step world _ [] holding (by simp) same
        · simp [normal_rejects.filter, wakes_rejects.filter]
        · simp [normal_rejects.keep, wakes_rejects.keep]

/-- All ready tasks that match are discarded. -/
theorem discardAllReady_spec (discards : Discards matching eligible reason holds)
    (valid : Valid none world) (holding : holds world) (flight : world.inFlight = none) :
    ∃ world' gone, world.discardAllReady matching reason = .ok world' ∧
      Valid none world' ∧ holds world' ∧ Discarded reason world world' gone ∧
      gone.map (·.1) = (world.ready.normal ++ world.ready.wakes).filter eligible ∧
      world'.inFlight = none ∧ world'.parked = world.parked ∧
      world'.ready = ⟨world.ready.normal.filter (!eligible ·),
        world.ready.wakes.filter (!eligible ·), world.ready.wakeStreak⟩ := by
  have enough : ((world.ready.normal ++ world.ready.wakes).filter eligible).length <
      world.ready.len + 1 := by
    have bound := List.length_filter_le eligible (world.ready.normal ++ world.ready.wakes)
    rw [List.length_append] at bound
    exact Nat.lt_succ_of_le bound
  have all := @discardReady_spec matching eligible reason holds world discards
    (world.ready.len + 1) world.ready.normal world.ready.wakes [] [] world.ready.wakeStreak valid
    holding flight (by simp) enough
  simpa [discardAllReady, ReadyQueue.inspection] using all

/-- All ready and parked tasks that match are discarded, while none is in flight. -/
theorem discardMatching_spec (discards : Discards matching eligible reason holds)
    (message : String) (valid : Valid none world) (holding : holds world)
    (flight : world.inFlight = none) :
    ∃ world' gone, world.discardMatching matching reason message = .ok world' ∧
      Valid none world' ∧ holds world' ∧ Discarded reason world world' gone ∧
      gone.map (·.1) = (world.ready.normal ++ world.ready.wakes).filter eligible ++
        (world.parked.filter fun parked => eligible parked.task).map (·.task) ∧
      world'.inFlight = none ∧
      world'.ready = ⟨world.ready.normal.filter (!eligible ·),
        world.ready.wakes.filter (!eligible ·), world.ready.wakeStreak⟩ ∧
      world'.parked = world.parked.filter (!eligible ·.task) := by
  obtain ⟨middle, gone, ran, valid', holding', first, names, flight', parked, ready⟩ :=
    discardAllReady_spec discards valid holding flight
  have agree : (middle.parked.filter fun parked => matching middle parked.task) =
      world.parked.filter fun parked => eligible parked.task := by
    rw [parked]
    refine List.filter_congr fun other member => ?_
    obtain ⟨task, there⟩ : ∃ task, middle.tasks.get other.task = some task :=
      valid'.located.get (by simp [keys, parked, List.mem_map_of_mem member])
    exact discards.agree middle other.task task holding' there
  have distinct : (world.parked.map (·.task)).Nodup :=
    ((valid.located.nodup.of_append_right).of_append_right).of_append_right
  obtain ⟨world', gone', ran', valid'', holding'', second, names', flight'', ready', parked'⟩ :=
    @discardAllParked_spec matching eligible reason holds middle discards message
      ((world.parked.filter fun parked => eligible parked.task).map (·.task)) valid'
      holding' flight' (distinct.sublist (List.filter_sublist.map _)) (by
        intro key member
        obtain ⟨other, chosen, rfl⟩ := List.mem_map.mp member
        obtain ⟨isParked, isIn⟩ := List.mem_filter.mp chosen
        exact ⟨isIn, other, parked ▸ isParked, rfl⟩)
  refine ⟨world', gone ++ gone', ?_, valid'', holding'', first.append second, ?_, flight'',
    ready'.trans ready, ?_⟩
  · rw [discardMatching, ran, ok_bind]
    dsimp only
    rw [agree, ran']
  · rw [List.map_append, names, names']
  · rw [parked', parked]
    refine List.filter_congr fun other member => ?_
    rw [Bool.eq_iff_iff, decide_eq_true_eq, Bool.not_eq_true', List.mem_map]
    constructor
    · intro absent
      by_contra isIn
      exact absent ⟨other, List.mem_filter.mpr ⟨member, by simpa using isIn⟩, rfl⟩
    · rintro isOut ⟨another, member', same⟩
      rw [← same, (List.mem_filter.mp member').2] at isOut
      cases isOut

end World

end VThread.Kernel
