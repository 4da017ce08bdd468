import VThread.Kernel.Revoking

/-!
# Wakes and timers

A wake moves a parked task to the ready ones once its generation is published, and is deferred
until then.  No task joins or leaves its slab.
-/

namespace VThread.Kernel

open VThread.Lib VThread.Carrier VThread.Ready VThread.Wait

/-! ## What wakes can change -/

/-- Wakes only move tasks between their places. -/
def Woken (world world' : World) : Prop :=
  ∃ ready parked deferredWakes timers waits hub wakes retained clock, world' = { world with
    ready, parked, deferredWakes, timers, waits, hub, wakes, retained, clock }

namespace Woken

variable {world world' : World}

theorem refl (world : World) : Woken world world := ⟨_, _, _, _, _, _, _, _, _, rfl⟩

theorem trans {first second third : World} (before : Woken first second)
    (after : Woken second third) : Woken first third := by
  obtain ⟨_, _, _, _, _, _, _, _, _, rfl⟩ := before
  obtain ⟨_, _, _, _, _, _, _, _, _, rfl⟩ := after
  exact ⟨_, _, _, _, _, _, _, _, _, rfl⟩

theorem of_stirred (stirred : Stirred world world') : Woken world world' := by
  obtain ⟨_, _, _, _, _, rfl, -⟩ := stirred
  exact ⟨_, _, _, _, _, _, _, _, _, rfl⟩

theorem tasks (woken : Woken world world') : world'.tasks = world.tasks := by
  obtain ⟨_, _, _, _, _, _, _, _, _, rfl⟩ := woken
  rfl

theorem inFlight (woken : Woken world world') : world'.inFlight = world.inFlight := by
  obtain ⟨_, _, _, _, _, _, _, _, _, rfl⟩ := woken
  rfl

theorem starts (woken : Woken world world') : world'.starts = world.starts := by
  obtain ⟨_, _, _, _, _, _, _, _, _, rfl⟩ := woken
  rfl

theorem hasBorrowed (woken : Woken world world') : world'.hasBorrowed = world.hasBorrowed := by
  obtain ⟨_, _, _, _, _, _, _, _, _, rfl⟩ := woken
  rfl

theorem pendingAborts (woken : Woken world world') :
    world'.pendingAborts = world.pendingAborts := by
  obtain ⟨_, _, _, _, _, _, _, _, _, rfl⟩ := woken
  rfl

theorem reclaimed (woken : Woken world world') : world'.reclaimed = world.reclaimed := by
  obtain ⟨_, _, _, _, _, _, _, _, _, rfl⟩ := woken
  rfl

end Woken

/-- Wakes keep what holds of aborts and scopes. -/
theorem Sound.woken {running : Option TaskKey} {world world' : World}
    (sound : Sound running world) (woken : Woken world world') (valid : Valid running world')
    (bounded : Bounded world') : Sound running world' := by
  obtain ⟨_, _, _, _, _, _, _, _, _, rfl⟩ := woken
  have admitted := sound.admitted
  exact ⟨valid, bounded, sound.pending, admitted.distinct, admitted.bounded, admitted.fresh,
    admitted.live, admitted.queued, admitted.issued⟩

/-- The slots of tasks and the records stay the same, unless one was given up. -/
theorem Bounded.woken {world world' : World} (bounded : Bounded world)
    (woken : Woken world world') (retained : world'.retained = world.retained) :
    Bounded world' := by
  obtain ⟨_, _, _, _, _, _, _, kept, _, rfl⟩ := woken
  cases retained
  exact ⟨bounded.records, bounded.owned, bounded.borrowed⟩

theorem Sound.move {running : Option TaskKey} {world : World} (sound : Sound running world)
    (move : Move) : Sound running (world.move move) :=
  sound.woken (.of_stirred (World.move_stirred sound.valid.waiting.tokens move))
    (sound.valid.move move) (sound.bounded.move move)

theorem Sound.pause {running : Option TaskKey} {world : World} (sound : Sound running world)
    (others : Nat → List Move) :
    Sound running (world.pause others) ∧ Woken world (world.pause others) := by
  have woken := Woken.of_stirred (sound.valid.pause_stirred others)
  exact ⟨sound.woken woken (sound.valid.pause others) (sound.bounded.pause others), woken⟩

/-! ## The deferred flag -/

/-- The flag of one parked task is set. -/
def mark (key : TaskKey) (deferred : Bool) (parked : ParkedTask) : ParkedTask :=
  if parked.task = key then { parked with deferred } else parked

section Marks

variable {key : TaskKey} {deferred : Bool} {parked : List ParkedTask}

theorem mark_task (task : ParkedTask) : (mark key deferred task).task = task.task := by
  rw [mark]
  split <;> rfl

theorem mark_token (task : ParkedTask) : (mark key deferred task).token = task.token := by
  rw [mark]
  split <;> rfl

theorem mark_hasDeadline (task : ParkedTask) :
    (mark key deferred task).hasDeadline = task.hasDeadline := by
  rw [mark]
  split <;> rfl

theorem mark_self {task : ParkedTask} (same : task.task = key) :
    (mark key deferred task).deferred = deferred := by
  rw [mark, if_pos same]

theorem mark_other {task : ParkedTask} (differ : task.task ≠ key) :
    mark key deferred task = task := if_neg differ

theorem map_mark_task (parked : List ParkedTask) :
    (parked.map (mark key deferred)).map (·.task) = parked.map (·.task) := by
  rw [List.map_map]
  exact List.map_congr_left fun task _ => mark_task task

variable {running : Option TaskKey} {tasks : KernelTasks} {waits : List Generation}
  {reclaimed : List Frames} {generations : Nat → Nat}

theorem Waiting.mark (waiting : Waiting running tasks waits reclaimed generations parked) :
    Waiting running tasks waits reclaimed generations (parked.map (mark key deferred)) :=
  { waiting with
    past := fun task member => by
      obtain ⟨before, known, rfl⟩ := List.mem_map.mp member
      rw [mark_token]
      exact waiting.past before known
    own := fun task member => by
      obtain ⟨before, known, rfl⟩ := List.mem_map.mp member
      rw [mark_token, mark_task]
      exact waiting.own before known
    woken := fun wait member => by
      rcases waiting.woken wait member with runs | ⟨task, known, same⟩ | selected
      · exact .inl runs
      · exact .inr (.inl ⟨_, List.mem_map_of_mem known, (mark_task task).trans same⟩)
      · exact .inr (.inr selected) }

theorem Noticed.mark {hub wakes deferredWakes : List Notice}
    {timers : List (ParkToken × TaskKey)}
    (noticed : Noticed tasks waits parked hub wakes deferredWakes timers) :
    Noticed tasks waits (parked.map (mark key deferred)) hub wakes deferredWakes timers :=
  { noticed with
    wakes := fun notice member => (noticed.wakes notice member).imp_right fun holds => by
      obtain ⟨names, task, known, route, token⟩ := holds
      exact ⟨names, _, List.mem_map_of_mem known, (mark_task task).trans route,
        (mark_token task).trans token⟩
    timers := fun timer member => by
      obtain ⟨task, known, token, route, hasDeadline⟩ := noticed.timers timer member
      exact ⟨_, List.mem_map_of_mem known, (mark_token task).trans token,
        (mark_task task).trans route, (mark_hasDeadline task).trans hasDeadline⟩ }

end Marks

theorem World.setDeferred_eq (world : World) (key : TaskKey) (deferred : Bool) :
    world.setDeferred key deferred = { world with
      parked := world.parked.map (mark key deferred) } := rfl

/-- A parked task is marked or not, and the deferred wakes follow. -/
theorem Valid.mark {running : Option TaskKey} {world : World} {key : TaskKey} {deferred : Bool}
    {deferredWakes : List Notice} (valid : Valid running world)
    (deferring : Deferring deferredWakes (world.parked.map (mark key deferred)))
    (named : ∀ notice ∈ deferredWakes, Names world.tasks notice) :
    Valid running { world.setDeferred key deferred with deferredWakes } where
  located := by
    have located := valid.located
    simp only [World.keys, World.setDeferred_eq, map_mark_task] at located ⊢
    exact located
  framed := valid.framed
  waiting := valid.waiting.mark
  deferring := deferring
  noticed := { valid.noticed.mark with deferred := named }

/-! ## One wake -/

namespace World

variable {running : Option TaskKey} {world : World} {notice : Notice} {parked : ParkedTask}

/-- A notice of a generation or of a park names the task that is there. -/
theorem names_of_known (valid : Valid running world)
    (known : Announces world.waits notice ∨ Holds world.tasks world.parked notice) :
    Names world.tasks notice := by
  rcases known with ⟨wait, member, -, route, id⟩ | ⟨names, -⟩
  · exact ⟨wait.task, route ▸ valid.waiting.owner wait member, id⟩
  · exact names

/-- A task parked on a selected generation becomes ready. -/
theorem finishWake_spec (valid : Valid running world) (member : parked ∈ world.parked)
    (route : parked.task = notice.route) (token : parked.token = notice.token)
    {wait : Generation} (known : wait ∈ world.waits) (same : wait.token = notice.token)
    {cause : WakeCause} (selected : wait.phase = .selected cause) :
    ∃ world', world.finishWake notice = .ok world' ∧ Valid running world' ∧ Woken world world' ∧
      world'.retained = world.retained ∧
      world'.parked = world.parked.filter (·.task ≠ notice.route) ∧
      (parked.deferred = false → world'.deferredWakes = world.deferredWakes) := by
  obtain ⟨deferredWakes, removed, deferring, subset⟩ := removeParked_eq valid member
  have undeferred : parked.deferred = false → deferredWakes = world.deferredWakes := by
    intro unmarked
    have plain := removed
    rw [removeParked, find_parked valid member, expect_some, ok_bind, unmarked] at plain
    have equal := congrArg World.deferredWakes (congrArg Prod.fst (Except.ok.inj plain))
    exact equal.symm
  have isWait : ∀ other ∈ world.waits, other.route = parked.task → other = wait := by
    intro other member' isRoute
    have isToken := (valid.waiting.own parked member other member').mp isRoute
    exact List.inj_on_of_nodup_map valid.waiting.tokens member' known
      (isToken.trans (token.trans same.symm))
  have isRoute : wait.route = parked.task :=
    (valid.waiting.own parked member wait known).mpr (same.trans token.symm)
  rw [finishWake, ← route, removed, ok_bind]
  refine ⟨_, rfl, ⟨?_, valid.framed, ?_, deferring, ?_⟩, ⟨_, _, _, _, _, _, _, _, _, rfl⟩, rfl,
    rfl, undeferred⟩
  · refine valid.located.perm ?_
    have split := parked_split valid member
    simp only [keys, ReadyQueue.pushWake]
    refine (List.Perm.append_left _ (List.Perm.append_left _ ?_))
    exact (List.Perm.append_left _ split).trans List.perm_middle
  · exact valid.waiting.unpark fun other member' isRoute =>
      ⟨cause, isWait other member' isRoute ▸ selected⟩
  · refine (valid.noticed.unpark parked.token (fun other member' same' =>
      congrArg ParkedTask.token (parked_unique valid member member' same')) ?_ ?_).fewer
        (fun _ => id) (fun _ => id) subset (fun _ => id)
    · intro other member' isToken
      rcases valid.noticed.wakes other member' with
        announces | ⟨names, owner, isParked, route', token'⟩
      · exact announces
      · have theirs : wait.route = owner.task := (valid.waiting.own owner isParked wait known).mpr
          (same.trans (token.symm.trans (isToken.symm.trans token'.symm)))
        obtain ⟨task, there, id⟩ := names
        rw [← route', ← theirs, valid.waiting.owner wait known] at there
        cases there
        exact ⟨wait, known, same.trans (token.symm.trans isToken.symm),
          theirs.trans route', id⟩
    · intro timer member'
      cases hasDeadline : parked.hasDeadline with
      | true =>
          rw [hasDeadline, if_pos rfl] at member'
          obtain ⟨known', other⟩ := List.mem_filter.mp member'
          refine ⟨known', fun task _ _ isTimer isToken => ?_⟩
          rw [← isTimer, isToken, token] at other
          simp at other
      | false =>
          rw [hasDeadline, if_neg Bool.false_ne_true] at member'
          refine ⟨member', fun task isParked armed _ isToken => ?_⟩
          have theirs := (valid.waiting.own task isParked wait known).mpr
            (same.trans (token.symm.trans isToken.symm))
          rw [parked_unique valid member isParked (theirs.symm.trans isRoute), hasDeadline] at armed
          cases armed

/-- There is room for a wake of a parked task that is not deferred yet. -/
theorem deferred_room (valid : Valid running world) (bounded : Bounded world)
    (member : parked ∈ world.parked) (unmarked : parked.deferred = false) :
    world.deferredWakes.length < world.config.maxVthreads ∧
      parked.task ∉ world.deferredWakes.map (·.route) := by
  have absent : parked.task ∉ world.deferredWakes.map (·.route) := by
    intro noted
    obtain ⟨notice, known, same⟩ := List.mem_map.mp noted
    obtain ⟨owner, isParked, route, -, marked⟩ := valid.deferring.marked notice known
    rw [parked_unique valid member isParked (route.trans same), unmarked] at marked
    cases marked
  have live : ∀ key ∈ parked.task :: world.deferredWakes.map (·.route),
      (world.tasks.get key).isSome = true := by
    intro key inside
    refine (valid.located.live key).mp ?_
    simp only [keys, List.mem_append]
    rcases List.mem_cons.mp inside with rfl | noted
    · exact .inr (.inr (.inr (List.mem_map_of_mem member)))
    · obtain ⟨notice, known, rfl⟩ := List.mem_map.mp noted
      obtain ⟨owner, isParked, route, -⟩ := valid.deferring.marked notice known
      exact .inr (.inr (.inr (route ▸ List.mem_map_of_mem isParked)))
  have few := KernelTasks.length_le_len (List.nodup_cons.mpr ⟨absent, valid.deferring.routes⟩) live
  have records := bounded.records
  rw [recordCount_eq] at records
  rw [List.length_cons, List.length_map] at few
  exact ⟨by omega, absent⟩

/-- A parked task whose claim is unpublished is marked, and its notice is set aside. -/
theorem deferWake_spec (valid : Valid running world) (bounded : Bounded world)
    (member : parked ∈ world.parked) (route : parked.task = notice.route)
    (token : parked.token = notice.token) (unmarked : parked.deferred = false)
    (names : Names world.tasks notice) :
    Valid running { world.setDeferred notice.route true with
      deferredWakes := world.deferredWakes ++ [notice] } := by
  have absent := (deferred_room valid bounded member unmarked).2
  refine valid.mark ⟨?_, fun other noted => ?_, fun task isParked marked => ?_⟩
    fun other noted => ?_
  · rw [List.map_append, List.nodup_append]
    refine ⟨valid.deferring.routes, List.nodup_singleton _, ?_⟩
    rintro key known _ isLast rfl
    rw [List.map_singleton, List.mem_singleton, ← route] at isLast
    exact absent (isLast ▸ known)
  · rcases List.mem_append.mp noted with noted | isLast
    · obtain ⟨owner, isParked, route', token', marked⟩ := valid.deferring.marked other noted
      have apart : owner.task ≠ notice.route := by
        rw [← route]
        intro same
        exact absent (List.mem_map.mpr ⟨other, noted, route'.symm.trans same⟩)
      exact ⟨owner, List.mem_map.mpr ⟨owner, isParked, mark_other apart⟩, route', token', marked⟩
    · rw [List.mem_singleton.mp isLast]
      exact ⟨_, List.mem_map_of_mem member, (mark_task _).trans route,
        (mark_token _).trans token, mark_self route⟩
  · obtain ⟨owner, known, rfl⟩ := List.mem_map.mp isParked
    rw [mark_task, mark_token]
    by_cases same : owner.task = notice.route
    · refine ⟨notice, List.mem_append_right _ (List.mem_singleton_self _), same.symm, ?_⟩
      rw [parked_unique valid member known (same.trans route.symm), token]
    · rw [mark_other same] at marked
      obtain ⟨other, noted, route', token'⟩ := valid.deferring.noted owner known marked
      exact ⟨other, List.mem_append_left _ noted, route', token'⟩
  · rcases List.mem_append.mp noted with noted | isLast
    · exact valid.noticed.deferred other noted
    · rw [List.mem_singleton.mp isLast]
      exact names

/-- What is known when a claim is published. -/
theorem publication_published {token : ParkToken}
    (published : world.publication token = .published) :
    ∃ wait ∈ world.waits, wait.token = token ∧ ∃ cause, wait.phase = .selected cause := by
  rw [publication] at published
  split at published
  · rename_i other task route cause found
    obtain ⟨known, same⟩ := generation_eq_some found
    exact ⟨_, known, same, cause, rfl⟩
  · cases published
  · cases published
  · cases published

/-- A notice moves its task to the ready ones, or is set aside or dropped; it never fails. -/
theorem processWake_spec (sound : Sound running world)
    (known : Announces world.waits notice ∨ Holds world.tasks world.parked notice) :
    ∃ world', world.processWake notice = .ok world' ∧ Sound running world' ∧
      Woken world world' ∧
      ((∀ parked ∈ world.parked, parked.task = notice.route → parked.deferred = false) →
        world.deferredWakes <+: world'.deferredWakes) := by
  have still : ∃ world', (pure world : Checked World) = .ok world' ∧ Sound running world' ∧
      Woken world world' ∧
      ((∀ parked ∈ world.parked, parked.task = notice.route → parked.deferred = false) →
        world.deferredWakes <+: world'.deferredWakes) :=
    ⟨world, rfl, sound, .refl world, fun _ => List.prefix_refl _⟩
  have valid := sound.valid
  rw [processWake]
  cases found : world.parked.find? (·.task == notice.route) with
  | none => exact still
  | some parked =>
      have member := List.mem_of_find?_eq_some found
      have route : parked.task = notice.route := by simpa using List.find?_some found
      have names := names_of_known valid known
      obtain ⟨task, there, id⟩ := names
      dsimp only
      rw [route, there, expect_some, ok_bind, if_neg (by simp [id])]
      by_cases token : parked.token = notice.token
      · rw [if_neg (by simp [token])]
        cases published : world.publication notice.token with
        | published =>
            obtain ⟨wait, isWait, same, cause, selected⟩ := publication_published published
            obtain ⟨world', ran, valid', woken, retained, -, unmarked⟩ :=
              finishWake_spec valid member route token isWait same selected
            refine ⟨world', ran, sound.woken woken valid' (sound.bounded.woken woken retained),
              woken, fun none => ?_⟩
            rw [unmarked (none parked member route)]
        | inFlight =>
            cases marked : parked.deferred with
            | true => exact still
            | false =>
                have room := (deferred_room valid sound.bounded member marked).1
                have woken : Woken world { world.setDeferred notice.route true with
                    deferredWakes := world.deferredWakes ++ [notice] } :=
                  ⟨_, _, _, _, _, _, _, _, _, rfl⟩
                refine ⟨_, ?_, sound.woken woken (deferWake_spec valid sound.bounded member route
                  token marked ⟨task, there, id⟩) (sound.bounded.woken woken rfl), woken,
                  fun _ => List.prefix_append ..⟩
                dsimp only
                rw [if_neg Bool.false_ne_true, ensure_of room, ok_bind]
                rfl
        | stale => exact still
      · rw [if_pos token]
        exact still

/-! ## All wakes -/

/-- A notice is taken from the local wakes or the hub. -/
theorem popWake_spec (sound : Sound running world) {rest : World}
    (popped : world.popWake = some (notice, rest)) :
    Sound running rest ∧ Woken world rest ∧
      (Announces rest.waits notice ∨ Holds rest.tasks rest.parked notice) := by
  have fewer : ∀ {hub wakes : List Notice}, hub ⊆ world.hub → wakes ⊆ world.wakes →
      Sound running { world with hub, wakes } := by
    intro hub wakes hubs locals
    have valid := sound.valid
    have woken : Woken world { world with hub, wakes } := ⟨_, _, _, _, _, _, _, _, _, rfl⟩
    exact sound.woken woken ⟨valid.located, valid.framed, valid.waiting, valid.deferring,
      valid.noticed.fewer hubs locals (fun _ => id) (fun _ => id)⟩ (sound.bounded.woken woken rfl)
  rw [popWake] at popped
  split at popped
  · rename_i first wakes _ isLocal
    cases popped
    refine ⟨fewer (fun _ => id) (isLocal ▸ List.subset_cons_self ..),
      ⟨_, _, _, _, _, _, _, _, _, rfl⟩, sound.valid.noticed.wakes notice ?_⟩
    rw [isLocal]
    exact List.mem_cons_self
  · rename_i first hub isLocal isHub
    cases popped
    refine ⟨fewer (isHub ▸ List.subset_cons_self ..) (fun _ => id),
      ⟨_, _, _, _, _, _, _, _, _, rfl⟩, .inl (sound.valid.noticed.hub notice ?_)⟩
    rw [isHub]
    exact List.mem_cons_self
  · cases popped

theorem processEach_spec (count : Nat) (sound : Sound running world) :
    ∃ world', processEach count world = .ok world' ∧ Sound running world' ∧
      Woken world world' := by
  induction count generalizing world with
  | zero => exact ⟨world, rfl, sound, .refl world⟩
  | succ count ih =>
      rw [processEach]
      cases popped : world.popWake with
      | none => exact ⟨world, rfl, sound, .refl world⟩
      | some entry =>
          obtain ⟨notice, rest⟩ := entry
          obtain ⟨sound', woken, known⟩ := popWake_spec sound popped
          obtain ⟨next, ran, sound'', woken', -⟩ := processWake_spec sound' known
          obtain ⟨world', rans, final, woken''⟩ := ih sound''
          refine ⟨world', ?_, final, (woken.trans woken').trans woken''⟩
          dsimp only
          rw [ran, ok_bind, rans]

/-- Processing wakes never fails. -/
theorem processWakes_spec (others : Nat → List Move) (sound : Sound running world) :
    ∃ world', world.processWakes others = .ok world' ∧ Sound running world' ∧
      Woken world world' := by
  obtain ⟨sound', woken⟩ := sound.pause others
  obtain ⟨world', ran, final, woken'⟩ := processEach_spec
    ((world.pause others).wakes.length + (world.pause others).hub.length) sound'
  exact ⟨world', ran, final, woken.trans woken'⟩

/-! ## Deferred wakes -/

/-- A deferred wake that is taken up leaves its task unmarked. -/
theorem takeUp_spec (sound : Sound none world) {rest : List Notice} {index : Nat}
    (removed : swapRemove world.deferredWakes index = some (notice, rest)) :
    ∃ world', { world with deferredWakes := rest }.processDeferred notice = .ok world' ∧
      Sound none world' ∧ Woken world world' ∧ rest <+: world'.deferredWakes := by
  have valid := sound.valid
  obtain ⟨front, back, split, -, perm, -⟩ := swapRemove_cases removed
  have perm' : world.deferredWakes.Perm (notice :: rest) := by
    rw [split]
    exact List.perm_middle.trans (perm.symm.cons notice)
  have routes := (perm'.map (·.route)).nodup_iff.mp valid.deferring.routes
  obtain ⟨absent, distinct⟩ := List.nodup_cons.mp routes
  obtain ⟨parked, member, route, token, -⟩ :=
    valid.deferring.marked notice (perm'.symm.subset List.mem_cons_self)
  have noted : ∀ other ∈ rest, other ∈ world.deferredWakes :=
    fun other kept => perm'.symm.subset (List.mem_cons_of_mem _ kept)
  have deferring : Deferring rest (world.parked.map (mark notice.route false)) := by
    refine ⟨distinct, fun other kept => ?_, fun task isParked marked => ?_⟩
    · obtain ⟨owner, isParked, route', token', marked⟩ :=
        valid.deferring.marked other (noted other kept)
      have apart : owner.task ≠ notice.route := by
        intro same
        exact absent (List.mem_map.mpr ⟨other, kept, route'.symm.trans same⟩)
      exact ⟨owner, List.mem_map.mpr ⟨owner, isParked, mark_other apart⟩, route', token', marked⟩
    · obtain ⟨owner, known, rfl⟩ := List.mem_map.mp isParked
      by_cases same : owner.task = notice.route
      · rw [mark_self same] at marked
        cases marked
      · rw [mark_other same] at marked ⊢
        obtain ⟨other, isNoted, route', token'⟩ := valid.deferring.noted owner known marked
        rcases List.mem_cons.mp (perm'.subset isNoted) with rfl | kept
        · exact absurd route'.symm same
        · exact ⟨other, kept, route', token'⟩
  let unmarked : World := { world.setDeferred notice.route false with deferredWakes := rest }
  have woken : Woken world unmarked := ⟨_, _, _, _, _, _, _, _, _, rfl⟩
  have sound' : Sound none unmarked := sound.woken woken
    (valid.mark deferring fun other kept => valid.noticed.deferred other (noted other kept))
    (sound.bounded.woken woken rfl)
  have holds : Holds unmarked.tasks unmarked.parked notice :=
    ⟨valid.noticed.deferred notice (perm'.symm.subset List.mem_cons_self), _,
      List.mem_map_of_mem member, (mark_task _).trans route, (mark_token _).trans token⟩
  obtain ⟨world', ran, final, woken', kept⟩ := processWake_spec sound' (.inr holds)
  refine ⟨world', ?_, final, woken.trans woken', kept fun task isParked same => ?_⟩
  · have found := find_parked valid member
    rw [route] at found
    rw [processDeferred, found]
    dsimp only
    rw [ensure_of token, ok_bind]
    exact ran
  · have isMarked : task ∈ world.parked.map (mark notice.route false) := isParked
    obtain ⟨owner, -, rfl⟩ := List.mem_map.mp isMarked
    rw [mark_task] at same
    exact mark_self same

/-- Every deferred wake is taken up once, and none has been left to another park. -/
theorem processDeferredWakes_spec (others : Nat → List Move) (sound : Sound none world) :
    ∃ world', world.processDeferredWakes others = .ok world' ∧ Sound none world' ∧
      Woken world world' := by
  obtain ⟨sound', woken⟩ := sound.pause others
  have count : world.deferredWakes.length = (world.pause others).deferredWakes.length := by
    obtain ⟨_, _, _, _, _, same, -⟩ := sound.valid.pause_stirred others
    rw [same]
  obtain ⟨world', ran, ⟨final, woken'⟩, -⟩ := @sweep_spec _ _ deferredWakes
    (fun deferredWakes world => { world with deferredWakes }) processDeferred
    (fun state => Sound none state ∧ Woken (world.pause others) state) (fun _ _ _ => True)
    (fun state index notice rest holds removed => by
      obtain ⟨state', ran, sound', woken', kept⟩ := takeUp_spec holds.1 removed
      exact ⟨state', ran, ⟨sound', holds.2.trans woken'⟩, kept, trivial⟩)
    _ (world.pause others) ⟨sound', .refl _⟩ (Nat.le_of_eq count)
  refine ⟨world', ?_, final, woken.trans woken'⟩
  rw [processDeferredWakes, ran]
  rfl

/-! ## Timers -/

theorem selectTimeout_spec (token : ParkToken) (sound : Sound running world) :
    Sound running (world.selectTimeout token) ∧ Woken world (world.selectTimeout token) := by
  rw [selectTimeout]
  split
  · have step : ∀ {world : World} (sound : Sound running world) (move : Move),
        Sound running (world.move move) ∧ Woken world (world.move move) :=
      fun sound move => ⟨sound.move move,
        .of_stirred (move_stirred sound.valid.waiting.tokens move)⟩
    obtain ⟨claimed, first⟩ := step sound (.claim token .timedOut)
    obtain ⟨linked, second⟩ := step claimed (.link token false)
    obtain ⟨published, third⟩ := step linked (.publish token)
    exact ⟨published, (first.trans second).trans third⟩
  · exact ⟨sound, .refl world⟩

/-- A timer that has expired is gone, and its generation times out unless it was claimed. -/
theorem expireTimers_spec (expired : List ParkToken) (sound : Sound running world) :
    Sound running (expireTimers expired world) ∧ Woken world (expireTimers expired world) := by
  induction expired generalizing world with
  | nil => exact ⟨sound, .refl world⟩
  | cons token expired ih =>
      rw [expireTimers]
      split
      · exact ih sound
      · have valid := sound.valid
        have woken : Woken world { world with
            timers := world.timers.filter (·.1 ≠ token) } := ⟨_, _, _, _, _, _, _, _, _, rfl⟩
        have fewer := sound.woken woken ⟨valid.located, valid.framed, valid.waiting,
          valid.deferring, valid.noticed.fewer (fun _ => id) (fun _ => id) (fun _ => id)
            List.filter_sublist.subset⟩ (sound.bounded.woken woken rfl)
        dsimp only
        split
        · obtain ⟨timedOut, woken'⟩ := selectTimeout_spec token fewer
          obtain ⟨final, woken''⟩ := ih timedOut
          exact ⟨final, (woken.trans woken').trans woken''⟩
        · obtain ⟨final, woken'⟩ := ih fewer
          exact ⟨final, woken.trans woken'⟩

end World

end VThread.Kernel
