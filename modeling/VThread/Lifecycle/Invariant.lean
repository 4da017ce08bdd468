import VThread.Lifecycle.Owner

/-!
# The invariant of the process table

The stage of a runtime tells who has its entry.  The lemmas here say what a change of one
runtime, of the reaper or of one start keeps.
-/

namespace VThread.Lifecycle

open VThread.Lib

namespace Runtime

/-- The coordinator was joined and its resources were found to be drained. -/
def Confirmed (runtime : Runtime) : Prop :=
  runtime.worker = .joined ∧
    ∃ resources, runtime.confirmed = some resources ∧ resources.drained true = true

def Recorded (failure : ThreadFailure) (runtime : Runtime) : Prop :=
  ∃ stored ∈ runtime.recorded, failure.Same stored

/-- A failure is recorded on a runtime, and its stop requested. -/
def Told (failure : ThreadFailure) (runtime : Runtime) : Prop :=
  runtime.Recorded failure ∧ runtime.abortRequested = true

/-- What every section keeps of a runtime, whoever takes it. -/
structure Later (runtime runtime' : Runtime) : Prop where
  stage : runtime'.stage = runtime.stage
  recorded : ∀ failure, runtime.Recorded failure → runtime'.Recorded failure
  aborted : runtime.abortRequested = true → runtime'.abortRequested = true
  phase : runtime.stage ≠ .released → runtime.shutdownPhase.terminal = false →
    runtime'.shutdownPhase.terminal = false
  retained : runtime.failures = .of runtime.recorded → runtime'.failures = .of runtime'.recorded

theorem Later.told {runtime runtime' : Runtime} (later : runtime.Later runtime')
    {failure : ThreadFailure} (told : runtime.Told failure) : runtime'.Told failure :=
  ⟨later.recorded failure told.1, later.aborted told.2⟩

theorem pushFailure_later (stamped : ThreadFailure) (runtime : Runtime) :
    runtime.Later (runtime.pushFailure stamped) where
  stage := rfl
  recorded _ stored := by
    obtain ⟨stored, member, same⟩ := stored
    exact ⟨stored, List.mem_append_left _ member, same⟩
  aborted := id
  phase _ := id
  retained retained := by
    simp only [pushFailure, retained]
    exact ThreadFailures.of_push _ _

theorem requestStop_later (runtime : Runtime) : runtime.Later runtime.requestStop where
  stage := rfl
  recorded _ := id
  aborted _ := rfl
  phase _ active := ShutdownPhase.max_terminal active rfl
  retained := id

theorem joinedCleanly_later (component : ThreadComponent) (name : String) (runtime : Runtime) :
    runtime.Later (runtime.joinedCleanly component name) where
  stage := rfl
  recorded _ stored := by
    obtain ⟨stored, member, same⟩ := stored
    exact ⟨_, List.mem_map_of_mem member, same.joined component name⟩
  aborted := id
  phase _ := id
  retained retained := by
    simp only [joinedCleanly, retained]
    exact ThreadFailures.of_joined _ _ _

/-- A change of the join or of the resources alone. -/
theorem later_of_eq {runtime runtime' : Runtime} (stage : runtime'.stage = runtime.stage)
    (recorded : runtime'.recorded = runtime.recorded)
    (aborted : runtime'.abortRequested = runtime.abortRequested)
    (phase : runtime'.shutdownPhase = runtime.shutdownPhase)
    (failures : runtime'.failures = runtime.failures) : runtime.Later runtime' where
  stage := stage
  recorded _ stored := by rwa [Recorded, recorded]
  aborted already := by rw [aborted, already]
  phase _ active := by rw [phase, active]
  retained retained := by rw [failures, recorded, retained]

theorem event_later (event : Event) (runtime : Runtime) : runtime.Later (event.apply runtime) := by
  cases event with
  | advance phase =>
      simp only [Event.apply]
      split
      · exact later_of_eq rfl rfl rfl rfl rfl
      · rename_i active
        exact ⟨rfl, fun _ => id, id, fun _ before => ShutdownPhase.max_terminal before
          (by simpa using active), id⟩
  | requestStop => exact requestStop_later runtime
  | pushFailure stamped => exact pushFailure_later stamped runtime
  | joined component name => exact joinedCleanly_later component name runtime
  | resources => exact later_of_eq rfl rfl rfl rfl rfl
  | exit =>
      simp only [Event.apply]
      split <;> exact later_of_eq rfl rfl rfl rfl rfl

theorem event_confirmed (event : Event) {runtime : Runtime} (confirmed : runtime.Confirmed) :
    (event.apply runtime).Confirmed := by
  cases event with
  | advance | exit => simp only [Event.apply]; split <;> exact confirmed
  | requestStop | pushFailure | joined | resources => exact confirmed

end Runtime

/-! ## Telling -/

/-- The runtimes that are not told yet. -/
def Telling.waiting : Telling → List Nat
  | check rest => rest
  | stamp id rest => id :: rest
  | push _ id rest => id :: rest
  | stop id rest => id :: rest

/-- Only entries of the table are told, each with the failure itself. -/
structure Telling.Sound (failure : ThreadFailure) (world : World) (tell : Telling) : Prop where
  waiting : ∀ id ∈ tell.waiting, id ∈ world.slots.entries
  stamped : ∀ stamped id rest, tell = .push stamped id rest → failure.Same stamped
  pushed : ∀ id rest, tell = .stop id rest → (world.runtimes id).Recorded failure

/-- Somebody tells runtimes of a failure. -/
def World.Tells (world : World) (failure : ThreadFailure) (tell : Telling) : Prop :=
  world.reaper = .telling failure tell ∨
    ∃ start ∈ world.starts, ∃ installed, start.place = .telling failure tell installed

/-! ## The reaper -/

/-- The entry that the reaper has confirmed and still holds. -/
def Reaper.ready : Reaper → Option Nat
  | naming id => some id
  | dropping id _ => some id
  | _ => none

/-- The reaper has published a failure. -/
def Reaper.over : Reaper → Bool
  | telling _ _ => true
  | finished => true
  | _ => false

/-- The invariant of the process. -/
structure World.Sound (world : World) : Prop where
  occupied : world.slots.occupied = world.slots.entries.length +
    world.reaper.held.toList.length + world.permits + world.reaper.uncounted.toList.length
  bounded : world.slots.occupied ≤ capacity
  exact : world.underflows = 0
  nodup : world.slots.entries.Nodup
  listed : ∀ id, id ∈ world.slots.entries ↔ (world.runtimes id).stage = .listed
  claimed : ∀ id, world.reaper.held = some id ↔ (world.runtimes id).stage = .claimed
  dropped : ∀ id, world.reaper.uncounted = some id ↔ (world.runtimes id).stage = .dropped
  unshared : (world.starts.map Start.runtime).Nodup
  known : ∀ start ∈ world.starts, start.runtime < world.next
  fresh : ∀ start ∈ world.starts, start.place.pending = true →
    (world.runtimes start.runtime).stage = .fresh
  unused : ∀ id, world.next ≤ id → (world.runtimes id).stage = .fresh
  phases : ∀ id, (world.runtimes id).stage ≠ .released →
    (world.runtimes id).shutdownPhase.terminal = false
  proofs : ∀ id, (world.runtimes id).stage = .dropped ∨ (world.runtimes id).stage = .released →
    (world.runtimes id).Confirmed
  ready : ∀ id, world.reaper.ready = some id → (world.runtimes id).Confirmed
  publishing : ∀ id phase, world.reaper = .publishing id phase →
    (world.runtimes id).stage = .released
  retained : ∀ id, (world.runtimes id).failures = .of (world.runtimes id).recorded
  failed : world.slots.failure.isSome = world.reaper.over
  telling : ∀ failure tell, world.Tells failure tell →
    world.slots.failure = some failure ∧ tell.Sound failure world
  failing : ∀ start ∈ world.starts, start.place = .failing → world.slots.failure.isSome
  told : ∀ failure, world.slots.failure = some failure → ∀ id ∈ world.slots.entries,
    (world.runtimes id).Told failure ∨ ∃ tell, world.Tells failure tell ∧ id ∈ tell.waiting

namespace World

variable {world : World}

@[simp] theorem modify_self (id : Nat) (change : Runtime → Runtime) :
    (world.modify id change).runtimes id = change (world.runtimes id) := by
  simp [modify]

theorem modify_of_ne {id other : Nat} (different : other ≠ id) (change : Runtime → Runtime) :
    (world.modify id change).runtimes other = world.runtimes other := by
  simp [modify, different]

theorem modify_later {id : Nat} {change : Runtime → Runtime}
    (later : (world.runtimes id).Later (change (world.runtimes id))) (other : Nat) :
    (world.runtimes other).Later ((world.modify id change).runtimes other) := by
  by_cases equal : other = id
  · subst equal
    rwa [modify_self]
  · rw [modify_of_ne equal]
    exact Runtime.later_of_eq rfl rfl rfl rfl rfl

/-- A runtime changes, and what was confirmed of it stays so, unless it is still claimed. -/
theorem modify_sound {id : Nat} {change : Runtime → Runtime} (sound : world.Sound)
    (later : (world.runtimes id).Later (change (world.runtimes id)))
    (confirmed : (world.runtimes id).Confirmed → (change (world.runtimes id)).Confirmed ∨
      (world.runtimes id).stage = .claimed ∧ world.reaper.ready = none) :
    (world.modify id change).Sound := by
  have all := @modify_later world id change later
  have stage (other : Nat) : ((world.modify id change).runtimes other).stage =
      (world.runtimes other).stage := (all other).stage
  have keep (other : Nat) (before : (world.runtimes other).Confirmed) :
      ((world.modify id change).runtimes other).Confirmed ∨
        (world.runtimes other).stage = .claimed ∧ world.reaper.ready = none := by
    by_cases equal : other = id
    · subst equal
      rw [modify_self]
      exact confirmed before
    · rw [modify_of_ne equal]
      exact .inl before
  exact {
    occupied := sound.occupied
    bounded := sound.bounded
    exact := sound.exact
    nodup := sound.nodup
    listed := fun other => by rw [stage]; exact sound.listed other
    claimed := fun other => by rw [stage]; exact sound.claimed other
    dropped := fun other => by rw [stage]; exact sound.dropped other
    unshared := sound.unshared
    known := sound.known
    fresh := fun start member pending => by rw [stage]; exact sound.fresh start member pending
    unused := fun other new => by rw [stage]; exact sound.unused other new
    phases := fun other active => by
      rw [stage] at active
      exact (all other).phase active (sound.phases other active)
    proofs := fun other past => by
      rw [stage] at past
      refine (keep other (sound.proofs other past)).resolve_right fun claimed => ?_
      rcases past with past | past <;> simp [claimed.1] at past
    ready := fun other held => (keep other (sound.ready other held)).resolve_right fun claimed =>
      by rw [show (world.modify id change).reaper = world.reaper from rfl, claimed.2] at held
         cases held
    publishing := fun other phase place => by
      rw [stage]
      exact sound.publishing other phase place
    retained := fun other => (all other).retained (sound.retained other)
    failed := sound.failed
    telling := fun failure tell tells => by
      obtain ⟨published, valid⟩ := sound.telling failure tell tells
      exact ⟨published, valid.waiting, valid.stamped,
        fun other rest place => (all other).recorded failure (valid.pushed other rest place)⟩
    failing := sound.failing
    told := fun failure published other member =>
      (sound.told failure published other member).imp_left (all other).told }

/-! ## The place of the reaper -/

theorem Tells.of_setReaper {reaper : Reaper} {failure : ThreadFailure} {tell : Telling}
    (tells : (world.setReaper reaper).Tells failure tell)
    (silent : reaper ≠ .telling failure tell) : world.Tells failure tell :=
  .inr (tells.resolve_left silent)

/-- The reaper goes on, with the same entry in its hands. -/
theorem setReaper_sound {reaper : Reaper} (sound : world.Sound)
    (held : reaper.held = world.reaper.held) (uncounted : reaper.uncounted = world.reaper.uncounted)
    (before : world.reaper.over = false) (after : reaper.over = false)
    (ready : ∀ id, reaper.ready = some id → (world.runtimes id).Confirmed)
    (publishing : ∀ id phase, reaper = .publishing id phase →
      (world.runtimes id).stage = .released) : (world.setReaper reaper).Sound where
  occupied := by
    simp only [setReaper, held, uncounted]
    exact sound.occupied
  bounded := sound.bounded
  exact := sound.exact
  nodup := sound.nodup
  listed := sound.listed
  claimed id := by
    simp only [setReaper, held]
    exact sound.claimed id
  dropped id := by
    simp only [setReaper, uncounted]
    exact sound.dropped id
  unshared := sound.unshared
  known := sound.known
  fresh := sound.fresh
  unused := sound.unused
  phases := sound.phases
  proofs := sound.proofs
  ready := ready
  publishing := publishing
  retained := sound.retained
  failed := by
    simp only [setReaper, after, ← before]
    exact sound.failed
  telling failure tell tells := by
    have silent : reaper ≠ .telling failure tell := by
      rintro rfl
      cases after
    obtain ⟨published, valid⟩ := sound.telling failure tell (tells.of_setReaper silent)
    exact ⟨published, valid.waiting, valid.stamped, valid.pushed⟩
  failing := sound.failing
  told failure published := by
    have failed := sound.failed
    simp only [setReaper] at published
    rw [published, before] at failed
    cases failed

/-- A reaper that has published a failure goes on to tell it. -/
theorem setReaper_over {reaper : Reaper} (sound : world.Sound)
    (before : world.reaper.over = true) (after : reaper.over = true)
    (telling : ∀ failure tell, reaper = .telling failure tell →
      world.slots.failure = some failure ∧ tell.Sound failure world)
    (covers : ∀ failure tell, world.reaper = .telling failure tell → ∀ id ∈ tell.waiting,
      (world.runtimes id).Told failure ∨
        ∃ tell', reaper = .telling failure tell' ∧ id ∈ tell'.waiting) :
    (world.setReaper reaper).Sound := by
  have idle {reaper : Reaper} (ended : reaper.over = true) :
      reaper.held = none ∧ reaper.uncounted = none ∧ reaper.ready = none := by
    cases reaper <;> simp_all [Reaper.over, Reaper.held, Reaper.uncounted, Reaper.ready]
  obtain ⟨held, uncounted, -⟩ := idle before
  obtain ⟨held', uncounted', ready'⟩ := idle after
  exact { sound with
    occupied := by
      show world.slots.occupied = world.slots.entries.length + reaper.held.toList.length +
        world.permits + reaper.uncounted.toList.length
      rw [held', uncounted', sound.occupied, held, uncounted]
    claimed := fun id => by simpa only [setReaper, held, held'] using sound.claimed id
    dropped := fun id => by simpa only [setReaper, uncounted, uncounted'] using sound.dropped id
    ready := fun id found => by simp [setReaper, ready'] at found
    publishing := fun id phase place => by
      simp only [setReaper] at place
      simp [place, Reaper.over] at after
    failed := by
      simp only [setReaper, after, ← before]
      exact sound.failed
    telling := fun failure tell tells => by
      rcases tells with place | tells
      · obtain ⟨published, valid⟩ := telling failure tell place
        exact ⟨published, valid.waiting, valid.stamped, valid.pushed⟩
      · obtain ⟨published, valid⟩ := sound.telling failure tell (.inr tells)
        exact ⟨published, valid.waiting, valid.stamped, valid.pushed⟩
    told := fun failure published id member => by
      rcases sound.told failure published id member with told | ⟨tell, place | tells, waiting⟩
      · exact .inl told
      · rcases covers failure tell place id waiting with told | ⟨tell', place', waiting'⟩
        · exact .inl told
        · exact .inr ⟨tell', .inl place', waiting'⟩
      · exact .inr ⟨tell, .inr tells, waiting⟩ }

/-! ## The place of a start -/

theorem setPlace_split {index : Nat} {start : Start} (found : world.starts[index]? = some start)
    (place : Place) : ∃ front back, world.starts = front ++ start :: back ∧
      (world.setPlace index place).starts = front ++ { start with place } :: back := by
  obtain ⟨inside, value⟩ := List.getElem?_eq_some_iff.mp found
  obtain ⟨front, entry, back, split, length, changed⟩ :=
    List.exists_of_modify (fun start : Start => { start with place }) inside
  have equal : entry = start := by
    simp only [split, ← length, List.getElem_append_right (Nat.le_refl _), Nat.sub_self,
      List.getElem_cons_zero] at value
    exact value
  subst equal
  exact ⟨front, back, split, changed⟩

theorem permits_setPlace {index : Nat} {start : Start}
    (found : world.starts[index]? = some start) (place : Place) :
    (world.setPlace index place).permits + (if start.place.permit then 1 else 0) =
      world.permits + if place.permit then 1 else 0 := by
  obtain ⟨front, back, before, after⟩ := setPlace_split found place
  simp only [permits, before, after, List.countP_append, List.countP_cons]
  omega

theorem mem_setPlace {index : Nat} {start other : Start}
    (found : world.starts[index]? = some start) {place : Place}
    (member : other ∈ (world.setPlace index place).starts) :
    other = { start with place } ∨ other ∈ world.starts := by
  obtain ⟨front, back, before, after⟩ := setPlace_split found place
  rw [after] at member
  rw [before]
  rcases List.mem_append.mp member with member | member
  · exact .inr (List.mem_append_left _ member)
  · rcases List.mem_cons.mp member with member | member
    · exact .inl member
    · exact .inr (List.mem_append_right _ (List.mem_cons_of_mem _ member))

theorem mem_setPlace_self {index : Nat} {start : Start}
    (found : world.starts[index]? = some start) (place : Place) :
    { start with place } ∈ (world.setPlace index place).starts := by
  obtain ⟨front, back, -, after⟩ := setPlace_split found place
  rw [after]
  exact List.mem_append_right _ List.mem_cons_self

theorem mem_setPlace_of_ne {index : Nat} {start other : Start}
    (found : world.starts[index]? = some start) (place : Place) (member : other ∈ world.starts)
    (different : other ≠ start) : other ∈ (world.setPlace index place).starts := by
  obtain ⟨front, back, before, after⟩ := setPlace_split found place
  rw [before] at member
  rw [after]
  rcases List.mem_append.mp member with member | member
  · exact List.mem_append_left _ member
  · exact List.mem_append_right _
      (List.mem_cons_of_mem _ ((List.mem_cons.mp member).resolve_left different))

theorem unshared_setPlace {index : Nat} {start : Start}
    (found : world.starts[index]? = some start) (place : Place) :
    (world.setPlace index place).starts.map Start.runtime = world.starts.map Start.runtime := by
  obtain ⟨front, back, before, after⟩ := setPlace_split found place
  simp [before, after]

theorem mem_of_found {index : Nat} {start : Start} (found : world.starts[index]? = some start) :
    start ∈ world.starts :=
  List.mem_of_getElem? found

theorem known_setPlace {index : Nat} {start : Start} (sound : world.Sound)
    (found : world.starts[index]? = some start) (place : Place) :
    ∀ other ∈ (world.setPlace index place).starts, other.runtime < world.next := by
  intro other member
  rcases mem_setPlace found member with rfl | member
  · exact sound.known start (mem_of_found found)
  · exact sound.known other member

/-- A start goes on; what it had to tell is told or still before it. -/
theorem setPlace_sound {index : Nat} {start : Start} {place : Place} (sound : world.Sound)
    (found : world.starts[index]? = some start) (permit : place.permit = start.place.permit)
    (pending : place.pending = true → start.place.pending = true)
    (failing : place = .failing → world.slots.failure.isSome)
    (telling : ∀ failure tell installed, place = .telling failure tell installed →
      world.slots.failure = some failure ∧ tell.Sound failure world)
    (covers : ∀ failure tell installed, start.place = .telling failure tell installed →
      ∀ id ∈ tell.waiting, (world.runtimes id).Told failure ∨
        ∃ tell' installed', place = .telling failure tell' installed' ∧ id ∈ tell'.waiting) :
    (world.setPlace index place).Sound := by
  have permits : (world.setPlace index place).permits = world.permits := by
    have changed := permits_setPlace found place
    rw [permit] at changed
    exact Nat.add_right_cancel changed
  exact { sound with
    occupied := by rw [permits]; exact sound.occupied
    unshared := by rw [unshared_setPlace found]; exact sound.unshared
    known := known_setPlace sound found place
    fresh := fun other member waits => by
      rcases mem_setPlace found member with rfl | member
      · exact sound.fresh start (mem_of_found found) (pending waits)
      · exact sound.fresh other member waits
    telling := fun failure tell tells => by
      obtain ⟨published, valid⟩ : world.slots.failure = some failure ∧
          tell.Sound failure world := by
        rcases tells with reaper | ⟨other, member, installed, place'⟩
        · exact sound.telling failure tell (.inl reaper)
        · rcases mem_setPlace found member with rfl | member
          · exact telling failure tell installed place'
          · exact sound.telling failure tell (.inr ⟨other, member, installed, place'⟩)
      exact ⟨published, valid.waiting, valid.stamped, valid.pushed⟩
    failing := fun other member place' => by
      rcases mem_setPlace found member with rfl | member
      · exact failing place'
      · exact sound.failing other member place'
    told := fun failure published id member => by
      rcases sound.told failure published id member with
        told | ⟨tell, reaper | ⟨other, known, installed, place'⟩, waiting⟩
      · exact .inl told
      · exact .inr ⟨tell, .inl reaper, waiting⟩
      · by_cases same : other = start
        · subst same
          rcases covers failure tell installed place' id waiting with
            told | ⟨tell', installed', next, waiting'⟩
          · exact .inl told
          · exact .inr ⟨tell', .inr ⟨_, mem_setPlace_self found place, installed', next⟩, waiting'⟩
        · exact .inr ⟨tell, .inr ⟨other, mem_setPlace_of_ne found place known same, installed,
            place'⟩, waiting⟩ }

/-! ## One section of telling -/

/-- One section of telling keeps the invariant, and tells whom it leaves behind. -/
theorem tell_sound {failure : ThreadFailure} {tell tell' : Telling} {world' : World}
    (sound : world.Sound) (tells : world.Tells failure tell)
    (taken : world.tell failure tell = some (world', tell')) :
    world'.Sound ∧ tell'.Sound failure world' ∧
      (∃ runtimes, world' = { world with runtimes }) ∧
      ∀ id ∈ tell.waiting, (world'.runtimes id).Told failure ∨ id ∈ tell'.waiting := by
  obtain ⟨published, valid⟩ := sound.telling failure tell tells
  cases tell with
  | check rest =>
      cases rest with
      | nil => cases taken
      | cons id rest =>
          have active : (world.runtimes id).shutdownPhase ≠ .complete := by
            intro complete
            have listed := (sound.listed id).mp (valid.waiting id List.mem_cons_self)
            have open' := sound.phases id (by simp [listed])
            simp [complete, ShutdownPhase.terminal] at open'
          simp only [tell, active, ne_eq, not_false_eq_true, if_true, Option.some.injEq,
            Prod.mk.injEq] at taken
          obtain ⟨rfl, rfl⟩ := taken
          exact ⟨sound, ⟨valid.waiting, by simp, by simp⟩, ⟨_, rfl⟩, fun _ => .inr⟩
  | stamp =>
      cases taken
      refine ⟨sound, ⟨valid.waiting, ?_, by simp⟩, ⟨_, rfl⟩, fun _ => .inr⟩
      rintro _ _ _ ⟨⟩
      exact .stamp failure _
  | push stamped id rest =>
      cases taken
      refine ⟨modify_sound sound (Runtime.pushFailure_later _ _) .inl,
        ⟨valid.waiting, by simp, ?_⟩, ⟨_, rfl⟩, fun _ => .inr⟩
      rintro _ _ ⟨⟩
      rw [modify_self]
      exact ⟨stamped, List.mem_append_right _ (List.mem_singleton_self _),
        valid.stamped stamped id rest rfl⟩
  | stop id rest =>
      cases taken
      refine ⟨modify_sound sound (Runtime.requestStop_later _) .inl,
        ⟨fun other member => valid.waiting other (List.mem_cons_of_mem _ member), by simp, by simp⟩,
        ⟨_, rfl⟩, fun other member => ?_⟩
      rcases List.mem_cons.mp member with rfl | member
      · rw [modify_self]
        exact .inl ⟨valid.pushed other rest rfl, rfl⟩
      · exact .inr member

theorem tell_eq_none {failure : ThreadFailure} {tell : Telling}
    (ended : world.tell failure tell = none) : tell.waiting = [] := by
  cases tell with
  | check rest =>
      cases rest with
      | nil => rfl
      | cons =>
          simp only [World.tell] at ended
          split at ended <;> cases ended
  | stamp | push | stop => cases ended

end World

end VThread.Lifecycle
