import VThread.Lifecycle.Invariant

/-!
# Every section keeps the invariant

Entries change hands in the sections of the reaper; starts take and give back permits.
-/

namespace VThread.Lifecycle

open VThread.Lib

namespace World

variable {world : World}

/-- Nothing was published while the reaper still goes on. -/
theorem Sound.quiet (sound : world.Sound) (running : world.reaper.over = false) :
    world.slots.failure = none := by
  have failed := sound.failed
  rw [running] at failed
  simpa using failed

theorem Sound.silent (sound : world.Sound) (quiet : world.slots.failure = none)
    {failure : ThreadFailure} {tell : Telling} : ¬ world.Tells failure tell := by
  intro tells
  have published := (sound.telling failure tell tells).1
  rw [quiet] at published
  cases published

/-! ## The reaper hands an entry on -/

/-- An entry changes hands while no failure is published. -/
theorem transfer_sound {id : Nat} {stage : Stage} {slots : Slots} {reaper : Reaper}
    (sound : world.Sound) (before : world.reaper.over = false) (after : reaper.over = false)
    (failure : slots.failure = world.slots.failure)
    (occupied : slots.occupied = slots.entries.length + reaper.held.toList.length +
      world.permits + reaper.uncounted.toList.length)
    (bounded : slots.occupied ≤ capacity) (nodup : slots.entries.Nodup)
    (owned : (world.runtimes id).stage ≠ .fresh) (active : (world.runtimes id).stage ≠ .released)
    (listed : ∀ other, other ∈ slots.entries ↔
      if other = id then stage = .listed else other ∈ world.slots.entries)
    (claimed : ∀ other, reaper.held = some other ↔
      if other = id then stage = .claimed else world.reaper.held = some other)
    (dropped : ∀ other, reaper.uncounted = some other ↔
      if other = id then stage = .dropped else world.reaper.uncounted = some other)
    (proofs : stage = .dropped ∨ stage = .released → (world.runtimes id).Confirmed)
    (ready : ∀ other, reaper.ready = some other → (world.runtimes other).Confirmed)
    (publishing : ∀ other phase, reaper = .publishing other phase →
      other = id ∧ stage = .released) :
    (((world.setSlots slots).setStage id stage).setReaper reaper).Sound := by
  let next := ((world.setSlots slots).setStage id stage).setReaper reaper
  have self : next.runtimes id = { world.runtimes id with stage } := by
    simp [next, setReaper, setStage, setSlots]
  have others {other : Nat} (different : other ≠ id) :
      next.runtimes other = world.runtimes other := by
    simp [next, setReaper, setStage, setSlots, modify_of_ne different]
  have quiet : next.slots.failure = none := failure.trans (sound.quiet before)
  have unowned {other : Nat} (free : (world.runtimes other).stage = .fresh) : other ≠ id :=
    fun equal => owned (equal ▸ free)
  exact {
    occupied := occupied
    bounded := bounded
    exact := sound.exact
    nodup := nodup
    listed := fun other => by
      by_cases equal : other = id
      · subst equal
        exact (listed other).trans (by rw [if_pos rfl, self])
      · exact (listed other).trans (by rw [if_neg equal, others equal]; exact sound.listed other)
    claimed := fun other => by
      by_cases equal : other = id
      · subst equal
        exact (claimed other).trans (by rw [if_pos rfl, self])
      · exact (claimed other).trans (by rw [if_neg equal, others equal]; exact sound.claimed other)
    dropped := fun other => by
      by_cases equal : other = id
      · subst equal
        exact (dropped other).trans (by rw [if_pos rfl, self])
      · exact (dropped other).trans (by rw [if_neg equal, others equal]; exact sound.dropped other)
    unshared := sound.unshared
    known := sound.known
    fresh := fun start member pending => by
      have free := sound.fresh start member pending
      rw [others (unowned free)]
      exact free
    unused := fun other new => by
      have free := sound.unused other new
      rw [others (unowned free)]
      exact free
    phases := fun other here => by
      by_cases equal : other = id
      · subst equal
        rw [self]
        exact sound.phases other active
      · rw [others equal] at here ⊢
        exact sound.phases other here
    proofs := fun other past => by
      by_cases equal : other = id
      · subst equal
        rw [self] at past ⊢
        exact proofs past
      · rw [others equal] at past ⊢
        exact sound.proofs other past
    ready := fun other found => by
      have confirmed := ready other found
      by_cases equal : other = id
      · subst equal
        rw [self]
        exact confirmed
      · rwa [others equal]
    publishing := fun other phase place => by
      obtain ⟨rfl, released⟩ := publishing other phase place
      rw [self]
      exact released
    retained := fun other => by
      by_cases equal : other = id
      · subst equal
        rw [self]
        exact sound.retained other
      · rw [others equal]
        exact sound.retained other
    failed := by
      rw [quiet]
      exact after.symm
    telling := fun failure tell tells => by
      have silent : reaper ≠ .telling failure tell := by
        rintro rfl
        cases after
      exact absurd (tells.resolve_left silent) fun tells =>
        sound.silent (sound.quiet before) (.inr tells)
    failing := fun start member place => by
      have some' := sound.failing start member place
      rw [sound.quiet before] at some'
      cases some'
    told := fun failure published => by
      rw [quiet] at published
      cases published }

theorem claim_sound (sound : world.Sound) (scanning : world.reaper = .scanning) :
    world.claim.Sound := by
  have waiting : (world.setReaper .waiting).Sound :=
    setReaper_sound sound (by rw [scanning]; rfl) (by rw [scanning]; rfl) (by rw [scanning]; rfl)
      rfl (fun _ found => by cases found) (fun _ _ place => by cases place)
  unfold claim
  split
  · exact waiting
  · split
    · exact waiting
    · rename_i index found id rest removed
      obtain ⟨front, back, split, -, perm, -⟩ := swapRemove_cases removed
      have whole : world.slots.entries.Perm (id :: rest) := by
        rw [split]
        exact List.perm_middle.trans (perm.symm.cons id)
      have nodup := whole.nodup_iff.mp sound.nodup
      have listed : (world.runtimes id).stage = .listed :=
        (sound.listed id).mp (whole.mem_iff.mpr List.mem_cons_self)
      have occupied := sound.occupied
      rw [scanning, whole.length_eq] at occupied
      refine transfer_sound sound (by rw [scanning]; rfl) rfl rfl ?_ sound.bounded
        (List.nodup_cons.mp nodup).2 (by simp [listed]) (by simp [listed]) (fun other => ?_)
        (fun other => ?_) (fun other => ?_) (by simp) (fun _ found => by cases found)
        (fun _ _ place => by cases place)
      · simp only [Reaper.held, Reaper.uncounted, Option.toList_none, Option.toList_some,
          List.length_nil, List.length_cons] at occupied ⊢
        omega
      · split
        · rename_i equal
          subst equal
          simpa using (List.nodup_cons.mp nodup).1
        · rename_i different
          rw [whole.mem_iff, List.mem_cons, or_iff_right different]
      · simp only [Reaper.held, Option.some.injEq, scanning]
        split
        · rename_i equal
          simp [equal]
        · rename_i different
          simp [Ne.symm different]
      · simp only [Reaper.uncounted, scanning]
        split <;> simp

/-- The entry in the hands of the reaper. -/
theorem Sound.stage_held (sound : world.Sound) {id : Nat} (held : world.reaper.held = some id) :
    (world.runtimes id).stage = .claimed :=
  (sound.claimed id).mp held

/-- An entry goes back to the table. -/
theorem restore_sound {id : Nat} {failure : ThreadFailure} (sound : world.Sound)
    (place : world.reaper = .restoring id failure) :
    (((world.setSlots (world.slots.push id)).setStage id .listed).setReaper
      (.failing failure)).Sound := by
  have claimed : (world.runtimes id).stage = .claimed :=
    sound.stage_held (by rw [place]; rfl)
  have absent : id ∉ world.slots.entries := fun member => by
    rw [sound.listed, claimed] at member
    cases member
  have occupied := sound.occupied
  rw [place] at occupied
  refine transfer_sound sound (by rw [place]; rfl) rfl rfl ?_ sound.bounded ?_ (by simp [claimed])
    (by simp [claimed]) (fun other => ?_) (fun other => ?_) (fun other => ?_) (by simp)
    (fun _ found => by cases found) (fun _ _ place => by cases place)
  · simp only [Reaper.held, Reaper.uncounted, Slots.push, Option.toList_none, Option.toList_some,
      List.length_nil, List.length_singleton, List.length_append] at occupied ⊢
    omega
  · simpa [Slots.push, List.nodup_append] using ⟨sound.nodup, fun other member equal =>
      absent (equal ▸ member)⟩
  · simp only [Slots.push, List.mem_append, List.mem_singleton]
    split <;> simp_all
  · simp only [Reaper.held, place]
    split
    · simp_all
    · rename_i different
      simp [Ne.symm different]
  · simp only [Reaper.uncounted, place]
    split <;> simp

/-- The entry is dropped. -/
theorem drop_sound {id : Nat} {phase : ShutdownPhase} (sound : world.Sound)
    (place : world.reaper = .dropping id phase) :
    ((world.setStage id .dropped).setReaper (.counting id phase)).Sound := by
  have claimed : (world.runtimes id).stage = .claimed :=
    sound.stage_held (by rw [place]; rfl)
  have absent : id ∉ world.slots.entries := fun member => by
    rw [sound.listed, claimed] at member
    cases member
  have occupied := sound.occupied
  rw [place] at occupied
  refine @transfer_sound world id _ world.slots _ sound (by rw [place]; rfl) rfl rfl ?_
    sound.bounded sound.nodup (by simp [claimed]) (by simp [claimed]) (fun other => ?_)
    (fun other => ?_) (fun other => ?_) (fun _ => sound.ready id (by rw [place]; rfl))
    (fun _ found => by cases found) (fun _ _ place => by cases place)
  · simpa only [Reaper.held, Reaper.uncounted, Option.toList_none, Option.toList_some,
      List.length_nil, List.length_singleton, Nat.add_zero, Nat.add_right_comm] using occupied
  · split <;> simp_all
  · simp only [Reaper.held, place]
    split
    · simp_all
    · rename_i different
      simp [Ne.symm different]
  · simp only [Reaper.uncounted, place]
    split
    · simp_all
    · rename_i different
      simp [Ne.symm different]

/-- The slot of a dropped entry is released. -/
theorem count_sound {id : Nat} {phase : ShutdownPhase} (sound : world.Sound)
    (place : world.reaper = .counting id phase) :
    ((world.release.setStage id .released).setReaper (.publishing id phase)).Sound := by
  have dropped : (world.runtimes id).stage = .dropped :=
    (sound.dropped id).mp (by rw [place]; rfl)
  have absent : id ∉ world.slots.entries := fun member => by
    rw [sound.listed, dropped] at member
    cases member
  have occupied := sound.occupied
  have bounded := sound.bounded
  simp only [place, Reaper.held, Reaper.uncounted, Option.toList_none, Option.toList_some,
    List.length_nil, List.length_singleton] at occupied
  have released : world.slots.release =
      .ok { world.slots with occupied := world.slots.occupied - 1 } := by
    rw [Slots.release, ensure_of (by omega)]
    rfl
  simp only [release, released]
  refine transfer_sound sound (by rw [place]; rfl) rfl rfl ?_ ?_ sound.nodup (by simp [dropped])
    (by simp [dropped]) (fun other => ?_) (fun other => ?_) (fun other => ?_)
    (fun _ => sound.proofs id (.inl dropped)) (fun _ found => by cases found) ?_
  · simp only [Reaper.held, Reaper.uncounted, Option.toList_none, List.length_nil]
    omega
  · dsimp only
    omega
  · split <;> simp_all
  · simp only [Reaper.held, place]
    split <;> simp
  · simp only [Reaper.uncounted, place]
    split
    · simp_all
    · rename_i different
      simp [Ne.symm different]
  · rintro other _ ⟨⟩
    exact ⟨rfl, rfl⟩

/-- The reaper publishes its failure, and finds every entry of the table. -/
theorem publish_sound {failure : ThreadFailure} (sound : world.Sound)
    (place : world.reaper = .failing failure) :
    ((world.setSlots { world.slots with failure := some failure }).setReaper
      (.telling failure (.check world.slots.entries))).Sound := by
  have quiet := sound.quiet (by rw [place]; rfl)
  exact { sound with
    occupied := by
      have occupied := sound.occupied
      rw [place] at occupied
      exact occupied
    claimed := fun id => by
      have claimed := sound.claimed id
      rw [place] at claimed
      exact claimed
    dropped := fun id => by
      have dropped := sound.dropped id
      rw [place] at dropped
      exact dropped
    ready := fun _ found => by cases found
    publishing := fun _ _ place => by cases place
    failed := rfl
    telling := fun other tell tells => by
      rcases tells with reaper | tells
      · cases reaper
        exact ⟨rfl, fun _ member => member, by simp, by simp⟩
      · exact absurd (.inr tells) (sound.silent quiet)
    failing := fun _ _ _ => rfl
    told := fun other published id member => by
      cases published
      exact .inr ⟨_, .inl rfl, member⟩ }

/-- The reaper changes the runtime in its hands and goes on. -/
theorem modify_setReaper {id : Nat} {change : Runtime → Runtime} {reaper : Reaper}
    (sound : world.Sound) (holds : world.reaper.held = some id)
    (later : (world.runtimes id).Later (change (world.runtimes id)))
    (unready : world.reaper.ready = none) (held : reaper.held = some id)
    (uncounted : reaper.uncounted = world.reaper.uncounted) (before : world.reaper.over = false)
    (after : reaper.over = false)
    (ready : ∀ other, reaper.ready = some other → other = id ∧
      (change (world.runtimes id)).Confirmed)
    (publishing : ∀ other phase, reaper ≠ .publishing other phase) :
    ((world.modify id change).setReaper reaper).Sound := by
  have changed : (world.modify id change).Sound :=
    modify_sound sound later fun _ => .inr ⟨sound.stage_held holds, unready⟩
  refine setReaper_sound changed (held.trans holds.symm) uncounted before after
    (fun other found => ?_) fun other phase place => absurd place (publishing other phase)
  obtain ⟨rfl, confirmed⟩ := ready other found
  rw [modify_self]
  exact confirmed

theorem checked_sound {id : Nat} (sound : world.Sound) (place : world.reaper = .checking id)
    (drained : (world.runtimes id).resources.drained (world.runtimes id).worker.isJoined = true) :
    ((world.modify id fun runtime => { runtime with
      confirmed := some runtime.resources }).setReaper (.naming id)).Sound := by
  have joined := CoordinatorResources.joined_of_drained drained
  refine modify_setReaper sound (by rw [place]; rfl) (Runtime.later_of_eq rfl rfl rfl rfl rfl)
    (by rw [place]; rfl) rfl (by rw [place]; rfl) (by rw [place]; rfl) rfl (fun other found => ?_)
    (fun _ _ place => by cases place)
  cases found
  rw [joined] at drained
  exact ⟨rfl, by simpa [JoinSlot.isJoined] using joined, _, rfl, drained⟩

theorem terminal_sound {id : Nat} {phase : ShutdownPhase} (sound : world.Sound)
    (place : world.reaper = .publishing id phase) :
    ((world.modify id (.advanceShutdown phase)).setReaper .scanning).Sound := by
  have released := sound.publishing id phase place
  have changed : (world.modify id (.advanceShutdown phase)).Sound :=
    modify_sound sound ⟨rfl, fun _ stored => stored, fun aborted => aborted,
      fun active => absurd released active, fun retained => retained⟩ .inl
  exact setReaper_sound changed (show _ = world.reaper.held by rw [place]; rfl)
    (show _ = world.reaper.uncounted by rw [place]; rfl)
    (show world.reaper.over = false by rw [place]; rfl) rfl (fun _ found => by cases found)
    (fun _ _ place => by cases place)

/-- The reaper tells a runtime, or ends. -/
theorem reaperTells_sound {failure : ThreadFailure} {tell : Telling} (sound : world.Sound)
    (place : world.reaper = .telling failure tell) :
    (match world.tell failure tell with
      | none => world.setReaper .finished
      | some (world, tell) => world.setReaper (.telling failure tell)).Sound := by
  split
  · rename_i ended
    refine setReaper_over sound (by rw [place]; rfl) rfl (fun _ _ place => by cases place) ?_
    intro other tell' equal id waiting
    rw [place] at equal
    cases equal
    rw [tell_eq_none ended] at waiting
    cases waiting
  · rename_i world' tell' taken
    obtain ⟨sound', valid, ⟨runtimes, rfl⟩, covers⟩ := tell_sound sound (.inl place) taken
    have published := (sound.telling failure tell (.inl place)).1
    refine setReaper_over sound' (show world.reaper.over = true by rw [place]; rfl) rfl ?_ ?_
    · rintro _ _ ⟨⟩
      exact ⟨published, valid⟩
    · intro other tell'' equal id waiting
      rw [show world.reaper = _ from place] at equal
      cases equal
      exact (covers id waiting).imp_right fun waiting => ⟨tell', rfl, waiting⟩

theorem reap_sound {world' : World} (sound : world.Sound) (taken : world.reap = some world') :
    world'.Sound := by
  unfold reap at taken
  split at taken
  case h_1 => cases taken
  case h_2 place =>
    cases taken
    exact claim_sound sound place
  case h_3 place =>
    cases taken
    exact setReaper_sound sound (by rw [place]; rfl) (by rw [place]; rfl) (by rw [place]; rfl) rfl
      (fun _ found => by cases found) (fun _ _ place => by cases place)
  case h_4 id place =>
    split at taken
    · cases taken
      exact modify_setReaper sound (by rw [place]; rfl)
        (Runtime.later_of_eq rfl rfl rfl rfl rfl) (by rw [place]; rfl) rfl (by rw [place]; rfl)
        (by rw [place]; rfl) rfl (fun _ found => by cases found) (fun _ _ place => by cases place)
    · cases taken
      exact setReaper_sound sound (by rw [place]; rfl) (by rw [place]; rfl) (by rw [place]; rfl)
        rfl (fun _ found => by cases found) (fun _ _ place => by cases place)
  case h_5 id place =>
    split at taken
    · cases taken
      exact modify_setReaper sound (by rw [place]; rfl)
        (Runtime.later_of_eq rfl rfl rfl rfl rfl) (by rw [place]; rfl) rfl (by rw [place]; rfl)
        (by rw [place]; rfl) rfl (fun _ found => by cases found) (fun _ _ place => by cases place)
    · cases taken
  case h_6 id place =>
    split at taken
    · cases taken
      exact setReaper_sound sound (by rw [place]; rfl) (by rw [place]; rfl) (by rw [place]; rfl)
        rfl (fun _ found => by cases found) (fun _ _ place => by cases place)
    · cases taken
      exact modify_setReaper sound (by rw [place]; rfl) (Runtime.joinedCleanly_later _ _ _)
        (by rw [place]; rfl) rfl (by rw [place]; rfl) (by rw [place]; rfl) rfl
        (fun _ found => by cases found) (fun _ _ place => by cases place)
  case h_7 stamped id place =>
    cases taken
    exact modify_setReaper sound (by rw [place]; rfl) (Runtime.pushFailure_later _ _)
      (by rw [place]; rfl) rfl (by rw [place]; rfl) (by rw [place]; rfl) rfl
      (fun _ found => by cases found) (fun _ _ place => by cases place)
  case h_8 id place =>
    dsimp only at taken
    split at taken
    · rename_i drained
      cases taken
      exact checked_sound sound place drained
    · cases taken
      exact setReaper_sound sound (by rw [place]; rfl) (by rw [place]; rfl) (by rw [place]; rfl)
        rfl (fun _ found => by cases found) (fun _ _ place => by cases place)
  case h_9 id place =>
    cases taken
    exact setReaper_sound sound (by rw [place]; rfl) (by rw [place]; rfl) (by rw [place]; rfl) rfl
      (fun other found => sound.ready other (by rw [place]; exact found))
      (fun _ _ place => by cases place)
  case h_10 id phase place =>
    cases taken
    exact drop_sound sound place
  case h_11 id phase place =>
    cases taken
    exact count_sound sound place
  case h_12 id phase place =>
    cases taken
    exact terminal_sound sound place
  case h_13 id failure place =>
    cases taken
    exact restore_sound sound place
  case h_14 failure place =>
    have quiet := sound.quiet (by rw [place]; rfl)
    simp only [Slots.fail, quiet, Option.isSome_none, Bool.false_eq_true, if_false] at taken
    cases taken
    exact publish_sound sound place
  case h_15 failure tell place =>
    have told := reaperTells_sound sound place
    split at taken
    · rename_i ended
      cases taken
      simpa only [ended] using told
    · rename_i told' next
      cases taken
      simpa only [next] using told
  case h_16 => cases taken

theorem reaperPanics_sound {report : PanicReport} {world' : World} (sound : world.Sound)
    (taken : world.reaperPanics report = some world') : world'.Sound := by
  unfold reaperPanics at taken
  have onward {reaper : Reaper} (held : reaper.held = world.reaper.held)
      (uncounted : reaper.uncounted = world.reaper.uncounted) (before : world.reaper.over = false)
      (after : reaper.over = false) (unready : reaper.ready = none)
      (publishing : ∀ id phase, reaper ≠ .publishing id phase) :
      (world.setReaper reaper).Sound :=
    setReaper_sound sound held uncounted before after
      (fun id found => by rw [unready] at found; cases found)
      fun id phase place => absurd place (publishing id phase)
  cases place : world.reaper with
  | joining id =>
      simp only [place] at taken
      cases taken
      exact modify_setReaper sound (by rw [place]; rfl)
        (Runtime.later_of_eq rfl rfl rfl rfl rfl) (by rw [place]; rfl) rfl (by rw [place]; rfl)
        (by rw [place]; rfl) rfl (fun _ found => by cases found) (fun _ _ place => by cases place)
  | scanning | waiting | claimed | reporting | recording | checking | naming | dropping =>
      simp only [place] at taken
      cases taken
      exact onward (by rw [place]; rfl) (by rw [place]; rfl) (by rw [place]; rfl) rfl rfl
        (fun _ _ place => by cases place)
  | absent | counting | publishing | restoring | failing | telling | finished =>
      simp [place] at taken

/-! ## Starts -/

theorem begin_sound (sound : world.Sound) : world.begin.Sound :=
  { sound with
    occupied := by simpa [begin, permits, List.countP_append, Place.permit] using sound.occupied
    unshared := by
      simp only [begin, List.map_append, List.map_cons, List.map_nil, List.nodup_append]
      refine ⟨sound.unshared, by simp, fun id member other last => ?_⟩
      obtain ⟨start, known, rfl⟩ := List.mem_map.mp member
      rw [List.mem_singleton.mp last]
      exact Nat.ne_of_lt (sound.known start known)
    known := fun start member => by
      rcases List.mem_append.mp member with member | member
      · exact Nat.lt_succ_of_lt (sound.known start member)
      · rw [List.mem_singleton.mp member]
        exact Nat.lt_succ_self _
    fresh := fun start member pending => by
      rcases List.mem_append.mp member with member | member
      · exact sound.fresh start member pending
      · rw [List.mem_singleton.mp member]
        exact sound.unused world.next (Nat.le_refl _)
    unused := fun id new => sound.unused id (Nat.le_of_succ_le new)
    telling := fun failure tell tells => by
      have before : world.Tells failure tell := by
        rcases tells with reaper | ⟨start, member, installed, place⟩
        · exact .inl reaper
        · rcases List.mem_append.mp member with member | member
          · exact .inr ⟨start, member, installed, place⟩
          · rw [List.mem_singleton.mp member] at place
            cases place
      obtain ⟨published, valid⟩ := sound.telling failure tell before
      exact ⟨published, valid.waiting, valid.stamped, valid.pushed⟩
    failing := fun start member place => by
      rcases List.mem_append.mp member with member | member
      · exact sound.failing start member place
      · rw [List.mem_singleton.mp member] at place
        cases place
    told := fun failure published id member => by
      refine (sound.told failure published id member).imp_right ?_
      rintro ⟨tell, tells, waiting⟩
      refine ⟨tell, tells.imp_right ?_, waiting⟩
      rintro ⟨start, known, place⟩
      exact ⟨start, List.mem_append_left _ known, place⟩ }

/-- The owner is created, and its thread begins. -/
theorem create_sound (sound : world.Sound) (absent : world.reaper = .absent) :
    (world.setReaper .scanning).Sound :=
  setReaper_sound sound (by rw [absent]; rfl) (by rw [absent]; rfl) (by rw [absent]; rfl) rfl
    (fun _ found => by cases found) (fun _ _ place => by cases place)

variable {index : Nat} {start : Start}

/-- A start goes on silently. -/
theorem setPlace_quiet {place : Place} (sound : world.Sound)
    (found : world.starts[index]? = some start) (permit : place.permit = start.place.permit)
    (pending : place.pending = true → start.place.pending = true)
    (failing : place = .failing → world.slots.failure.isSome)
    (before : ∀ failure tell installed, start.place ≠ .telling failure tell installed)
    (after : ∀ failure tell installed, place ≠ .telling failure tell installed) :
    (world.setPlace index place).Sound :=
  setPlace_sound sound found permit pending failing
    (fun failure tell installed equal => absurd equal (after failure tell installed))
    fun failure tell installed equal => absurd equal (before failure tell installed)

/-- A permit is taken or given back; the count follows. -/
theorem count_setPlace {place : Place} {occupied : Nat} (sound : world.Sound)
    (found : world.starts[index]? = some start)
    (follows : occupied + (if start.place.permit then 1 else 0) =
      world.slots.occupied + if place.permit then 1 else 0) (bounded : occupied ≤ capacity)
    (pending : place.pending = true → start.place.pending = true) (failing : place ≠ .failing)
    (before : ∀ failure tell installed, start.place ≠ .telling failure tell installed)
    (after : ∀ failure tell installed, place ≠ .telling failure tell installed) :
    ((world.setSlots { world.slots with occupied }).setPlace index place).Sound := by
  have permits := permits_setPlace found place
  have counted := sound.occupied
  exact { sound with
    occupied := by
      show occupied = world.slots.entries.length + world.reaper.held.toList.length +
        (world.setPlace index place).permits + world.reaper.uncounted.toList.length
      omega
    bounded := bounded
    unshared := by
      have same := unshared_setPlace found place
      exact (congrArg List.Nodup same).mpr sound.unshared
    known := known_setPlace sound found place
    fresh := fun other member waits => by
      rcases mem_setPlace found member with rfl | member
      · exact sound.fresh start (mem_of_found found) (pending waits)
      · exact sound.fresh other member waits
    telling := fun failure tell tells => by
      have earlier : world.Tells failure tell := by
        rcases tells with reaper | ⟨other, member, installed, equal⟩
        · exact .inl reaper
        · rcases mem_setPlace found member with rfl | member
          · exact absurd equal (after failure tell installed)
          · exact .inr ⟨other, member, installed, equal⟩
      obtain ⟨published, valid⟩ := sound.telling failure tell earlier
      exact ⟨published, valid.waiting, valid.stamped, valid.pushed⟩
    failing := fun other member equal => by
      rcases mem_setPlace found member with rfl | member
      · exact absurd equal failing
      · exact sound.failing other member equal
    told := fun failure published id member => by
      refine (sound.told failure published id member).imp_right fun ⟨tell, tells, waiting⟩ =>
        ⟨tell, tells.imp_right fun ⟨other, known, installed, equal⟩ => ?_, waiting⟩
      have different : other ≠ start := by
        rintro rfl
        exact before failure tell installed equal
      exact ⟨other, mem_setPlace_of_ne found place known different, installed, equal⟩ }

theorem reserve_sound (sound : world.Sound) (found : world.starts[index]? = some start)
    (place : start.place = .reserving) {slots : Slots}
    (reserved : world.slots.reserve = .ok slots) :
    ((world.setSlots slots).setPlace index .spawning).Sound := by
  unfold Slots.reserve at reserved
  split at reserved
  · cases reserved
  · split at reserved
    · cases reserved
    · rename_i room
      cases reserved
      exact count_setPlace sound found (by simp [place, Place.permit]) (by omega)
        (fun _ => by rw [place]; rfl) (by simp) (by simp [place]) (by simp)

theorem unreserve_sound (sound : world.Sound) (found : world.starts[index]? = some start)
    (place : start.place = .dropping) (result : Except StartError Unit) :
    (world.release.setPlace index (.done result)).Sound := by
  have permit : 0 < world.permits :=
    List.countP_pos_iff.mpr ⟨start, mem_of_found found, by rw [place]; rfl⟩
  have counted := sound.occupied
  have bounded := sound.bounded
  have released : world.slots.release =
      .ok { world.slots with occupied := world.slots.occupied - 1 } := by
    rw [Slots.release, ensure_of (by omega)]
    rfl
  simp only [release, released]
  exact count_setPlace sound found (by simp [place, Place.permit]; omega) (by omega)
    (fun waits => by cases waits) (by simp) (by simp [place]) (by simp)

/-- The other starts have other runtimes. -/
theorem mem_setPlace_other {place : Place} {other : Start} (sound : world.Sound)
    (found : world.starts[index]? = some start)
    (member : other ∈ (world.setPlace index place).starts) :
    other = { start with place } ∨ other ∈ world.starts ∧ other.runtime ≠ start.runtime := by
  obtain ⟨front, back, before, after⟩ := setPlace_split found place
  have unshared := sound.unshared
  rw [before, List.map_append, List.map_cons, List.perm_middle.nodup_iff] at unshared
  have alone := (List.nodup_cons.mp unshared).1
  rw [after] at member
  rcases List.mem_append.mp member with member | member
  · refine .inr ⟨by simp [before, member], fun equal => alone ?_⟩
    exact List.mem_append_left _ (List.mem_map.mpr ⟨other, member, equal⟩)
  · rcases List.mem_cons.mp member with member | member
    · exact .inl member
    · refine .inr ⟨by simp [before, member], fun equal => alone ?_⟩
      exact List.mem_append_right _ (List.mem_map.mpr ⟨other, member, equal⟩)

/-- An entry is installed; if a failure was published, this start tells it. -/
theorem install_sound {place : Place} (sound : world.Sound)
    (found : world.starts[index]? = some start) (installing : start.place = .installing)
    (permit : place.permit = false) (waits : place.pending = false)
    (after : ∀ failure tell installed, place = .telling failure tell installed →
      world.slots.failure = some failure ∧ tell = .check [start.runtime])
    (tells : ∀ failure, world.slots.failure = some failure →
      place = .telling failure (.check [start.runtime]) true) :
    (((world.setSlots (world.slots.push start.runtime)).setStage start.runtime .listed).setPlace
      index place).Sound := by
  have free : (world.runtimes start.runtime).stage = .fresh :=
    sound.fresh start (mem_of_found found) (by rw [installing]; rfl)
  let next := ((world.setSlots (world.slots.push start.runtime)).setStage start.runtime
    .listed).setPlace index place
  have self : next.runtimes start.runtime =
      { world.runtimes start.runtime with stage := .listed } := by
    simp [next, setPlace, setStage, setSlots]
  have others {other : Nat} (different : other ≠ start.runtime) :
      next.runtimes other = world.runtimes other := by
    simp [next, setPlace, setStage, setSlots, modify_of_ne different]
  have entries : next.slots.entries = world.slots.entries ++ [start.runtime] := rfl
  have absent : start.runtime ∉ world.slots.entries := fun member => by
    rw [sound.listed, free] at member
    cases member
  have permits : next.permits + 1 = world.permits := by
    have changed := permits_setPlace found place
    rw [permit, installing] at changed
    exact changed
  -- a runtime keeps everything but its stage
  have kept (other : Nat) : (next.runtimes other).shutdownPhase =
      (world.runtimes other).shutdownPhase ∧ ((world.runtimes other).Confirmed →
        (next.runtimes other).Confirmed) ∧ (next.runtimes other).failures =
          (world.runtimes other).failures ∧ (next.runtimes other).recorded =
            (world.runtimes other).recorded ∧ (next.runtimes other).abortRequested =
              (world.runtimes other).abortRequested := by
    by_cases equal : other = start.runtime
    · subst equal
      rw [self]
      exact ⟨rfl, fun confirmed => confirmed, rfl, rfl, rfl⟩
    · rw [others equal]
      exact ⟨rfl, fun confirmed => confirmed, rfl, rfl, rfl⟩
  have toldKept {failure : ThreadFailure} {other : Nat}
      (told : (world.runtimes other).Told failure) : (next.runtimes other).Told failure := by
    obtain ⟨-, -, -, recorded, aborted⟩ := kept other
    exact ⟨by rw [Runtime.Recorded, recorded]; exact told.1, by rw [aborted]; exact told.2⟩
  exact {
    occupied := by
      have counted := sound.occupied
      show world.slots.occupied = (world.slots.entries ++ [start.runtime]).length +
        world.reaper.held.toList.length + next.permits + world.reaper.uncounted.toList.length
      rw [List.length_append, List.length_singleton]
      omega
    bounded := sound.bounded
    exact := sound.exact
    nodup := by
      rw [entries]
      simpa [List.nodup_append] using ⟨sound.nodup, fun other member equal =>
        absent (equal ▸ member)⟩
    listed := fun other => by
      rw [entries, List.mem_append, List.mem_singleton]
      by_cases equal : other = start.runtime
      · subst equal
        rw [self]
        simp
      · rw [others equal, or_iff_left equal]
        exact sound.listed other
    claimed := fun other => by
      by_cases equal : other = start.runtime
      · subst equal
        have unheld := sound.claimed start.runtime
        rw [free] at unheld
        rw [self]
        exact unheld.trans (by simp)
      · rw [others equal]
        exact sound.claimed other
    dropped := fun other => by
      by_cases equal : other = start.runtime
      · subst equal
        have counted := sound.dropped start.runtime
        rw [free] at counted
        rw [self]
        exact counted.trans (by simp)
      · rw [others equal]
        exact sound.dropped other
    unshared := by
      have same := unshared_setPlace found place
      exact (congrArg List.Nodup same).mpr sound.unshared
    known := known_setPlace sound found place
    fresh := fun other member pending => by
      rcases mem_setPlace_other sound found member with rfl | ⟨member, different⟩
      · rw [show (place.pending = true) = (false = true) by rw [waits]] at pending
        cases pending
      · rw [others different]
        exact sound.fresh other member pending
    unused := fun other new => by
      have different : other ≠ start.runtime :=
        Nat.ne_of_gt (Nat.lt_of_lt_of_le (sound.known start (mem_of_found found)) new)
      rw [others different]
      exact sound.unused other new
    phases := fun other here => by
      rw [(kept other).1]
      by_cases equal : other = start.runtime
      · subst equal
        exact sound.phases _ (by simp [free])
      · rw [others equal] at here
        exact sound.phases other here
    proofs := fun other past => by
      by_cases equal : other = start.runtime
      · subst equal
        rw [self] at past
        simp at past
      · rw [others equal] at past ⊢
        exact sound.proofs other past
    ready := fun other held => (kept other).2.1 (sound.ready other held)
    publishing := fun other phase place => by
      have released := sound.publishing other phase place
      have different : other ≠ start.runtime := by
        rintro rfl
        rw [free] at released
        cases released
      rw [others different]
      exact released
    retained := fun other => by
      obtain ⟨-, -, failures, recorded, -⟩ := kept other
      rw [failures, recorded]
      exact sound.retained other
    failed := sound.failed
    telling := fun failure tell telling => by
      have earlier (before : world.Tells failure tell) : world.slots.failure = some failure ∧
          tell.Sound failure next := by
        obtain ⟨published, valid⟩ := sound.telling failure tell before
        refine ⟨published, fun id member => ?_, valid.stamped, fun id rest equal => ?_⟩
        · exact List.mem_append_left _ (valid.waiting id member)
        · rw [Runtime.Recorded, (kept id).2.2.2.1]
          exact valid.pushed id rest equal
      rcases telling with reaper | ⟨other, member, installed, equal⟩
      · exact earlier (.inl reaper)
      · rcases mem_setPlace found member with rfl | member
        · obtain ⟨published, rfl⟩ := after failure tell installed equal
          exact ⟨published, fun id member => List.mem_append_right _ member, by simp, by simp⟩
        · exact earlier (.inr ⟨other, member, installed, equal⟩)
    failing := fun other member equal => by
      rcases mem_setPlace found member with rfl | member
      · rw [show place = .failing from equal] at waits
        cases waits
      · exact sound.failing other member equal
    told := fun failure published id member => by
      rcases List.mem_append.mp member with member | member
      · rcases sound.told failure published id member with
          told | ⟨tell, reaper | ⟨other, known, installed, equal⟩, waiting⟩
        · exact .inl (toldKept told)
        · exact .inr ⟨tell, .inl reaper, waiting⟩
        · have different : other ≠ start := by
            rintro rfl
            rw [installing] at equal
            cases equal
          exact .inr ⟨tell, .inr ⟨other, mem_setPlace_of_ne found place known different, installed,
            equal⟩, waiting⟩
      · exact .inr ⟨_, .inr ⟨_, mem_setPlace_self found place, true, tells failure published⟩,
          member⟩ }

/-- A start tells a runtime, or ends. -/
theorem startTells_sound {failure : ThreadFailure} {tell tell' : Telling} {installed : Bool}
    {world' : World} (sound : world.Sound) (found : world.starts[index]? = some start)
    (place : start.place = .telling failure tell installed)
    (taken : world.tell failure tell = some (world', tell')) :
    (world'.setPlace index (.telling failure tell' installed)).Sound := by
  have tells : world.Tells failure tell := .inr ⟨start, mem_of_found found, installed, place⟩
  obtain ⟨sound', valid, ⟨runtimes, rfl⟩, covers⟩ := tell_sound sound tells taken
  have published := (sound.telling failure tell tells).1
  refine setPlace_sound sound' found (by rw [place]; rfl) (fun waits => by rw [place]; exact waits)
    (fun equal => by cases equal) ?_ ?_
  · rintro _ _ _ ⟨⟩
    exact ⟨published, valid⟩
  · intro other tell'' installed' equal id waiting
    rw [place] at equal
    cases equal
    exact (covers id waiting).imp_right fun waiting => ⟨tell', installed, rfl, waiting⟩

theorem start_sound {decision : Bool} {world' : World} (sound : world.Sound)
    (taken : world.start index decision = some world') : world'.Sound := by
  obtain ⟨start, found, taken⟩ := Option.bind_eq_some_iff.mp taken
  cases place : start.place with
  | owner =>
      simp only [place] at taken
      split at taken
      · cases taken
        exact setPlace_quiet sound found (by rw [place]; rfl) (fun _ => by rw [place]; rfl)
          (by simp) (by simp [place]) (by simp)
      · rename_i absent
        split at taken
        · cases taken
          exact setPlace_quiet (create_sound sound (not_not.mp absent)) found (by rw [place]; rfl)
            (fun _ => by rw [place]; rfl) (by simp) (by simp [place]) (by simp)
        · cases taken
          exact setPlace_quiet sound found (by rw [place]; rfl) (fun _ => by rw [place]; rfl)
            (by simp) (by simp [place]) (by simp)
  | health =>
      simp only [place] at taken
      cases taken
      split
      · rename_i finished
        refine setPlace_quiet sound found (by rw [place]; rfl) (fun _ => by rw [place]; rfl)
          (fun _ => ?_) (by simp [place]) (by simp)
        rw [sound.failed, finished]
        rfl
      · exact setPlace_quiet sound found (by rw [place]; rfl) (fun _ => by rw [place]; rfl)
          (by simp) (by simp [place]) (by simp)
  | failing =>
      have published := sound.failing start (mem_of_found found) place
      simp only [place, Slots.fail, published, if_true] at taken
      cases taken
      exact setPlace_quiet sound found (by rw [place]; rfl) (fun _ => by rw [place]; rfl) (by simp)
        (by simp [place]) (by simp)
  | reading =>
      simp only [place] at taken
      split at taken
      · cases taken
        exact setPlace_quiet sound found (by rw [place]; rfl) (fun waits => by cases waits)
          (by simp) (by simp [place]) (by simp)
      · cases taken
        cases decision <;>
          exact setPlace_quiet sound found (by rw [place]; rfl) (fun _ => by rw [place]; rfl)
            (by simp) (by simp [place]) (by simp)
  | reserving =>
      simp only [place] at taken
      split at taken
      · cases taken
        exact setPlace_quiet sound found (by rw [place]; rfl) (fun waits => by cases waits)
          (by simp) (by simp [place]) (by simp)
      · rename_i reserved
        cases taken
        exact reserve_sound sound found place reserved
  | spawning =>
      simp only [place] at taken
      cases taken
      cases decision <;>
        exact setPlace_quiet sound found (by rw [place]; rfl) (fun _ => by rw [place]; rfl)
          (by simp) (by simp [place]) (by simp)
  | dropping =>
      simp only [place] at taken
      cases taken
      exact unreserve_sound sound found place _
  | installing =>
      simp only [place] at taken
      split at taken
      · rename_i quiet
        cases taken
        exact install_sound sound found place rfl rfl (by simp) (by simp [quiet])
      · rename_i failure published
        cases taken
        refine install_sound sound found place rfl rfl ?_ ?_
        · rintro _ _ _ ⟨⟩
          exact ⟨published, rfl⟩
        · rintro _ equal
          rw [published] at equal
          cases equal
          rfl
  | telling _ _ installed =>
      simp only [place] at taken
      split at taken
      · rename_i next
        cases taken
        exact startTells_sound sound found place next
      · rename_i ended
        cases taken
        refine setPlace_sound sound found ?_ ?_ ?_ ?_ ?_
        · rw [place]
          cases installed <;> rfl
        · rw [place]
          cases installed <;> simp [Place.pending]
        · cases installed <;> simp
        · cases installed <;> simp
        · intro other tell' installed' equal id waiting
          rw [place] at equal
          cases equal
          rw [tell_eq_none ended] at waiting
          cases waiting
  | done result =>
      simp only [place] at taken
      cases taken

end World

/-! ## Runs -/

theorem initial_sound : World.initial.Sound where
  occupied := rfl
  bounded := Nat.zero_le _
  exact := rfl
  nodup := List.nodup_nil
  listed id := by simp [World.initial, Runtime.new]
  claimed id := by simp [World.initial, Runtime.new, Reaper.held]
  dropped id := by simp [World.initial, Runtime.new, Reaper.uncounted]
  unshared := List.nodup_nil
  known start member := by cases member
  fresh start member := by cases member
  unused _ _ := rfl
  phases _ _ := rfl
  proofs id past := by simp [World.initial, Runtime.new] at past
  ready id found := by cases found
  publishing id phase place := by cases place
  retained _ := rfl
  failed := rfl
  telling failure tell tells := by
    rcases tells with reaper | ⟨start, member, -⟩
    · cases reaper
    · cases member
  failing start member := by cases member
  told failure published := by cases published

theorem next_sound {world world' : World} {choice : Choice} (sound : world.Sound)
    (taken : next choice world = some world') : world'.Sound := by
  cases choice with
  | begin =>
      cases taken
      exact World.begin_sound sound
  | start => exact World.start_sound sound taken
  | reap => exact World.reap_sound sound taken
  | reaperPanics report => exact World.reaperPanics_sound sound taken
  | event id event =>
      cases taken
      exact World.modify_sound sound (Runtime.event_later event _)
        fun confirmed => .inl (Runtime.event_confirmed event confirmed)

theorem reachable_sound {world : World} (reachable : machine.system.Reachable world) :
    world.Sound := by
  induction reachable with
  | initial isInitial => exact isInitial ▸ initial_sound
  | step _ taken sound =>
      obtain ⟨choice, taken⟩ := taken
      exact next_sound sound taken

end VThread.Lifecycle
