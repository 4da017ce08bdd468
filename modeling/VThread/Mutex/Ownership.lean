import VThread.Mutex.Tickets

/-!
# The ownership law of the mutex

Every step is sound, so the invariant holds in every reachable state.  From it follow mutual
exclusion, the conservation of the ownership, the order of the grants, and that no
assertion of the mutex can fail.
-/

namespace VThread.Mutex

open VThread.Lib VThread.Wait

variable {ι : Type} [DecidableEq ι] {thread : ι} {shared shared' : Shared ι} {pc pc' : Pc ι}
  {choice : Choice ι}

/-! ## Every step is sound -/

theorem start_sound (inv : shared.Inv) (away : (shared.view thread).Away .none)
    {call : Call ι} (taken : call.start thread choice shared = some (shared', pc')) :
    Sound thread shared shared' pc' := by
  cases call with
  | tryLock =>
      rw [Call.start] at taken
      cases locks : shared.tryLock with
      | none =>
          rw [locks] at taken
          cases taken
          exact .still inv away trivial
      | some locked =>
          rw [locks] at taken
          cases taken
          exact tryLock_sound inv away _ locks
  | lock =>
      rw [Call.start] at taken
      cases failure : choice.failure with
      | some error =>
          rw [failure] at taken
          cases taken
          exact .still inv away trivial
      | none =>
          rw [failure] at taken
          cases locks : shared.tryLock with
          | none =>
              rw [locks] at taken
              cases taken
              exact .still inv away trivial
          | some locked =>
              rw [locks] at taken
              cases taken
              exact tryLock_sound inv away _ locks
  | drop =>
      rw [Call.start] at taken
      split at taken
      · cases taken
      · rename_i live
        cases taken
        exact drop_sound inv away live
  | elsewhere word =>
      rw [Call.start] at taken
      split at taken
      · rename_i idle
        cases taken
        exact elsewhere_sound inv away idle
      · cases taken
  | select =>
      rw [Call.start] at taken
      split at taken
      · rename_i fires
        split at taken
        · rename_i decided
          obtain ⟨active, rfl⟩ := selectGeneration_exchange decided
          cases taken
          exact select_sound inv away fires active
        · cases taken
      · cases taken
  | query task =>
      rw [Call.start] at taken
      split at taken
      · rename_i decided
        obtain ⟨claimed, rfl⟩ := publication_exchange decided
        cases taken
        exact query_sound inv away claimed
      · cases taken

/-- Every step is sound. -/
theorem step_sound (inv : shared.Inv) (fits : Fits (shared.view thread) pc)
    (owing : Owing shared thread pc)
    (taken : step thread choice shared pc = some (shared', pc')) :
    Sound thread shared shared' pc' := by
  cases pc with
  | rest last => exact start_sound inv fits taken
  | enter =>
      rw [step, Option.some.injEq] at taken
      have recycled := recycle_sound inv fits
      split at taken
      · cases taken
        exact .still inv fits trivial
      · split at taken
        · rename_i decided
          rw [decided] at recycled
          cases taken
          exact recycled
        · rename_i decided
          rw [decided] at recycled
          cases taken
          exact recycled
        · cases taken
          exact .still inv fits trivial
  | reserve =>
      rw [step, Option.some.injEq] at taken
      split at taken
      · rename_i reserves
        cases taken
        exact reserve_sound inv fits reserves
      · cases taken
        exact .still inv fits.1 trivial
  | subscribe =>
      rw [step, Option.some.injEq] at taken
      by_cases unlocked : shared.value.state = 0
      · obtain ⟨acquired, subscribes, sound⟩ := acquired_sound inv fits choice.timed unlocked
        rw [subscribes] at taken
        cases taken
        exact sound
      · obtain ⟨subscribes, sound⟩ := queued_sound inv fits choice.timed unlocked
        rw [subscribes] at taken
        cases taken
        exact sound
  | acquired =>
      obtain ⟨retires, sound⟩ := acquire_sound inv fits
      rw [step, retires] at taken
      cases taken
      exact sound
  | waiting stage =>
      rw [step, Option.map_eq_some_iff] at taken
      obtain ⟨⟨word, next⟩, parks, equal⟩ := taken
      have sound := waiting_sound inv fits parks
      cases next with
      | stay stage' =>
          cases equal
          exact sound
      | returns result =>
          cases result <;> cases equal <;> exact sound
      | panics =>
          cases equal
          exact sound
  | resumed =>
      rw [step, Option.some.injEq] at taken
      split at taken
      · cases taken
        exact .still inv fits trivial
      · cases taken
        exact .still inv fits trivial
  | takeHandoff =>
      obtain ⟨reserved, idle, queued, stands, fate⟩ := fits
      have held := Holder.eq_granted stands
      obtain ⟨handed, takes, sound⟩ := takeHandoff_sound inv
        (by simp [held, Holder.inSlot]) (fun other differ => granted_others held differ)
        (.complete ⟨shared.value.identity⟩) ⟨reserved, idle, queued, rfl, fate, rfl⟩
        fun _ => trivial
      rw [step, takes] at taken
      cases taken
      exact sound
  | complete ownership =>
      obtain ⟨reserved, idle, queued, stands, fate, identity⟩ := fits
      obtain ⟨retires, sound⟩ := retire_sound inv reserved (.claim ownership)
        ⟨⟨idle, queued, stands, id⟩, fate, identity⟩ trivial
      rw [step, retires] at taken
      cases taken
      exact sound
  | claim =>
      have accepts := inv.accepts (by simp [Holder.eq_call fits.1.2.2.1]) fits.2.2
      rw [step, ExclusiveCell.claim, if_pos accepts] at taken
      cases taken
      exact claim_sound inv fits
  | dropTicket =>
      rw [step, Option.some.injEq] at taken
      cases taken
      exact remove_sound inv fits
  | retire queued selected error =>
      obtain ⟨reserved, idle, stands⟩ := fits
      cases queued with
      | true =>
          obtain ⟨retires, sound⟩ := retire_sound inv reserved (.rest (.error error))
            ⟨idle, stands.1, stands.2.1, id⟩ trivial
          rw [step, retires] at taken
          cases taken
          exact sound
      | false =>
          cases selected with
          | true =>
              obtain ⟨retires, sound⟩ := retire_sound inv reserved (.takeSelected error)
                ⟨id, idle, stands⟩ trivial
              rw [step, retires] at taken
              cases taken
              exact sound
          | false =>
              obtain ⟨retires, sound⟩ := retire_sound inv reserved (.takeResource error)
                ⟨id, idle, stands⟩ trivial
              rw [step, retires] at taken
              cases taken
              exact sound
  | takeResource error =>
      have taking := takeResource_sound inv fits
      rw [step] at taken
      split at taken
      · rename_i decided
        rw [decided] at taking
        cases taken
        exact taking
      · rename_i decided
        rw [decided] at taking
        cases taken
        exact taking
      · rename_i decided
        exfalso
        rw [decided] at taking
        split at taking <;> simp_all
      · cases taken
  | takeSelected error =>
      obtain ⟨reserved, idle, queued, stands, fate⟩ := fits
      have held := Holder.eq_granted stands
      obtain ⟨handed, takes, sound⟩ := takeHandoff_sound inv
        (by simp [held, Holder.inSlot]) (fun other differ => granted_others held differ)
        (.release ⟨shared.value.identity⟩ (.error error)) ⟨⟨idle, queued, rfl, reserved⟩, rfl⟩
        fun _ => trivial
      rw [step, takes] at taken
      cases taken
      exact sound
  | tryRelease =>
      have held := Holder.eq_call fits.2.2.1
      obtain ⟨⟨value, kept⟩, releases⟩ := tryRelease_ok inv (by simp [held])
      have sound := tryRelease_sound inv fits releases
      rw [step, releases] at taken
      cases kept with
      | none =>
          cases taken
          exact sound
      | some =>
          cases taken
          exact sound
  | release =>
      rw [step, Option.map_eq_some_iff] at taken
      obtain ⟨result, releases, equal⟩ := taken
      cases split : shared.entries with
      | nil =>
          obtain ⟨released, releases', sound⟩ := release_empty inv fits split
          rw [releases'] at releases
          cases releases
          cases equal
          exact sound
      | cons entry rest =>
          by_cases unbound : (shared.word entry.wait).phase = .binding
          · simp [Shared.releaseOwnership, split, claimResource, unbound] at releases
          · obtain ⟨released, how, releases', sound⟩ := release_front inv fits split unbound
            rw [releases'] at releases
            cases releases
            cases how <;> cases equal <;> exact sound
  | publish _ _ last =>
      obtain ⟨published, publishes, sound⟩ := publish_sound inv fits owing last
      rw [step, publishes] at taken
      cases taken
      exact sound
  | reclaim last =>
      have held := Holder.eq_rejected fits.2.2.1
      obtain ⟨handed, takes, sound⟩ := takeHandoff_sound inv
        (by simp [held, Holder.inSlot]) (fun other differ => rejected_others held differ)
        (.release ⟨shared.value.identity⟩ last) ⟨⟨fits.1, fits.2.1, rfl, fits.2.2.2⟩, rfl⟩
        fun _ => trivial
      rw [step, takes] at taken
      cases taken
      exact sound
  | panicked => exact fits.elim

/-- The invariant and what each thread knows hold in every reachable state. -/
theorem reachable_inv {state : Threads ι (Shared ι) (Pc ι)}
    (reachable : program.system.Reachable state) :
    state.shared.Inv ∧ ∀ thread, Fits (state.shared.view thread) (state.locals thread) ∧
      Owing state.shared thread (state.locals thread) := by
  refine @Program.invariant ι _ _ _ program Shared.Inv
    (fun thread shared pc => Fits (shared.view thread) pc ∧ Owing shared thread pc)
    ?_ ?_ ?_ state reachable
  · rintro shared ⟨identity, capacity, positive, _, rfl⟩
    refine ⟨?_, fun thread => ⟨⟨rfl, by simp [Shared.view, Shared.new], rfl,
      by simp [Shared.view, Shared.new]⟩, trivial⟩⟩
    exact {
      identity := positive
      unlocked := fun _ => rfl
      locked := fun held => absurd rfl held
      marked := fun waiting => absurd rfl waiting
      handoff := rfl
      guards := rfl
      line := .empty
      tickets := .nil
      outstanding := rfl
      capacity := Nat.zero_le _
      active := by rintro _ ⟨⟩ }
  · rintro thread shared pc shared' pc' inv ⟨fits, owing⟩ ⟨choice, taken⟩
    have sound := step_sound inv fits owing taken
    exact ⟨sound.inv, sound.fits, sound.owing⟩
  · rintro thread other shared pc otherPc shared' pc' differ inv ⟨fits, owing⟩
      ⟨otherFits, otherOwing⟩ ⟨choice, taken⟩
    have sound := step_sound inv fits owing taken
    refine ⟨otherFits.move (sound.moves other differ), ?_⟩
    cases otherPc with
    | publish task claimed last => exact sound.owes other differ task claimed otherOwing
    | _ => trivial

/-! ## The law -/

section Law

/-- A guard or an ownership capability. -/
inductive Place (ι : Type) where
  | guard (index : Nat)
  | slot
  | call (thread : ι)

/-- Calls that hold a guard or an ownership. -/
def Pc.holds : Pc ι → Bool
  | .acquired | .complete _ | .claim _ | .tryRelease | .release _ _ => true
  | _ => false

/-- Calls with a reservation. -/
def Pc.reserved : Pc ι → Bool
  | .subscribe | .acquired | .waiting _ | .resumed | .takeHandoff | .complete _
  | .dropTicket _ _ | .retire _ _ _ => true
  | _ => false

/-- Calls whose ticket resumed with success. -/
def Pc.serves : Pc ι → Bool
  | .resumed | .takeHandoff | .complete _ | .claim _ => true
  | _ => false

/-- A guard or a capability exists at a place. -/
def Exists (state : Threads ι (Shared ι) (Pc ι)) : Place ι → Prop
  | .guard index => index < state.shared.guards
  | .slot => state.shared.handoff.identity ≠ 0
  | .call thread => (state.locals thread).holds = true

/-- The ownership law in one state. -/
structure OwnershipLaw (state : Threads ι (Shared ι) (Pc ι)) : Prop where
  /-- At most one guard or capability exists. -/
  unique : ∀ left right, Exists state left → Exists state right → left = right
  /-- None exists exactly when the cell is unlocked. -/
  kept : (∀ place, ¬ Exists state place) ↔ state.shared.value.state = 0
  marked : state.shared.entries ≠ [] →
    state.shared.value.state = LOCKED ||| HAS_WAITERS
  /-- Tickets that arrived before a granted one were granted before it or have left. -/
  ordered : ∀ earlier later, earlier < later →
    state.shared.fate later = some .granted →
    state.shared.fate earlier = some .granted ∨ state.shared.fate earlier = some .abandoned
  /-- Only a granted ticket resumes with success, and one that left the queue without a
  grant has been cancelled or timed out, or is being dropped. -/
  served : ∀ thread, (state.locals thread).serves = true →
    (state.shared.arrival thread).bind state.shared.fate = some .granted
  abandoned : ∀ thread stage, state.locals thread = .waiting stage →
    (state.shared.arrival thread).bind state.shared.fate = some .abandoned →
    ∃ cause, Denies (state.shared.timed thread) cause ∧ Ends (state.shared.word thread) cause
  bounded : state.shared.outstanding ≤ state.shared.capacity
  /-- The calls with a reservation are counted, so without any nothing is outstanding. -/
  counted : ∃ tickets : List ι, tickets.Nodup ∧ state.shared.outstanding = tickets.length ∧
    ∀ thread, thread ∈ tickets ↔ (state.locals thread).reserved = true
  /-- No assertion fails, and no fault of the mutex is raised. -/
  sound : ∀ thread message, state.locals thread ≠ .panicked message
  taken : ∀ thread, state.locals thread = .takeHandoff → state.shared.handoff.identity ≠ 0
  claimed : ∀ thread ownership, state.locals thread = .claim ownership →
    state.shared.value.claim ownership = true

/-- The ownership law of one step: what became of a ticket is final, and only the ticket
that has waited longest is granted the ownership. -/
structure OwnershipStep (state state' : Threads ι (Shared ι) (Pc ι)) : Prop where
  final : ∀ number fate, fate ≠ .queued → state.shared.fate number = some fate →
    state'.shared.fate number = some fate
  first : ∀ number, state.shared.fate number = some .queued →
    state'.shared.fate number = some .granted →
    ∀ earlier, earlier < number → state.shared.fate earlier ≠ some .queued

variable {state state' : Threads ι (Shared ι) (Pc ι)} {view : View}

omit [DecidableEq ι] in
/-- A call holds the ownership when its view says so. -/
theorem Fits.holds_iff (fits : Fits view pc) : pc.holds = true ↔ view.standing = .call := by
  cases pc with
  | waiting stage =>
      obtain ⟨_, _, _, status, stands, _⟩ := fits
      cases status <;> simp [Pc.holds, stands.2.1]
  | dropTicket selected error =>
      obtain ⟨_, _, stands⟩ := fits
      cases selected with
      | true => simp [Pc.holds, stands.2.1]
      | false => rcases stands with kept | kept | kept <;> simp [Pc.holds, kept.1.2.1]
  | retire queued selected error =>
      obtain ⟨_, _, stands⟩ := fits
      cases queued with
      | true => simp [Pc.holds, stands.2.1]
      | false =>
          cases selected with
          | true => simp [Pc.holds, stands.2.1]
          | false => rcases stands with kept | kept <;> simp [Pc.holds, kept.1.2.1]
  | takeResource error =>
      rcases fits.2.2 with kept | kept <;> simp [Pc.holds, kept.1.2.1]
  | panicked => exact fits.elim
  | _ => simp_all [Pc.holds, Fits, View.Away, View.Is]

omit [DecidableEq ι] in
/-- A call has a reservation when its view says so. -/
theorem Fits.reserved_iff (fits : Fits view pc) : pc.reserved = true ↔ view.reserved := by
  cases pc with
  | panicked => exact fits.elim
  | _ => simp_all [Pc.reserved, Fits, View.Away]

/-- Where the ownership is. -/
theorem exists_iff (inv : state.shared.Inv)
    (fits : ∀ thread, Fits (state.shared.view thread) (state.locals thread))
    (place : Place ι) : Exists state place ↔
      match place with
      | .guard index => state.shared.holder = .guard ∧ index = 0
      | .slot => state.shared.holder.inSlot = true
      | .call thread => state.shared.holder = .call thread := by
  cases place with
  | guard index =>
      change index < state.shared.guards ↔ _
      rw [inv.guards]
      split
      · rename_i guard
        simp [guard]
      · rename_i other
        simp [other]
  | slot =>
      change state.shared.handoff.identity ≠ 0 ↔ _
      have identity := inv.identity
      rw [inv.handoff]
      split
      · rename_i slot
        simp only [slot, iff_true]
        omega
      · rename_i other
        simp [other]
  | call thread =>
      change (state.locals thread).holds = true ↔ _
      rw [(fits thread).holds_iff]
      constructor
      · exact Holder.eq_call
      · intro held
        change state.shared.holder.standing thread = .call
        rw [held]
        exact Holder.standing_call_self

/-- At most one place has the ownership, and none when the mutex is free. -/
theorem exists_unique (inv : state.shared.Inv)
    (fits : ∀ thread, Fits (state.shared.view thread) (state.locals thread))
    (left right : Place ι) (isLeft : Exists state left) (isRight : Exists state right) :
    left = right := by
  rw [exists_iff inv fits] at isLeft isRight
  cases left <;> cases right <;> simp_all [Holder.inSlot]

theorem exists_none_iff (inv : state.shared.Inv)
    (fits : ∀ thread, Fits (state.shared.view thread) (state.locals thread)) :
    (∀ place, ¬ Exists state place) ↔ state.shared.value.state = 0 := by
  constructor
  · intro none
    apply inv.unlocked
    cases held : state.shared.holder with
    | free => rfl
    | guard => exact absurd ((exists_iff inv fits (.guard 0)).mpr ⟨held, rfl⟩) (none _)
    | call thread => exact absurd ((exists_iff inv fits (.call thread)).mpr held) (none _)
    | granted | rejected =>
        exact absurd ((exists_iff inv fits .slot).mpr (by simp [held, Holder.inSlot]))
          (none _)
  · intro unlocked place member
    rw [exists_iff inv fits] at member
    have free := (inv.free unlocked).1
    cases place <;> simp [free, Holder.inSlot] at member

theorem ordered_law (inv : state.shared.Inv) {earlier later : Nat} (less : earlier < later)
    (granted : state.shared.fate later = some .granted) :
    state.shared.fate earlier = some .granted ∨
      state.shared.fate earlier = some .abandoned := by
  have issued : later < state.shared.arrivals := by
    by_contra late
    rw [(inv.line.arrived later).mpr (Nat.le_of_not_lt late)] at granted
    cases granted
  have queued := inv.line.ordered earlier later less granted
  have arrived := (inv.line.arrived earlier).not.mpr (by omega)
  cases fate : state.shared.fate earlier with
  | none => exact absurd fate arrived
  | some fate' => cases fate' <;> simp_all

omit [DecidableEq ι] in
theorem Fits.served (fits : Fits view pc) (serves : pc.serves = true) :
    view.fate = some .granted := by
  cases pc with
  | resumed => exact fits.2.2.2.2
  | takeHandoff => exact fits.2.2.2.2
  | complete => exact fits.2.2.2.2.1
  | claim => exact fits.2.1
  | _ => cases serves

omit [DecidableEq ι] in
theorem Fits.abandoned {stage : Parking} (fits : Fits view (.waiting stage : Pc ι))
    (fate : view.fate = some .abandoned) :
    ∃ cause, Denies view.timed cause ∧ Ends view.word cause := by
  obtain ⟨_, _, _, status, stands, waits⟩ := fits
  cases status with
  | queued => simp [stands.2.2] at fate
  | granted => simp [stands.2.2] at fate
  | lost =>
      cases stage with
      | begin => exact waits.elim
      | bind => exact waits.elim
      | parked => exact waits.2
      | rollback => exact waits.2

theorem reachable_law (reachable : program.system.Reachable state) : OwnershipLaw state := by
  obtain ⟨inv, known⟩ := reachable_inv reachable
  have fits := fun thread => (known thread).1
  exact {
    unique := exists_unique inv fits
    kept := exists_none_iff inv fits
    marked := inv.marked
    ordered := fun earlier later => ordered_law inv
    served := fun thread => (fits thread).served
    abandoned := fun thread stage waits => by
      have fit := fits thread
      rw [waits] at fit
      exact fit.abandoned
    bounded := inv.capacity
    counted := ⟨state.shared.tickets, inv.tickets, inv.outstanding,
      fun thread => (fits thread).reserved_iff.symm⟩
    sound := fun thread message panicked => by
      have fit := fits thread
      rw [panicked] at fit
      exact fit
    taken := fun thread takes => by
      have fit := fits thread
      rw [takes] at fit
      have held := Holder.eq_granted fit.2.2.2.1
      have identity := inv.identity
      rw [inv.handoff, held, Holder.inSlot, if_pos rfl]
      omega
    claimed := fun thread ownership claims => by
      have fit := fits thread
      rw [claims] at fit
      have held := Holder.eq_call fit.1.2.2.1
      exact inv.accepts (by simp [held]) fit.2.2 }

theorem Settles.final {fate fate' : Nat → Option Fate} (settles : Settles fate fate')
    {number : Nat} {final : Fate} (settled : final ≠ .queued)
    (same : fate number = some final) : fate' number = some final := by
  cases settles with
  | same => exact same
  | settled other final' unsettled =>
      have differ : number ≠ other := by
        intro equal
        subst equal
        rcases unsettled with none | queued
        · rw [none] at same
          cases same
        · rw [queued, Option.some.injEq] at same
          exact settled same.symm
      rwa [Function.update_of_ne differ]

/-- Another ticket that is still queued is so afterwards. -/
theorem Settles.stays {fate fate' : Nat → Option Fate} (settles : Settles fate fate')
    {number other : Nat} (queued : fate number = some .queued)
    (granted : fate' number = some .granted) (differ : other ≠ number) :
    fate' other = fate other := by
  cases settles with
  | same => simp [queued] at granted
  | settled changed =>
      have same : number = changed := by
        by_contra unchanged
        rw [Function.update_of_ne unchanged, queued] at granted
        cases granted
      subst same
      exact Function.update_of_ne differ ..

theorem reachable_step (reachable : program.system.Reachable state)
    (taken : program.system.step state state') : OwnershipStep state state' := by
  have ordered := (reachable_inv (.step reachable taken)).1.line.ordered
  obtain ⟨inv, known⟩ := reachable_inv reachable
  cases taken with
  | mk thread moved =>
      obtain ⟨choice, moved⟩ := moved
      have fates := (step_sound inv (known thread).1 (known thread).2 moved).fates
      refine ⟨fun number fate => fates.final, ?_⟩
      intro number queued granted earlier less waiting
      apply ordered earlier number less granted
      rwa [fates.stays queued granted (Nat.ne_of_lt less)]

/-- The ownership law of the virtual mutex, in every reachable state and at every step. -/
theorem ownership_law {ι : Type} [DecidableEq ι] :
    (∀ state : Threads ι (Shared ι) (Pc ι), program.system.Reachable state →
      OwnershipLaw state) ∧
    ∀ state state' : Threads ι (Shared ι) (Pc ι), program.system.Reachable state →
      program.system.step state state' → OwnershipStep state state' :=
  ⟨fun _ => reachable_law, fun _ _ => reachable_step⟩

end Law

/-! ## A contended run -/

section Run

/-- The steps of the mutex as a scheduler. -/
def scheduler (ι : Type) [DecidableEq ι] :
    (program : Program ι (Shared ι) (Pc ι)).Scheduler (Choice ι) where
  next := step
  sound _ choice _ _ _ taken := ⟨choice, taken⟩

/-- A resting thread makes a call; any other thread continues. -/
def calls (call : Call Nat) : Choice Nat := ⟨call, none, false, ⟨none, false, some false, false⟩⟩

/-- Threads 1 and 2 queue behind thread 0, thread 1 is cancelled, and its grant is taken
back and given to thread 2. -/
def cancelledSchedule : List (Nat × Choice Nat) :=
  ([(0, .tryLock), (1, .lock), (1, .lock), (1, .lock), (1, .lock), (1, .lock), (2, .lock),
    (2, .lock), (2, .lock), (2, .lock), (2, .lock), (3, .select 1 .inheritedCancelled),
    (0, .drop), (0, .drop), (0, .drop), (0, .drop), (0, .drop), (0, .drop), (3, .tryLock),
    (1, .lock), (1, .lock), (1, .lock), (1, .lock), (2, .lock), (2, .lock), (2, .lock),
    (2, .lock), (2, .lock)] : List (Nat × Call Nat)).map
    fun entry => (entry.1, calls entry.2)

/-- Threads that rest at an unlocked mutex. -/
def unlocked : Threads Nat (Shared Nat) (Pc Nat) := ⟨.new 1 2, fun _ => .rest (.ok ())⟩

theorem unlocked_reachable : program.system.Reachable unlocked :=
  .initial ⟨⟨1, 2, Nat.one_pos, Nat.two_pos, rfl⟩, fun _ => rfl⟩

theorem ownership_law_cancelled :
    ∃ state, (scheduler Nat).run cancelledSchedule unlocked = some state ∧
      state.shared.guards = 1 ∧ state.shared.outstanding = 0 ∧
      state.shared.fate 0 = some .abandoned ∧ state.shared.fate 1 = some .granted ∧
      OwnershipLaw state := by
  have runs : ((scheduler Nat).run cancelledSchedule unlocked).map (fun state =>
      (state.shared.guards, state.shared.outstanding, state.shared.fate 0,
        state.shared.fate 1)) = some (1, 0, some .abandoned, some .granted) := by decide
  obtain ⟨state, runs, view⟩ := Option.map_eq_some_iff.mp runs
  simp only [Prod.mk.injEq] at view
  obtain ⟨guards, outstanding, first, second⟩ := view
  have reachable := (scheduler Nat).run_reachable unlocked_reachable runs
  exact ⟨state, runs, guards, outstanding, first, second, ownership_law.1 state reachable⟩

end Run

end VThread.Mutex
