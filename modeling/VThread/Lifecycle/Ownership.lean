import VThread.Lifecycle.Steps

/-!
# Ownership of runtimes

What the invariant says of every run: each slot is owned by the table, the reaper or a permit, an
entry leaves only when it is drained, and a published failure reaches every entry.
-/

namespace VThread.Lifecycle

open VThread.Lib

namespace World

variable {world world' : World}

theorem tell_frame {failure : ThreadFailure} {tell tell' : Telling}
    (taken : world.tell failure tell = some (world', tell')) :
    world'.slots = world.slots ∧ world'.reaper = world.reaper ∧ world'.starts = world.starts := by
  cases tell with
  | check rest =>
      cases rest with
      | nil => cases taken
      | cons =>
          simp only [World.tell] at taken
          split at taken <;> cases taken <;> exact ⟨rfl, rfl, rfl⟩
  | stamp | push | stop => cases taken; exact ⟨rfl, rfl, rfl⟩

/-- A release changes the count only. -/
theorem release_frame : world.release.reaper = world.reaper ∧
    world.release.starts = world.starts ∧
    world.release.slots.failure = world.slots.failure ∧
    world.release.slots.entries = world.slots.entries := by
  unfold release Slots.release
  by_cases positive : 0 < world.slots.occupied
  · simp [ensure, positive, setSlots, pure, Except.pure]
  · simp [ensure, positive]

/-- A start of a runtime leaves the other starts alone, and at most creates the reaper. -/
theorem start_frame {index : Nat} {decision : Bool}
    (taken : world.start index decision = some world') :
    (∀ other, other ≠ index → world'.starts[other]? = world.starts[other]?) ∧
      (world'.reaper = world.reaper ∨ world.reaper = .absent ∧ world'.reaper = .scanning) := by
  obtain ⟨start, found, taken⟩ := Option.bind_eq_some_iff.mp taken
  have onward {middle : World} (starts : middle.starts = world.starts) (place : Place)
      (other : Nat) (ne : other ≠ index) :
      (middle.setPlace index place).starts[other]? = world.starts[other]? := by
    simp [setPlace, starts, Ne.symm ne]
  cases place : start.place with
  | owner =>
      simp only [place] at taken
      split at taken
      · cases taken
        exact ⟨onward rfl _, .inl rfl⟩
      · rename_i absent
        split at taken <;> cases taken
        · exact ⟨onward rfl _, .inr ⟨not_not.mp absent, rfl⟩⟩
        · exact ⟨onward rfl _, .inl rfl⟩
  | health | spawning =>
      simp only [place] at taken
      cases taken
      exact ⟨onward rfl _, .inl rfl⟩
  | failing | reading | reserving | installing =>
      simp only [place] at taken
      split at taken <;> cases taken <;> exact ⟨onward rfl _, .inl rfl⟩
  | dropping =>
      simp only [place] at taken
      cases taken
      exact ⟨onward release_frame.2.1 _, .inl release_frame.1⟩
  | telling =>
      simp only [place] at taken
      split at taken
      · rename_i next
        cases taken
        exact ⟨onward (tell_frame next).2.2 _, .inl (tell_frame next).2.1⟩
      · cases taken
        exact ⟨onward rfl _, .inl rfl⟩
  | done result =>
      simp only [place] at taken
      cases taken

/-- A start never touches the entry of the reaper. -/
theorem start_held {index : Nat} {decision : Bool}
    (taken : world.start index decision = some world') :
    world'.reaper.held = world.reaper.held := by
  rcases (start_frame taken).2 with same | ⟨absent, created⟩
  · rw [same]
  · rw [absent, created]
    rfl

/-- The reaper keeps its entry, puts it back or drops it. -/
theorem reap_held (taken : world.reap = some world') {id : Nat}
    (held : world.reaper.held = some id) :
    world'.reaper.held = some id ∨ id ∈ world'.slots.entries ∨
      (world'.runtimes id).stage = .dropped := by
  unfold reap at taken
  cases place : world.reaper with
  | claimed other | joining other | reporting other | checking other =>
      rw [place] at held
      cases held
      simp only [place] at taken
      split at taken <;> cases taken <;> exact .inl rfl
  | recording =>
      rw [place] at held
      cases held
      simp only [place] at taken
      cases taken
      exact .inl rfl
  | naming other =>
      rw [place] at held
      cases held
      simp only [place] at taken
      cases taken
      exact .inl rfl
  | dropping =>
      rw [place] at held
      cases held
      simp only [place] at taken
      cases taken
      exact .inr (.inr (by simp [setReaper, setStage]))
  | restoring =>
      rw [place] at held
      cases held
      simp only [place] at taken
      cases taken
      exact .inr (.inl (List.mem_append_right _ (List.mem_singleton_self _)))
  | absent | scanning | waiting | counting | publishing | failing | telling | finished =>
      rw [place] at held
      cases held

/-- A panic of the reaper gives the claim up. -/
theorem reaperPanics_held {report : PanicReport}
    (taken : world.reaperPanics report = some world') {id : Nat}
    (held : world.reaper.held = some id) :
    ∃ failure, world'.reaper = .restoring id failure := by
  unfold reaperPanics at taken
  cases place : world.reaper with
  | claimed other | joining other | reporting other | recording _ other | checking other
  | naming other | dropping other =>
      rw [place] at held
      cases held
      simp only [place] at taken
      cases taken
      exact ⟨_, rfl⟩
  | restoring =>
      simp only [place] at taken
      cases taken
  | absent | scanning | waiting | counting | publishing | failing | telling | finished =>
      rw [place] at held
      cases held

theorem next_held {choice : Choice} (taken : machine.next choice world = some world') {id : Nat}
    (held : world.reaper.held = some id) :
    world'.reaper.held = some id ∨ id ∈ world'.slots.entries ∨
      (world'.runtimes id).stage = .dropped := by
  cases choice with
  | begin | event =>
      cases taken
      exact .inl held
  | start => exact .inl ((start_held taken).trans held)
  | reap => exact reap_held taken held
  | reaperPanics report =>
      obtain ⟨failure, place⟩ := reaperPanics_held taken held
      exact .inl (by rw [place]; rfl)

/-! ## After a failure -/

/-- A failure stays, no permit is granted and no entry leaves the table. -/
structure Retains (world world' : World) (failure : ThreadFailure) : Prop where
  failure : world'.slots.failure = some failure
  permits : world'.permits ≤ world.permits
  entries : ∀ id ∈ world.slots.entries, id ∈ world'.slots.entries

variable {failure : ThreadFailure}

/-- A start goes on, and takes no permit. -/
theorem retains_setPlace {middle : World} {index : Nat} {start : Start} {place : Place}
    (found : world.starts[index]? = some start) (published : middle.slots.failure = some failure)
    (starts : middle.starts = world.starts)
    (entries : ∀ id ∈ world.slots.entries, id ∈ middle.slots.entries)
    (held : place.permit = true → start.place.permit = true) :
    world.Retains (middle.setPlace index place) failure := by
  have changed := permits_setPlace (show middle.starts[index]? = some start by rwa [starts]) place
  have same : middle.permits = world.permits := by rw [permits, starts, permits]
  refine ⟨published, ?_, entries⟩
  by_cases permit : place.permit = true
  · simp only [permit, held permit, if_true] at changed
    omega
  · rw [if_neg permit] at changed
    omega

theorem start_retains {index : Nat} {decision : Bool} (sound : world.Sound)
    (published : world.slots.failure = some failure)
    (taken : world.start index decision = some world') : world.Retains world' failure := by
  obtain ⟨start, found, taken⟩ := Option.bind_eq_some_iff.mp taken
  have onward {place : Place} (held : place.permit = true → start.place.permit = true) :
      world.Retains (world.setPlace index place) failure :=
    retains_setPlace found published rfl (fun _ member => member) held
  cases place : start.place with
  | owner =>
      have ended := sound.failed
      rw [published] at ended
      have present : world.reaper ≠ .absent := fun absent => by
        rw [absent] at ended
        cases ended
      simp only [place, present, ne_eq, not_false_eq_true, if_true] at taken
      cases taken
      exact onward (by simp [Place.permit])
  | health =>
      simp only [place] at taken
      cases taken
      split <;> exact onward (by simp [Place.permit])
  | failing =>
      simp only [place, Slots.fail, published, Option.isSome_some, if_true] at taken
      cases taken
      exact onward (by simp [Place.permit])
  | reading =>
      simp only [place, published] at taken
      cases taken
      exact onward (by simp [Place.permit])
  | reserving =>
      simp only [place, Slots.reserve, published] at taken
      cases taken
      exact onward (by simp [Place.permit])
  | spawning =>
      simp only [place] at taken
      cases taken
      exact onward fun _ => by rw [place]; rfl
  | dropping =>
      simp only [place] at taken
      cases taken
      obtain ⟨-, starts, same, entries⟩ := world.release_frame
      exact retains_setPlace found (same.trans published) starts
        (fun id member => by rwa [entries]) (by simp [Place.permit])
  | installing =>
      simp only [place, published] at taken
      cases taken
      exact retains_setPlace found published rfl
        (fun id member => List.mem_append_left _ member) (by simp [Place.permit])
  | telling told tell installed =>
      simp only [place] at taken
      split at taken
      · rename_i next
        cases taken
        obtain ⟨slots, -, starts⟩ := tell_frame next
        exact retains_setPlace found (by rw [slots, published]) starts
          (fun id member => by rwa [slots]) (by simp [Place.permit])
      · cases taken
        cases installed <;> exact onward (by simp [Place.permit])
  | done result =>
      simp only [place] at taken
      cases taken

/-- After a failure the reaper only tells it. -/
theorem reap_retains (sound : world.Sound) (published : world.slots.failure = some failure)
    (taken : world.reap = some world') : world.Retains world' failure := by
  have ended := sound.failed
  rw [published] at ended
  cases place : world.reaper with
  | telling =>
      simp only [reap, place] at taken
      split at taken
      · cases taken
        exact ⟨published, Nat.le_refl _, fun _ member => member⟩
      · rename_i next
        cases taken
        obtain ⟨slots, -, starts⟩ := tell_frame next
        refine ⟨(congrArg Slots.failure slots).trans published, ?_, fun id member => ?_⟩
        · simp only [permits, setReaper, starts]
          exact Nat.le_refl _
        · exact (congrArg Slots.entries slots).symm ▸ member
  | finished =>
      simp only [reap, place] at taken
      cases taken
  | absent | scanning | waiting | claimed | joining | reporting | recording | checking | naming
  | dropping | counting | publishing | restoring | failing =>
      rw [place] at ended
      cases ended

theorem next_retains {choice : Choice} (sound : world.Sound)
    (published : world.slots.failure = some failure)
    (taken : machine.next choice world = some world') : world.Retains world' failure := by
  cases choice with
  | begin =>
      cases taken
      exact ⟨published, by simp [begin, permits, List.countP_append, Place.permit],
        fun _ member => member⟩
  | start => exact start_retains sound published taken
  | reap => exact reap_retains sound published taken
  | reaperPanics report =>
      have ended := sound.failed
      rw [published] at ended
      have taken : world.reaperPanics report = some world' := taken
      cases place : world.reaper with
      | telling =>
          simp only [reaperPanics, place] at taken
          cases taken
      | finished =>
          simp only [reaperPanics, place] at taken
          cases taken
      | absent | scanning | waiting | claimed | joining | reporting | recording | checking | naming
      | dropping | counting | publishing | restoring | failing =>
          rw [place] at ended
          cases ended
  | event =>
      cases taken
      exact ⟨published, Nat.le_refl _, fun _ member => member⟩

end World

/-! ## Telling to the end -/

/-- Sections until every runtime is told. -/
def Telling.rank : Telling → Nat
  | .check rest => 4 * rest.length
  | .stamp _ rest => 4 * rest.length + 3
  | .push _ _ rest => 4 * rest.length + 2
  | .stop _ rest => 4 * rest.length + 1

/-- Who tells runtimes of a failure: the reaper, or a call of `start` or `check_health`. -/
inductive Teller where
  | reaper
  | start (index : Nat)

namespace Teller

/-- What a teller is telling. -/
def telling? (world : World) : Teller → Option (ThreadFailure × Telling)
  | .reaper =>
      match world.reaper with
      | .telling failure tell => some (failure, tell)
      | _ => none
  | .start index => world.starts[index]?.bind fun start =>
      match start.place with
      | .telling failure tell _ => some (failure, tell)
      | _ => none

/-- The choice of its next section. -/
def choice : Teller → Choice
  | .reaper => .reap
  | .start index => .start index true

/-- A teller has come nearer its end, or has told everybody. -/
def Nearer (teller : Teller) (failure : ThreadFailure) (tell : Telling) (world' : World) : Prop :=
  (tell.waiting = [] ∧ teller.telling? world' = none) ∨
    ∃ tell', teller.telling? world' = some (failure, tell') ∧ tell'.rank < tell.rank

variable {world world' : World} {failure : ThreadFailure} {tell tell' : Telling}

theorem telling?_reaper :
    reaper.telling? world = some (failure, tell) ↔ world.reaper = .telling failure tell := by
  cases place : world.reaper <;> simp [telling?, place]

theorem telling?_start {index : Nat} :
    (start index).telling? world = some (failure, tell) ↔
      ∃ start installed, world.starts[index]? = some start ∧
        start.place = .telling failure tell installed := by
  rw [telling?, Option.bind_eq_some_iff]
  constructor
  · rintro ⟨start, found, telling⟩
    cases place : start.place with
    | telling _ _ installed =>
        rw [place] at telling
        cases telling
        exact ⟨start, installed, found, place⟩
    | _ =>
        rw [place] at telling
        cases telling
  · rintro ⟨start, installed, found, place⟩
    exact ⟨start, found, by rw [place]⟩

/-- Whoever tells is one of the tellers. -/
theorem exists_of_tells (tells : world.Tells failure tell) :
    ∃ teller : Teller, teller.telling? world = some (failure, tell) := by
  rcases tells with place | ⟨start, member, installed, place⟩
  · exact ⟨.reaper, telling?_reaper.mpr place⟩
  · obtain ⟨index, found⟩ := List.mem_iff_getElem?.mp member
    exact ⟨.start index, telling?_start.mpr ⟨start, installed, found, place⟩⟩

theorem tell_rank (taken : world.tell failure tell = some (world', tell')) :
    tell'.rank < tell.rank := by
  cases tell with
  | check rest =>
      cases rest with
      | nil => cases taken
      | cons =>
          simp only [World.tell] at taken
          split at taken <;> cases taken <;> simp only [Telling.rank, List.length_cons] <;> omega
  | stamp | push | stop =>
      cases taken
      exact Nat.lt_succ_self _

/-- The reaper leaves the calls alone. -/
theorem reap_starts (taken : world.reap = some world') : world'.starts = world.starts := by
  unfold World.reap at taken
  cases place : world.reaper with
  | absent | finished =>
      simp only [place] at taken
      cases taken
  | scanning =>
      simp only [place] at taken
      cases taken
      unfold World.claim
      split
      · rfl
      · split <;> rfl
  | claimed id | joining id | reporting id | checking id | failing failure =>
      simp only [place] at taken
      split at taken <;> cases taken <;> rfl
  | waiting | recording stamped id | naming id | dropping id phase | publishing id phase
  | restoring =>
      simp only [place] at taken
      cases taken
      rfl
  | counting =>
      simp only [place] at taken
      cases taken
      exact world.release_frame.2.1
  | telling =>
      simp only [place] at taken
      split at taken
      · cases taken
        rfl
      · rename_i next
        cases taken
        exact (World.tell_frame next).2.2

theorem reaperPanics_starts {report : PanicReport}
    (taken : world.reaperPanics report = some world') : world'.starts = world.starts := by
  unfold World.reaperPanics at taken
  split at taken <;> cases taken <;> rfl

/-- The next section of the reaper. -/
theorem reap_nearer (place : world.reaper = .telling failure tell) :
    ∃ world', world.reap = some world' ∧ reaper.Nearer failure tell world' := by
  simp only [World.reap, place]
  cases next : world.tell failure tell with
  | none => exact ⟨_, rfl, .inl ⟨World.tell_eq_none next, rfl⟩⟩
  | some result => exact ⟨_, rfl, .inr ⟨result.2, rfl, tell_rank next⟩⟩

/-- The next section of a call. -/
theorem start_nearer {index : Nat} {start : Start} {installed : Bool} (decision : Bool)
    (found : world.starts[index]? = some start)
    (place : start.place = .telling failure tell installed) :
    ∃ world', world.start index decision = some world' ∧
      (Teller.start index).Nearer failure tell world' := by
  have moved {middle : World} (starts : middle.starts = world.starts) (place : Place) :
      (middle.setPlace index place).starts[index]? = some { start with place } := by
    simp [World.setPlace, starts, found]
  simp only [World.start, found, Option.bind_some, place]
  cases next : world.tell failure tell with
  | none =>
      refine ⟨_, rfl, .inl ⟨World.tell_eq_none next, ?_⟩⟩
      rw [telling?, moved rfl]
      cases installed <;> rfl
  | some result =>
      refine ⟨_, rfl, .inr ⟨result.2, ?_, tell_rank next⟩⟩
      rw [telling?, moved (World.tell_frame next).2.2]
      rfl

/-- A teller can always go on. -/
theorem goes_on {teller : Teller} (telling : teller.telling? world = some (failure, tell)) :
    ∃ world', machine.next teller.choice world = some world' ∧
      teller.Nearer failure tell world' := by
  cases teller with
  | reaper => exact reap_nearer (telling?_reaper.mp telling)
  | start index =>
      obtain ⟨start, installed, found, place⟩ := telling?_start.mp telling
      exact start_nearer true found place

/-- Nobody else moves a teller. -/
theorem next_nearer {teller : Teller} {choice : Choice}
    (telling : teller.telling? world = some (failure, tell))
    (taken : machine.next choice world = some world') :
    teller.telling? world' = some (failure, tell) ∨ teller.Nearer failure tell world' := by
  cases teller with
  | reaper =>
      have place := telling?_reaper.mp telling
      cases choice with
      | begin | event =>
          cases taken
          exact .inl telling
      | start =>
          rcases (World.start_frame taken).2 with same | ⟨absent, -⟩
          · left
            rw [telling?_reaper, same, place]
          · cases place.symm.trans absent
      | reap =>
          obtain ⟨world'', next, nearer⟩ := reap_nearer place
          cases taken.symm.trans next
          exact .inr nearer
      | reaperPanics report =>
          have taken : world.reaperPanics report = some world' := taken
          simp only [World.reaperPanics, place] at taken
          cases taken
  | start index =>
      obtain ⟨start, installed, found, place⟩ := telling?_start.mp telling
      cases choice with
      | begin =>
          cases taken
          left
          have short := (List.getElem?_eq_some_iff.mp found).1
          rw [telling?_start]
          refine ⟨start, installed, ?_, place⟩
          rw [World.begin, List.getElem?_append_left short, found]
      | event =>
          cases taken
          exact .inl telling
      | start other decision =>
          by_cases same : index = other
          · subst same
            obtain ⟨world'', next, nearer⟩ := start_nearer decision found place
            cases taken.symm.trans next
            exact .inr nearer
          · left
            rw [telling?_start]
            exact ⟨start, installed, ((World.start_frame taken).1 index same).trans found, place⟩
      | reap =>
          left
          rw [telling?_start, reap_starts taken]
          exact ⟨start, installed, found, place⟩
      | reaperPanics report =>
          left
          rw [telling?_start, reaperPanics_starts taken]
          exact ⟨start, installed, found, place⟩

end Teller

/-! ## Every run -/

variable {world : World}

/-- Slots are counted where they are; an entry is dropped when its runtime is drained, and an
interrupted claim puts it back; a published failure reaches every entry of the table, since whoever
tells it can go on to the end; a terminal phase is the last thing that happens to a runtime. -/
theorem lifecycle_owned (reachable : machine.system.Reachable world) :
    (world.slots.occupied = world.slots.entries.length + world.reaper.held.toList.length +
        world.permits + world.reaper.uncounted.toList.length ∧
      world.slots.occupied ≤ capacity ∧ world.underflows = 0) ∧
    (∀ id, (world.runtimes id).stage = .dropped ∨ (world.runtimes id).stage = .released →
      (world.runtimes id).Confirmed) ∧
    (∀ id, world.reaper.held = some id →
      (∀ choice world', machine.next choice world = some world' →
        world'.reaper.held = some id ∨ id ∈ world'.slots.entries ∨
          (world'.runtimes id).stage = .dropped) ∧
      ∀ report world', machine.next (.reaperPanics report) world = some world' →
        ∃ failure, world'.reaper = .restoring id failure ∧ ∃ world'',
          machine.next .reap world' = some world'' ∧ id ∈ world''.slots.entries) ∧
    (∀ failure, world.slots.failure = some failure →
      (∀ choice world', machine.next choice world = some world' →
        world'.slots.failure = some failure ∧ world'.permits ≤ world.permits ∧
          ∀ id ∈ world.slots.entries, id ∈ world'.slots.entries) ∧
      ∀ id ∈ world.slots.entries, (world.runtimes id).Told failure ∨
        ∃ teller tell, Teller.telling? world teller = some (failure, tell) ∧
          id ∈ tell.waiting) ∧
    (∀ teller failure tell, Teller.telling? world teller = some (failure, tell) →
      (∃ world', machine.next teller.choice world = some world' ∧
        teller.Nearer failure tell world') ∧
      ∀ choice world', machine.next choice world = some world' →
        Teller.telling? world' teller = some (failure, tell) ∨
          teller.Nearer failure tell world') ∧
    (∀ id, (world.runtimes id).shutdownPhase.terminal = true →
      (world.runtimes id).stage = .released ∧ id ∉ world.slots.entries ∧
        world.reaper.held ≠ some id ∧ world.reaper.uncounted ≠ some id) := by
  have sound := reachable_sound reachable
  refine ⟨⟨sound.occupied, sound.bounded, sound.exact⟩, sound.proofs, ?_, ?_,
    fun teller failure tell telling => ⟨Teller.goes_on telling, fun choice world' taken =>
      Teller.next_nearer telling taken⟩, ?_⟩
  · intro id held
    refine ⟨fun choice world' taken => World.next_held taken held,
      fun report world' taken => ?_⟩
    obtain ⟨failure, place⟩ := World.reaperPanics_held taken held
    refine ⟨failure, place, ((world'.setSlots (world'.slots.push id)).setStage id
      .listed).setReaper (.failing failure), ?_, ?_⟩
    · simp only [machine, next, World.reap, place]
    · exact List.mem_append_right _ (List.mem_singleton_self _)
  · intro failure published
    refine ⟨fun choice world' taken => ?_, fun id member => ?_⟩
    · have retains := World.next_retains sound published taken
      exact ⟨retains.failure, retains.permits, retains.entries⟩
    · refine (sound.told failure published id member).imp_right fun ⟨tell, tells, waiting⟩ => ?_
      obtain ⟨teller, telling⟩ := Teller.exists_of_tells tells
      exact ⟨teller, tell, telling, waiting⟩
  · intro id terminal
    have released : (world.runtimes id).stage = .released := by
      by_contra active
      have open' := sound.phases id active
      rw [terminal] at open'
      cases open'
    refine ⟨released, fun member => ?_, fun held => ?_, fun uncounted => ?_⟩
    · rw [sound.listed, released] at member
      cases member
    · rw [sound.claimed, released] at held
      cases held
    · rw [sound.dropped, released] at uncounted
      cases uncounted

/-- Three runtimes are started.  The first is released; the reaper panics over the second, while the
third is about to be installed, and everybody is told. -/
def failingRun : List Choice :=
  ([.begin, .start 0 true, .start 0 true, .start 0 true, .start 0 true, .start 0 true,
    .start 0 true, .event 0 (.resources ⟨[], none, none, true, [], none⟩), .event 0 (.exit none),
    .reap, .reap, .reap, .reap, .reap, .reap, .reap, .reap, .begin, .start 1 true, .start 1 true,
    .start 1 true, .start 1 true, .start 1 true, .start 1 true, .event 1 (.exit none), .begin,
    .start 2 true, .start 2 true, .start 2 true, .start 2 true, .start 2 true, .reap,
    .reap, .reaperPanics ⟨"injected", false, false⟩, .reap, .reap, .start 2 true] :
      List Choice) ++
    (List.replicate 5 .reap : List Choice) ++ (List.replicate 5 (.start 2 true) : List Choice)

/-- A call has ended. -/
def Place.ended : Place → Bool
  | done _ => true
  | _ => false

/-- The first runtime is released and complete, the others stay in the table and are told. -/
theorem lifecycle_owned_failing : ∃ world failure, machine.system.Reachable world ∧
    (world.runtimes 0).stage = .released ∧ (world.runtimes 0).Confirmed ∧
      world.slots.entries = [1, 2] ∧ world.slots.occupied = 2 ∧
      world.slots.failure = some failure ∧ failure.panic.message = "injected" ∧
      ∀ id ∈ [1, 2], (world.runtimes id).Told failure := by
  have runs : (machine.run (fun _ _ => true) failingRun World.initial).map (fun world =>
      ((world.runtimes 0).stage, world.slots.entries, world.slots.occupied,
        world.slots.failure.map (·.panic.message), world.reaper,
        world.starts.all (·.place.ended))) =
        some (.released, [1, 2], 2, some "injected", .finished, true) := rfl
  obtain ⟨world, run, places⟩ := Option.map_eq_some_iff.mp runs
  simp only [Prod.mk.injEq, Option.map_eq_some_iff] at places
  obtain ⟨stage, entries, occupied, ⟨failure, published, message⟩, reaper, ended⟩ := places
  have fresh : (machine.guarded fun _ _ => true = true).Reachable World.initial := .initial rfl
  have reachable := Machine.guarded_reachable
    (@Machine.run_reachable _ _ machine (fun _ _ => true) _ _ _ fresh run)
  have owned := lifecycle_owned reachable
  refine ⟨world, failure, reachable, stage, owned.2.1 0 (.inr stage), entries, occupied,
    published, message, fun id member => ?_⟩
  rw [← entries] at member
  refine ((owned.2.2.2.1 failure published).2 id member).resolve_right ?_
  rintro ⟨_ | index, tell, telling, -⟩
  · rw [Teller.telling?_reaper, reaper] at telling
    cases telling
  · obtain ⟨start, installed, found, place⟩ := Teller.telling?_start.mp telling
    have done := List.all_eq_true.mp ended start (World.mem_of_found found)
    rw [place] at done
    cases done

end VThread.Lifecycle
