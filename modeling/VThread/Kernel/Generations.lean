import Mathlib.Data.List.Forall2
import VThread.Kernel.Invariant

/-!
# Generations on the move

What the moves of the others, retirements and unwinding do to the generations of a carrier.
-/

namespace VThread.Kernel

open VThread.Lib VThread.Carrier VThread.Ready VThread.Wait

namespace World

variable {world : World} {token : ParkToken} {wait : Generation}

theorem generation_eq_some (found : world.generation token = some wait) :
    wait ∈ world.waits ∧ wait.token = token :=
  ⟨List.mem_of_find?_eq_some found, by simpa using List.find?_some found⟩

theorem generation_eq_none : world.generation token = none ↔
    ∀ wait ∈ world.waits, wait.token ≠ token := by
  simp [generation, List.find?_eq_none]

/-- Tokens are distinct, so that the generation of a token is the one that has it. -/
theorem generation_of_mem (distinct : (world.waits.map (·.token)).Nodup)
    (member : wait ∈ world.waits) : world.generation wait.token = some wait := by
  cases found : world.generation wait.token with
  | none => exact absurd rfl (generation_eq_none.mp found wait member)
  | some other =>
      obtain ⟨known, same⟩ := generation_eq_some found
      rw [List.inj_on_of_nodup_map distinct known member same]

end World

/-! ## Moves of the others -/

/-- The same generation, perhaps further on. -/
structure Onward (wait wait' : Generation) : Prop where
  token : wait'.token = wait.token
  task : wait'.task = wait.task
  route : wait'.route = wait.route
  selected : ∀ cause, wait.phase = .selected cause → wait'.phase = .selected cause

theorem Onward.refl (wait : Generation) : Onward wait wait := ⟨rfl, rfl, rfl, fun _ same => same⟩

theorem Onward.trans {first second third : Generation} (before : Onward first second)
    (after : Onward second third) : Onward first third :=
  ⟨after.token.trans before.token, after.task.trans before.task, after.route.trans before.route,
    fun cause same => after.selected cause (before.selected cause same)⟩

/-- The same generations, each perhaps further on. -/
abbrev Moved (waits waits' : List Generation) : Prop := List.Forall₂ Onward waits waits'

namespace Moved

variable {waits waits' : List Generation}

theorem tokens (moved : Moved waits waits') :
    waits'.map (·.token) = waits.map (·.token) := by
  induction moved with
  | nil => rfl
  | cons onward _ ih => simp [onward.token, ih]

theorem routes (moved : Moved waits waits') :
    waits'.map (·.route) = waits.map (·.route) := by
  induction moved with
  | nil => rfl
  | cons onward _ ih => simp [onward.route, ih]

/-- Every generation is still there. -/
theorem after (moved : Moved waits waits') {wait : Generation} (member : wait ∈ waits) :
    ∃ wait' ∈ waits', Onward wait wait' := by
  induction moved with
  | nil => cases member
  | cons onward _ ih =>
      rcases List.mem_cons.mp member with rfl | member
      · exact ⟨_, List.mem_cons_self, onward⟩
      · obtain ⟨wait', known, moved⟩ := ih member
        exact ⟨wait', List.mem_cons_of_mem _ known, moved⟩

/-- Every generation was there before. -/
theorem before (moved : Moved waits waits') {wait' : Generation} (member : wait' ∈ waits') :
    ∃ wait ∈ waits, Onward wait wait' := by
  induction moved with
  | nil => cases member
  | cons onward _ ih =>
      rcases List.mem_cons.mp member with rfl | member
      · exact ⟨_, List.mem_cons_self, onward⟩
      · obtain ⟨wait, known, moved⟩ := ih member
        exact ⟨wait, List.mem_cons_of_mem _ known, moved⟩

end Moved

namespace World

variable {world : World} {token : ParkToken}

theorem setPhase_moved {phase : WaitPhase}
    (allowed : ∀ wait ∈ world.waits, wait.token = token → ∀ cause,
      wait.phase ≠ .selected cause) :
    Moved world.waits (world.setPhase token phase).waits := by
  rw [setPhase]
  refine List.forall₂_map_right_iff.mpr (List.forall₂_same.mpr fun wait member => ?_)
  by_cases same : wait.token = token
  · rw [if_pos same]
    exact ⟨rfl, rfl, rfl, fun cause selected =>
      absurd selected (allowed wait member same cause)⟩
  · rw [if_neg same]
    exact .refl wait

/-- A generation whose phase is known is not selected, where its phase is another. -/
theorem not_selected {wait : Generation} (distinct : (world.waits.map (·.token)).Nodup)
    (found : world.generation token = some wait)
    (other : ∀ cause, wait.phase ≠ .selected cause) :
    ∀ wait ∈ world.waits, wait.token = token → ∀ cause, wait.phase ≠ .selected cause := by
  intro known member same cause
  have again := generation_of_mem distinct member
  rw [same, found] at again
  cases again
  exact other cause

end World

/-- What the moves of the others and retirements can change. -/
def Stirred (world world' : World) : Prop :=
  ∃ waits hub wakes retained clock,
    world' = { world with waits, hub, wakes, retained, clock } ∧
      ∀ wait' ∈ waits, ∃ wait ∈ world.waits, Onward wait wait'

theorem Stirred.refl (world : World) : Stirred world world :=
  ⟨_, _, _, _, _, rfl, fun wait known => ⟨wait, known, .refl wait⟩⟩

theorem Stirred.trans {first second third : World} (before : Stirred first second)
    (after : Stirred second third) : Stirred first third := by
  obtain ⟨_, _, _, _, _, rfl, moved⟩ := before
  obtain ⟨_, _, _, _, _, rfl, further⟩ := after
  refine ⟨_, _, _, _, _, rfl, fun wait'' member => ?_⟩
  obtain ⟨wait', known', onward'⟩ := further wait'' member
  obtain ⟨wait, known, onward⟩ := moved wait' known'
  exact ⟨wait, known, onward.trans onward'⟩

theorem Stirred.before {world world' : World} (stirred : Stirred world world')
    {wait' : Generation} (member : wait' ∈ world'.waits) :
    ∃ wait ∈ world.waits, Onward wait wait' := by
  obtain ⟨_, _, _, _, _, rfl, moved⟩ := stirred
  exact moved wait' member

theorem Stirred.tasks {world world' : World} (stirred : Stirred world world') :
    world'.tasks = world.tasks := by
  obtain ⟨_, _, _, _, _, rfl, -⟩ := stirred
  rfl

theorem Stirred.parked {world world' : World} (stirred : Stirred world world') :
    world'.parked = world.parked := by
  obtain ⟨_, _, _, _, _, rfl, -⟩ := stirred
  rfl

theorem World.move_stirred {world : World} (distinct : (world.waits.map (·.token)).Nodup)
    (move : Move) : Stirred world (world.move move) := by
  have set (token : ParkToken) (phase : WaitPhase)
      (allowed : ∀ wait ∈ world.waits, wait.token = token → ∀ cause,
        wait.phase ≠ .selected cause) (wait' : Generation)
      (member : wait' ∈ (world.setPhase token phase).waits) :=
    (setPhase_moved allowed).before member
  cases move with
  | claim token cause =>
      rw [World.move]
      split
      · rename_i found
        exact ⟨_, _, _, _, _, rfl, set token _ (not_selected distinct found (by simp))⟩
      · exact .refl _
  | link token carrier =>
      rw [World.move]
      split
      · rename_i cause found
        have moved := set token (.linked cause) (not_selected distinct found (by simp))
        cases carrier
        · exact ⟨_, _, _, _, _, rfl, moved⟩
        · exact ⟨_, _, _, _, _, rfl, moved⟩
      · exact .refl _
  | publish token =>
      rw [World.move]
      split
      · rename_i found
        exact ⟨_, _, _, _, _, rfl, set token _ (not_selected distinct found (by simp))⟩
      · exact .refl _
  | forget => exact ⟨_, _, _, _, _, rfl, fun wait known => ⟨wait, known, .refl wait⟩⟩
  | occupy =>
      rw [World.move]
      split
      · exact ⟨_, _, _, _, _, rfl, fun wait known => ⟨wait, known, .refl wait⟩⟩
      · exact .refl _

/-! ## The invariant -/

namespace Waiting

variable {running : Option TaskKey} {tasks : KernelTasks} {waits waits' : List Generation}
  {reclaimed : List Frames} {generations : Nat → Nat} {parked : List ParkedTask}

theorem moved (waiting : Waiting running tasks waits reclaimed generations parked)
    (moved : Moved waits waits') :
    Waiting running tasks waits' reclaimed generations parked where
  tokens := moved.tokens ▸ waiting.tokens
  routes := moved.routes ▸ waiting.routes
  owner wait' member := by
    obtain ⟨wait, known, onward⟩ := moved.before member
    rw [onward.route, onward.task]
    exact waiting.owner wait known
  alive wait' member isBorrowed := by
    obtain ⟨wait, known, onward⟩ := moved.before member
    rw [onward.task]
    exact waiting.alive wait known (onward.route ▸ isBorrowed)
  numbered wait' member := by
    obtain ⟨wait, known, onward⟩ := moved.before member
    rw [onward.token]
    exact waiting.numbered wait known
  past := waiting.past
  own task parkedTask wait' member := by
    obtain ⟨wait, known, onward⟩ := moved.before member
    rw [onward.route, onward.token]
    exact waiting.own task parkedTask wait known
  woken wait' member := by
    obtain ⟨wait, known, onward⟩ := moved.before member
    rw [onward.route]
    rcases waiting.woken wait known with runs | isParked | ⟨cause, selected⟩
    · exact .inl runs
    · exact .inr (.inl isParked)
    · exact .inr (.inr ⟨cause, onward.selected cause selected⟩)

theorem sublist (waiting : Waiting running tasks waits reclaimed generations parked)
    (fewer : waits'.Sublist waits) :
    Waiting running tasks waits' reclaimed generations parked where
  tokens := waiting.tokens.sublist (fewer.map _)
  routes := waiting.routes.sublist (fewer.map _)
  owner wait member := waiting.owner wait (fewer.subset member)
  alive wait member := waiting.alive wait (fewer.subset member)
  numbered wait member := waiting.numbered wait (fewer.subset member)
  past := waiting.past
  own task parkedTask wait member := waiting.own task parkedTask wait (fewer.subset member)
  woken wait member := waiting.woken wait (fewer.subset member)

/-- A parked task is taken out, when its generation is selected or retired. -/
theorem unpark (waiting : Waiting running tasks waits reclaimed generations parked)
    {key : TaskKey}
    (done : ∀ wait ∈ waits, wait.route = key → ∃ cause, wait.phase = .selected cause) :
    Waiting running tasks waits reclaimed generations (parked.filter (·.task ≠ key)) :=
  { waiting with
    past := fun task member => waiting.past task (List.mem_of_mem_filter member)
    own := fun task member => waiting.own task (List.mem_of_mem_filter member)
    woken := fun wait member => by
      rcases waiting.woken wait member with runs | ⟨task, isParked, same⟩ | selected
      · exact .inl runs
      · by_cases taken : wait.route = key
        · exact .inr (.inr (done wait member taken))
        · refine .inr (.inl ⟨task, ?_, same⟩)
          rw [List.mem_filter]
          exact ⟨isParked, by simpa [same] using taken⟩
      · exact .inr (.inr selected) }

/-- A task without a generation leaves its slab. -/
theorem remove (waiting : Waiting running tasks waits reclaimed generations parked)
    {key : TaskKey} (none : ∀ wait ∈ waits, wait.route ≠ key) :
    Waiting running (tasks.remove key).1 waits reclaimed generations parked :=
  { waiting with
    owner := fun wait member => by
      rw [KernelTasks.remove_get, if_neg (none wait member)]
      exact waiting.owner wait member }

/-- Tasks have joined the slab. -/
theorem grow {tasks' : KernelTasks}
    (waiting : Waiting running tasks waits reclaimed generations parked)
    (more : ∀ key task, tasks.get key = some task → tasks'.get key = some task) :
    Waiting running tasks' waits reclaimed generations parked :=
  { waiting with owner := fun wait member => more _ _ (waiting.owner wait member) }

end Waiting

/-! ## Retirement and unwinding -/

theorem Task.within_append (task : Task) (first second : List Frames) :
    task.within (first ++ second) = (task.within first || task.within second) := by
  rw [Bool.eq_iff_iff]
  simp only [Task.within, List.any_eq_true, List.contains_iff_mem, List.mem_append,
    Bool.or_eq_true]
  constructor
  · rintro ⟨frames, member, isFirst | isSecond⟩
    · exact .inl ⟨frames, member, isFirst⟩
    · exact .inr ⟨frames, member, isSecond⟩
  · rintro (⟨frames, member, isFirst⟩ | ⟨frames, member, isSecond⟩)
    · exact ⟨frames, member, .inl isFirst⟩
    · exact ⟨frames, member, .inr isSecond⟩

theorem Task.within_of_mem {task : Task} {frames : Frames} {gone : List Frames}
    (uses : frames ∈ task.lineage) (isGone : frames ∈ gone) : task.within gone = true :=
  List.any_eq_true.mpr ⟨frames, uses, List.contains_iff_mem.mpr isGone⟩

/-- All generations of tasks within some frames are rolled back. -/
theorem Waiting.unwound {running : Option TaskKey} {tasks : KernelTasks} {waits : List Generation}
    {reclaimed gone : List Frames} {generations : Nat → Nat} {parked : List ParkedTask}
    (waiting : Waiting running tasks waits reclaimed generations parked) :
    Waiting running tasks (waits.filter (!·.task.within gone)) (gone ++ reclaimed) generations
      parked :=
  { waiting.sublist List.filter_sublist with
    alive := fun wait member isBorrowed => by
      obtain ⟨known, stays⟩ := List.mem_filter.mp member
      rw [Task.within_append, waiting.alive wait known isBorrowed]
      simpa using stays }

/-- Fewer tasks are unrevoked. -/
theorem Framed.unwound {tasks : KernelTasks} {reclaimed gone : List Frames} {starts : List Task}
    {openScopes openScopes' : List LocalScope} {packets : List SpawnPacket} {bound : Nat}
    (framed : Framed tasks reclaimed starts openScopes packets bound)
    (fewer : openScopes'.Sublist openScopes) :
    Framed tasks (gone ++ reclaimed) starts openScopes' packets bound :=
  { framed with
    liveRooted := fun index task there unrevoked => by
      rw [Task.within_append, Bool.or_eq_false_iff] at unrevoked
      exact framed.liveRooted index task there unrevoked.2
    queuedRooted := fun task member unrevoked => by
      rw [Task.within_append, Bool.or_eq_false_iff] at unrevoked
      exact framed.queuedRooted task member unrevoked.2
    children := fun scope member => framed.children scope (fewer.subset member) }

/-! ## Notices -/

theorem Announces.moved {waits waits' : List Generation} {notice : Notice}
    (announces : Announces waits notice) (moved : Moved waits waits') :
    Announces waits' notice := by
  obtain ⟨wait, known, token, route, task⟩ := announces
  obtain ⟨wait', member, onward⟩ := moved.after known
  exact ⟨wait', member, onward.token.trans token, onward.route.trans route, by
    rw [onward.task, task]⟩

namespace Noticed

variable {tasks tasks' : KernelTasks} {waits waits' : List Generation}
  {parked parked' : List ParkedTask}
  {hub wakes hub' wakes' deferredWakes deferredWakes' : List Notice}
  {timers timers' : List (ParkToken × TaskKey)}

theorem moved (noticed : Noticed tasks waits parked hub wakes deferredWakes timers)
    (moved : Moved waits waits') :
    Noticed tasks waits' parked hub wakes deferredWakes timers :=
  { noticed with
    hub := fun notice member => (noticed.hub notice member).moved moved
    wakes := fun notice member => (noticed.wakes notice member).imp_left (·.moved moved) }

/-- Fewer notices and timers. -/
theorem fewer (noticed : Noticed tasks waits parked hub wakes deferredWakes timers)
    (hubs : hub' ⊆ hub) (local' : wakes' ⊆ wakes) (deferred : deferredWakes' ⊆ deferredWakes)
    (armed : timers' ⊆ timers) :
    Noticed tasks waits parked hub' wakes' deferredWakes' timers' where
  hub notice member := noticed.hub notice (hubs member)
  wakes notice member := noticed.wakes notice (local' member)
  deferred notice member := noticed.deferred notice (deferred member)
  timers timer member := noticed.timers timer (armed member)

/-- Generations and their notices are gone. -/
theorem rolled (noticed : Noticed tasks waits parked hub wakes deferredWakes timers)
    (hubs : ∀ notice ∈ hub', notice ∈ hub ∧
      ∀ wait ∈ waits, wait.token = notice.token → wait ∈ waits')
    (local' : ∀ notice ∈ wakes', notice ∈ wakes ∧
      ∀ wait ∈ waits, wait.token = notice.token → wait ∈ waits') :
    Noticed tasks waits' parked hub' wakes' deferredWakes timers :=
  { noticed with
    hub := fun notice member =>
      (noticed.hub notice (hubs notice member).1).subset (hubs notice member).2
    wakes := fun notice member =>
      (noticed.wakes notice (local' notice member).1).imp_left (·.subset (local' notice member).2) }

/-- Tasks have joined the slab. -/
theorem grow (noticed : Noticed tasks waits parked hub wakes deferredWakes timers)
    (more : ∀ key task, tasks.get key = some task → tasks'.get key = some task) :
    Noticed tasks' waits parked hub wakes deferredWakes timers :=
  { noticed with
    wakes := fun notice member => (noticed.wakes notice member).imp_right fun holds =>
      ⟨holds.1.grow (more _), holds.2⟩
    deferred := fun notice member => (noticed.deferred notice member).grow (more _) }

/-- A task leaves its slab that nothing is parked as. -/
theorem remove (noticed : Noticed tasks waits parked hub wakes deferredWakes timers)
    (deferring : Deferring deferredWakes parked) {key : TaskKey}
    (absent : ∀ task ∈ parked, task.task ≠ key) :
    Noticed (tasks.remove key).1 waits parked hub wakes deferredWakes timers := by
  have kept : ∀ notice : Notice, (∃ task ∈ parked, task.task = notice.route) →
      Names tasks notice → Names (tasks.remove key).1 notice := by
    rintro notice ⟨owner, isParked, same⟩ names
    refine names.grow fun task there => ?_
    rw [KernelTasks.remove_get, if_neg (same ▸ absent owner isParked), there]
  exact { noticed with
    wakes := fun notice member => (noticed.wakes notice member).imp_right fun holds =>
      ⟨kept notice (holds.2.imp fun _ owner => ⟨owner.1, owner.2.1⟩) holds.1, holds.2⟩
    deferred := fun notice member => kept notice
      ((deferring.marked notice member).imp fun _ owner => ⟨owner.1, owner.2.1⟩)
      (noticed.deferred notice member) }

/-- A parked task is taken out with its timer.  Local wakes of its generation may be left as long
as it is unretired. -/
theorem unpark (noticed : Noticed tasks waits parked hub wakes deferredWakes timers)
    {key : TaskKey} (token : ParkToken)
    (own : ∀ task ∈ parked, task.task = key → task.token = token)
    (local' : ∀ notice ∈ wakes, notice.token = token → Announces waits notice)
    (armed : ∀ timer ∈ timers', timer ∈ timers ∧
      ∀ task ∈ parked, task.hasDeadline = true → task.token = timer.1 → task.token ≠ token) :
    Noticed tasks waits (parked.filter (·.task ≠ key)) hub wakes deferredWakes timers' :=
  { noticed with
    wakes := fun notice member => by
      rcases noticed.wakes notice member with announces | ⟨names, owner, isParked, route, same⟩
      · exact .inl announces
      · by_cases taken : owner.task = key
        · exact .inl (local' notice member (same.symm.trans (own owner isParked taken)))
        · exact .inr ⟨names, owner, List.mem_filter.mpr ⟨isParked, by simpa using taken⟩, route,
            same⟩
    timers := fun timer member => by
      obtain ⟨known, other⟩ := armed timer member
      obtain ⟨owner, isParked, token', route, hasDeadline⟩ := noticed.timers timer known
      refine ⟨owner, List.mem_filter.mpr ⟨isParked, ?_⟩, token', route, hasDeadline⟩
      rw [decide_eq_true_eq]
      exact fun taken => other owner isParked hasDeadline token' (own owner isParked taken) }

end Noticed

/-! ## All of it -/

theorem Valid.unwound {running : Option TaskKey} {world : World} (valid : Valid running world)
    (gone : List Frames) : Valid running (world.unwound gone) where
  located := valid.located
  framed := valid.framed.unwound List.filter_sublist
  waiting := valid.waiting.unwound
  deferring := valid.deferring
  noticed := by
    have stays : ∀ notice : Notice,
        notice.token ∉ (world.waits.filter (·.task.within gone)).map (·.token) →
        ∀ wait ∈ world.waits, wait.token = notice.token →
          wait ∈ world.waits.filter (!·.task.within gone) := by
      intro notice absent wait member same
      refine List.mem_filter.mpr ⟨member, ?_⟩
      cases isGone : wait.task.within gone with
      | false => rfl
      | true =>
          rw [← same] at absent
          exact absurd (List.mem_map_of_mem (List.mem_filter.mpr ⟨member, isGone⟩)) absent
    refine valid.noticed.rolled (fun notice member => ?_) (fun notice member => ?_)
    · obtain ⟨known, absent⟩ := List.mem_filter.mp member
      exact ⟨known, stays notice (by simpa using absent)⟩
    · obtain ⟨known, absent⟩ := List.mem_filter.mp member
      exact ⟨known, stays notice (by simpa using absent)⟩

/-- A move of the others keeps what holds. -/
theorem Valid.move {running : Option TaskKey} {world : World} (valid : Valid running world)
    (move : Move) : Valid running (world.move move) := by
  have set (token : ParkToken) (phase : WaitPhase)
      (allowed : ∀ wait ∈ world.waits, wait.token = token → ∀ cause,
        wait.phase ≠ .selected cause) : Valid running (world.setPhase token phase) := by
    have moved := @World.setPhase_moved world token phase allowed
    exact ⟨valid.located, valid.framed, valid.waiting.moved moved, valid.deferring,
      valid.noticed.moved moved⟩
  have distinct := valid.waiting.tokens
  cases move with
  | claim token cause =>
      rw [World.move]
      split
      · rename_i found
        exact set token _ (World.not_selected distinct found (by simp))
      · exact valid
  | link token carrier =>
      rw [World.move]
      split
      · rename_i task route cause found
        have valid' := set token (.linked cause) (World.not_selected distinct found (by simp))
        obtain ⟨known, isToken⟩ := World.generation_eq_some found
        obtain ⟨wait', member, onward⟩ := (World.setPhase_moved
          (World.not_selected distinct found (by simp))).after known
        have announces : Announces (world.setPhase token (.linked cause)).waits
            ⟨token, task.id, route, cause⟩ :=
          ⟨wait', member, onward.token.trans isToken, onward.route, by rw [onward.task]⟩
        cases carrier with
        | true =>
            exact { valid' with
              noticed := { valid'.noticed with
                wakes := fun notice member => by
                  rcases List.mem_append.mp member with member | member
                  · exact valid'.noticed.wakes notice member
                  · rw [List.mem_singleton.mp member]
                    exact .inl announces } }
        | false =>
            exact { valid' with
              noticed := { valid'.noticed with
                hub := fun notice member => by
                  rcases List.mem_append.mp member with member | member
                  · exact valid'.noticed.hub notice member
                  · rw [List.mem_singleton.mp member]
                    exact announces } }
      · exact valid
  | publish token =>
      rw [World.move]
      split
      · rename_i found
        exact set token _ (World.not_selected distinct found (by simp))
      · exact valid
  | forget => exact ⟨valid.located, valid.framed, valid.waiting, valid.deferring, valid.noticed⟩
  | occupy =>
      rw [World.move]
      split
      · exact ⟨valid.located, valid.framed, valid.waiting, valid.deferring, valid.noticed⟩
      · exact valid

theorem Valid.moves {running : Option TaskKey} {world : World} (valid : Valid running world)
    (moves : List Move) : Valid running (moves.foldl World.move world) := by
  induction moves generalizing world with
  | nil => exact valid
  | cons next moves ih => exact ih (valid.move next)

theorem Valid.moves_stirred {running : Option TaskKey} {world : World}
    (valid : Valid running world) (moves : List Move) :
    Stirred world (moves.foldl World.move world) := by
  induction moves generalizing world with
  | nil => exact .refl _
  | cons next moves ih =>
      exact (World.move_stirred valid.waiting.tokens next).trans (ih (valid.move next))

theorem Valid.pause_stirred {running : Option TaskKey} {world : World}
    (valid : Valid running world) (others : Nat → List Move) :
    Stirred world (world.pause others) := by
  obtain ⟨waits, hub, wakes, retained, _, equal, moved⟩ :=
    valid.moves_stirred (others world.clock)
  refine ⟨waits, hub, wakes, retained, world.clock + 1, ?_, moved⟩
  rw [World.pause, equal]

theorem Valid.pause {running : Option TaskKey} {world : World} (valid : Valid running world)
    (others : Nat → List Move) : Valid running (world.pause others) := by
  have moved := valid.moves (others world.clock)
  exact ⟨moved.located, moved.framed, moved.waiting, moved.deferring, moved.noticed⟩

/-! ## Records -/

theorem Bounded.move {world : World} (bounded : Bounded world) (move : Move) :
    Bounded (world.move move) := by
  have same {world' : World} (others : world'.config = world.config ∧
      world'.tasks = world.tasks) (records : world'.recordCount ≤ world.recordCount) :
      Bounded world' := by
    obtain ⟨config, tasks⟩ := others
    refine ⟨?_, ?_, ?_⟩
    · rw [config]
      exact records.trans bounded.records
    · rw [config, tasks]
      exact bounded.owned
    · rw [config, tasks]
      exact bounded.borrowed
  cases move with
  | claim | publish =>
      rw [World.move]
      split
      · exact same ⟨rfl, rfl⟩ (Nat.le_refl _)
      · exact bounded
  | link token carrier =>
      rw [World.move]
      split
      · cases carrier
        · exact same ⟨rfl, rfl⟩ (Nat.le_refl _)
        · exact same ⟨rfl, rfl⟩ (Nat.le_refl _)
      · exact bounded
  | forget => exact same ⟨rfl, rfl⟩ (Nat.add_le_add_left (Nat.sub_le _ _) _)
  | occupy =>
      rw [World.move]
      split
      · rename_i free
        exact ⟨free, bounded.owned, bounded.borrowed⟩
      · exact bounded

theorem Bounded.pause {world : World} (bounded : Bounded world) (others : Nat → List Move) :
    Bounded (world.pause others) := by
  have moved : ∀ moves : List Move, Bounded (moves.foldl World.move world) := by
    intro moves
    induction moves generalizing world with
    | nil => exact bounded
    | cons next moves ih => exact ih (bounded.move next)
  have after := moved (others world.clock)
  exact ⟨after.records, after.owned, after.borrowed⟩

end VThread.Kernel
