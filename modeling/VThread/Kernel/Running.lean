import VThread.Kernel.Waking

/-!
# A task while it runs

What a dispatched task does to its kernel before it gives the carrier back.  It can only fail
where it leaves a scope whose children have a claim in flight.
-/

namespace VThread.Kernel

open VThread.Lib VThread.Carrier VThread.Ready VThread.Wait

/-! ## Calls that may meet an unpublished claim -/

/-- The assertion of a forced cleanup. -/
def incompletePublication : String := "forced cleanup retained an incomplete publication"

/-- A call succeeds with a property, or frames are left whose generation has a claim in flight. -/
def Goes {α : Type} (result : Checked α) (holds : α → Prop) : Prop :=
  (∃ value, result = .ok value ∧ holds value) ∨ result = .error incompletePublication

namespace Goes

variable {α β : Type} {holds : α → Prop}

theorem pure {value : α} (holding : holds value) : Goes (pure value) holds :=
  .inl ⟨value, rfl, holding⟩

theorem of_ok {result : Checked α} {value : α} (ran : result = .ok value) (holding : holds value) :
    Goes result holds := .inl ⟨value, ran, holding⟩

theorem bind {first : Checked α} {next : α → Checked β} {after : β → Prop}
    (goes : Goes first holds) (then' : ∀ value, holds value → Goes (next value) after) :
    Goes (first >>= next) after := by
  rcases goes with ⟨value, rfl, holding⟩ | rfl
  · rw [ok_bind]
    exact then' value holding
  · exact .inr rfl

theorem imp {result : Checked α} {after : α → Prop} (goes : Goes result holds)
    (then' : ∀ value, holds value → after value) : Goes result after := by
  rcases goes with ⟨value, ran, holding⟩ | failed
  · exact .inl ⟨value, ran, then' value holding⟩
  · exact .inr failed

/-- What a call that succeeds has done. -/
theorem of_eq {result : Checked α} {value : α} (goes : Goes result holds)
    (ran : result = .ok value) : holds value := by
  rcases goes with ⟨other, ran', holding⟩ | failed
  · rw [ran] at ran'
    cases ran'
    exact holding
  · rw [ran] at failed
    cases failed

end Goes

theorem World.unwind_goes (gone : List Frames) (world : World) :
    Goes (world.unwind gone) (· = world.unwound gone) := by
  by_cases settled : ∀ wait ∈ world.waits, wait.task.within gone = true →
      wait.phase.inFlight = false
  · exact .of_ok (unwind_eq settled) rfl
  · refine .inr ?_
    rw [unwind, ensure, if_neg settled]
    rfl

/-! ## The running task -/

/-- A task runs on the carrier: its lease is not reclaimed, and no abort of its scope is pending. -/
structure Running (key : TaskKey) (task : Task) (world : World) : Prop where
  sound : Sound (some key) world
  flight : world.inFlight = some key
  there : world.tasks.get key = some task
  unrevoked : key.isBorrowed = true → task.within world.reclaimed = false
  unblocked : world.blocked task.scope = false

/-- What a running task of a scope can change before it gives the carrier back. -/
structure Acted (scope : Nat) (world world' : World) : Prop where
  same : ∃ waits hub wakes generations openScopes reclaimed epoch starts nextTask retained clock,
    world' = { world with
      waits, hub, wakes, generations, openScopes, reclaimed, epoch, starts, nextTask, retained
      clock }
  starts : ∀ start ∈ world'.starts, start ∈ world.starts ∨ start.scope = scope

namespace Acted

variable {scope : Nat}

theorem refl (world : World) : Acted scope world world :=
  ⟨⟨_, _, _, _, _, _, _, _, _, _, _, rfl⟩, fun _ => .inl⟩

theorem trans {first second third : World} (before : Acted scope first second)
    (after : Acted scope second third) : Acted scope first third where
  same := by
    obtain ⟨_, _, _, _, _, _, _, _, _, _, _, rfl⟩ := before.same
    obtain ⟨_, _, _, _, _, _, _, _, _, _, _, rfl⟩ := after.same
    exact ⟨_, _, _, _, _, _, _, _, _, _, _, rfl⟩
  starts start member := (after.starts start member).elim (before.starts start) .inr

theorem of_stirred {world world' : World} (stirred : Stirred world world') :
    Acted scope world world' := by
  obtain ⟨_, _, _, _, _, rfl, -⟩ := stirred
  exact ⟨⟨_, _, _, _, _, _, _, _, _, _, _, rfl⟩, fun _ => .inl⟩

end Acted

theorem Descends.mono {bound bound' : Nat} {task : Task} (descends : Descends bound task)
    (le : bound ≤ bound') : Descends bound' task :=
  ⟨descends.self, fun frames member => Nat.lt_of_lt_of_le (descends.bounded frames member) le,
    descends.scope⟩

namespace Running

variable {key : TaskKey} {task : Task} {world : World}

theorem descends (running : Running key task world) : Descends world.nextTask task :=
  running.sound.valid.framed.live key task running.there

/-- A running task has an owned ancestor, itself perhaps. -/
theorem rooted (running : Running key task world) : HasRoot world.tasks task := by
  have there := running.there
  cases key with
  | owned index => exact ⟨index, task, there, running.descends.self⟩
  | borrowed index =>
      exact running.sound.valid.framed.liveRooted index task there (running.unrevoked rfl)

theorem pause (running : Running key task world) (others : Nat → List Move) :
    Running key task (world.pause others) ∧ Acted task.scope world (world.pause others) := by
  obtain ⟨sound, woken⟩ := running.sound.pause others
  refine ⟨⟨sound, woken.inFlight.trans running.flight, woken.tasks ▸ running.there,
    woken.reclaimed ▸ running.unrevoked, ?_⟩,
    .of_stirred (running.sound.valid.pause_stirred others)⟩
  rw [World.blocked, woken.pendingAborts]
  exact running.unblocked

/-! ## Scopes -/

theorem enter (running : Running key task world) :
    Running key task { world with openScopes := ⟨task, []⟩ :: world.openScopes } := by
  have valid := running.sound.valid
  have admitted := running.sound.admitted
  refine ⟨⟨⟨valid.located, { valid.framed with children := ?_ }, valid.waiting, valid.deferring,
    valid.noticed⟩, ⟨running.sound.bounded.records, running.sound.bounded.owned,
      running.sound.bounded.borrowed⟩, running.sound.pending, ⟨admitted.distinct,
      admitted.bounded, admitted.fresh, admitted.live, admitted.queued, admitted.issued⟩⟩,
    running.flight, running.there, running.unrevoked, running.unblocked⟩
  intro scope member
  rcases List.mem_cons.mp member with rfl | member
  · exact fun _ child => absurd child List.not_mem_nil
  · exact valid.framed.children scope member

/-- A child uses the frames of its ancestors, and its own. -/
theorem spawn (running : Running key task world) (index : Nat) :
    Running key task (world.spawnLocal task index) ∧
      Acted task.scope world (world.spawnLocal task index) := by
  rw [World.spawnLocal]
  split
  · exact ⟨running, .refl world⟩
  · rename_i scope found
    split
    · rename_i allowed
      obtain ⟨isOwner, -, -, -, known, room⟩ := allowed
      have valid := running.sound.valid
      have admitted := running.sound.admitted
      have descends := running.descends
      have framed := valid.framed
      have next := Nat.le_succ world.nextTask
      refine ⟨⟨⟨⟨valid.located, ?_, valid.waiting, valid.deferring, valid.noticed⟩,
        ⟨?_, running.sound.bounded.owned, running.sound.bounded.borrowed⟩, running.sound.pending,
        ⟨admitted.distinct, admitted.bounded, admitted.fresh, admitted.live, ?_,
          admitted.issued⟩⟩, running.flight, running.there, running.unrevoked,
        running.unblocked⟩, ⟨⟨_, _, _, _, _, _, _, _, _, _, _, rfl⟩, fun start member =>
          (List.mem_append.mp member).imp_right fun isChild => ?_⟩⟩
      · refine ⟨fun key other there => (framed.live key other there).mono next, ?_,
          fun packet member => Nat.lt_succ_of_lt (framed.issued packet member),
          framed.liveRooted, ?_, ?_⟩
        · intro other member
          rcases List.mem_append.mp member with member | isChild
          · exact (framed.queued other member).mono next
          · rw [List.mem_singleton.mp isChild]
            refine ⟨List.mem_cons_self, fun frames uses => ?_, fun frames uses => ?_⟩
            · rcases List.mem_cons.mp uses with rfl | uses
              · exact Nat.lt_succ_self _
              · exact Nat.lt_succ_of_lt (descends.bounded frames uses)
            · rcases List.mem_cons.mp uses with rfl | uses
              · rfl
              · exact descends.scope frames uses
        · intro other member unrevoked
          rcases List.mem_append.mp member with member | isChild
          · exact framed.queuedRooted other member unrevoked
          · rw [List.mem_singleton.mp isChild]
            obtain ⟨root, owner, there, uses⟩ := running.rooted
            exact ⟨root, owner, there, List.mem_cons_of_mem _ uses⟩
        · intro other member child isChild
          have member' : scope ∈ world.openScopes := List.mem_of_getElem? found
          rcases List.mem_or_eq_of_mem_set member with member | rfl
          · exact framed.children other member child isChild
          · rcases List.mem_append.mp isChild with isChild | isNew
            · exact framed.children scope member' child isChild
            · rw [List.mem_singleton.mp isNew, isOwner]
              intro uses
              exact Nat.lt_irrefl _ (descends.bounded _ uses)
      · have records : world.recordCount < world.config.maxVthreads := room
        simp only [World.recordCount, List.length_append, List.length_singleton] at records ⊢
        omega
      · intro other member
        rcases List.mem_append.mp member with member | isChild
        · exact admitted.queued other member
        · rw [List.mem_singleton.mp isChild]
          obtain ⟨state, isState, same, -⟩ := known
          exact same ▸ List.mem_map_of_mem isState
      · rw [List.mem_singleton.mp isChild]
    · exact ⟨running, .refl world⟩

/-- Leaving a scope reclaims its children, but not the task itself. -/
theorem leave (running : Running key task world) :
    Goes (world.leaveScope task) fun world' =>
      Running key task world' ∧ Acted task.scope world world' := by
  rw [World.leaveScope]
  cases found : world.openScopes.findIdx? (·.owner == task) with
  | none => exact .pure ⟨running, .refl world⟩
  | some index =>
      have place := List.of_findIdx?_eq_some found
      obtain ⟨scope, there⟩ : ∃ scope, world.openScopes[index]? = some scope := by
        cases there : world.openScopes[index]? with
        | none =>
            rw [there] at place
            cases place
        | some scope => exact ⟨scope, rfl⟩
      rw [there] at place
      have isOwner : scope.owner = task := by simpa using place
      dsimp only
      rw [there, Option.map_some, Option.getD_some]
      refine (World.unwind_goes scope.children
        { world with openScopes := world.openScopes.eraseIdx index }).bind fun unwound same => ?_
      subst same
      have valid := running.sound.valid
      have admitted := running.sound.admitted
      have left : Valid (some key) { world with openScopes := world.openScopes.eraseIdx index } :=
        ⟨valid.located, { valid.framed with
          children := fun scope member =>
            valid.framed.children scope (List.eraseIdx_subset member) }, valid.waiting,
          valid.deferring, valid.noticed⟩
      have unwound := left.unwound scope.children
      refine .pure ⟨⟨⟨⟨unwound.located, unwound.framed, unwound.waiting, unwound.deferring,
        unwound.noticed⟩, ⟨running.sound.bounded.records, running.sound.bounded.owned,
          running.sound.bounded.borrowed⟩, running.sound.pending, ⟨admitted.distinct,
          admitted.bounded, admitted.fresh, admitted.live, admitted.queued, admitted.issued⟩⟩,
        running.flight, running.there, fun isBorrowed => ?_, running.unblocked⟩,
        ⟨⟨_, _, _, _, _, _, _, _, _, _, _, rfl⟩, fun _ => .inl⟩⟩
      have others : task.within scope.children = false := by
        rw [Task.within, List.any_eq_false]
        intro frames uses isChild
        exact valid.framed.children scope (List.mem_of_getElem? there) frames
          (List.contains_iff_mem.mp isChild) (isOwner ▸ uses)
      change task.within (scope.children ++ world.reclaimed) = false
      rw [Task.within_append, others, running.unrevoked isBorrowed]
      rfl

/-! ## Generations -/

/-- The task in flight is not parked. -/
theorem unparked (running : Running key task world) {parked : ParkedTask}
    (member : parked ∈ world.parked) : parked.task ≠ key := by
  have distinct := running.sound.valid.located.nodup
  rw [World.keys, running.flight, Option.toList_some, List.singleton_append,
    List.nodup_cons] at distinct
  rintro rfl
  exact distinct.1 (by simp [List.mem_map_of_mem member])

/-- A task without a generation begins one on a cell without one. -/
theorem begin (running : Running key task world) (wait : Nat) :
    Running key task (world.beginWait key task wait) ∧
      Acted task.scope world (world.beginWait key task wait) := by
  rw [World.beginWait]
  split
  · exact ⟨running, .refl world⟩
  · rename_i free
    have valid := running.sound.valid
    have admitted := running.sound.admitted
    have waiting := valid.waiting
    obtain ⟨free, -⟩ := not_or.mp (mt Bool.or_eq_true_iff.mpr free)
    have fresh : ∀ known ∈ world.waits, known.token.wait ≠ wait ∧ known.route ≠ key := by
      intro known member
      rw [List.any_eq_true] at free
      push Not at free
      obtain ⟨cell, route⟩ := not_or.mp (mt Bool.or_eq_true_iff.mpr (free known member))
      exact ⟨by simpa using cell, by simpa using route⟩
    have later : ∀ other, world.generations other ≤
        if other = wait then world.generations wait + 1 else world.generations other := by
      intro other
      split
      · rename_i same
        subst same
        exact Nat.le_succ _
      · exact Nat.le_refl _
    refine ⟨⟨⟨⟨valid.located, valid.framed, ?_, valid.deferring, ?_⟩,
      ⟨running.sound.bounded.records, running.sound.bounded.owned,
        running.sound.bounded.borrowed⟩, running.sound.pending, ⟨admitted.distinct,
        admitted.bounded, admitted.fresh, admitted.live, admitted.queued, admitted.issued⟩⟩,
      running.flight, running.there, running.unrevoked, running.unblocked⟩,
      ⟨⟨_, _, _, _, _, _, _, _, _, _, _, rfl⟩, fun _ => .inl⟩⟩
    · refine ⟨?_, ?_, fun known member => ?_, fun known member isBorrowed => ?_,
        fun known member => ?_, fun parked member => (waiting.past parked member).trans (later _),
        fun parked isParked known member => ?_, fun known member => ?_⟩
      · rw [List.map_append, List.nodup_append]
        refine ⟨waiting.tokens, List.nodup_singleton _, ?_⟩
        rintro token member _ isNew rfl
        obtain ⟨known, isKnown, rfl⟩ := List.mem_map.mp member
        rw [List.map_singleton, List.mem_singleton] at isNew
        exact (fresh known isKnown).1 (by rw [isNew])
      · rw [List.map_append, List.nodup_append]
        refine ⟨waiting.routes, List.nodup_singleton _, ?_⟩
        rintro route member _ isNew rfl
        obtain ⟨known, isKnown, rfl⟩ := List.mem_map.mp member
        exact (fresh known isKnown).2 (List.mem_singleton.mp isNew)
      · rcases List.mem_append.mp member with member | isNew
        · exact waiting.owner known member
        · rw [List.mem_singleton.mp isNew]
          exact running.there
      · rcases List.mem_append.mp member with member | isNew
        · exact waiting.alive known member isBorrowed
        · rw [List.mem_singleton.mp isNew] at isBorrowed ⊢
          exact running.unrevoked isBorrowed
      · rcases List.mem_append.mp member with member | isNew
        · exact (waiting.numbered known member).trans (later _)
        · rw [List.mem_singleton.mp isNew]
          simp
      · rcases List.mem_append.mp member with member | isNew
        · exact waiting.own parked isParked known member
        · rw [List.mem_singleton.mp isNew]
          refine iff_of_false (running.unparked isParked).symm fun same => ?_
          have past := waiting.past parked isParked
          rw [← same] at past
          exact Nat.lt_irrefl _ past
      · rcases List.mem_append.mp member with member | isNew
        · exact waiting.woken known member
        · rw [List.mem_singleton.mp isNew]
          exact .inl rfl
    · have more : ∀ notice : Notice, Announces world.waits notice →
          Announces (world.waits ++ [⟨⟨wait, world.generations wait + 1⟩, task, key, .active⟩])
            notice :=
        fun notice announces => announces.subset fun known member _ =>
          List.mem_append_left _ member
      exact { valid.noticed with
        hub := fun notice member => more notice (valid.noticed.hub notice member)
        wakes := fun notice member => (valid.noticed.wakes notice member).imp_left (more notice) }

/-- A generation of the task is retired with its notices. -/
theorem retire (running : Running key task world) :
    Running key task (world.retireOwn key) ∧ Acted task.scope world (world.retireOwn key) := by
  rw [World.retireOwn]
  split
  · exact ⟨running, .refl world⟩
  · rename_i wait found
    split
    · exact ⟨running, .refl world⟩
    · have valid := running.sound.valid
      have admitted := running.sound.admitted
      have others : ∀ notices : List Notice, ∀ notice ∈ notices.filter (·.token ≠ wait.token),
          notice ∈ notices ∧ ∀ known ∈ world.waits, known.token = notice.token →
            known ∈ world.waits.filter (·.token ≠ wait.token) := by
        intro notices notice member
        obtain ⟨isNotice, other⟩ := List.mem_filter.mp member
        refine ⟨isNotice, fun known isKnown same => List.mem_filter.mpr ⟨isKnown, ?_⟩⟩
        simpa [same] using other
      refine ⟨⟨⟨⟨valid.located, valid.framed, valid.waiting.sublist List.filter_sublist,
        valid.deferring, valid.noticed.rolled (others world.hub) (others world.wakes)⟩,
        ⟨running.sound.bounded.records, running.sound.bounded.owned,
          running.sound.bounded.borrowed⟩, running.sound.pending, ⟨admitted.distinct,
          admitted.bounded, admitted.fresh, admitted.live, admitted.queued, admitted.issued⟩⟩,
        running.flight, running.there, running.unrevoked, running.unblocked⟩,
        ⟨⟨_, _, _, _, _, _, _, _, _, _, _, rfl⟩, fun _ => .inl⟩⟩

/-! ## Events -/

theorem event (running : Running key task world) (event : Event) :
    Goes (world.event key task event) fun world' =>
      Running key task world' ∧ Acted task.scope world world' := by
  cases event with
  | enter => exact .pure ⟨running.enter, ⟨⟨_, _, _, _, _, _, _, _, _, _, _, rfl⟩, fun _ => .inl⟩⟩
  | spawn index => exact .pure (running.spawn index)
  | leave => exact running.leave
  | begin wait => exact .pure (running.begin wait)
  | retire => exact .pure running.retire

theorem events (running : Running key task world) (others : Nat → List Move)
    (events : List Event) :
    Goes (world.events others key task events) fun world' =>
      Running key task world' ∧ Acted task.scope world world' := by
  induction events generalizing world with
  | nil => exact .pure ⟨running, .refl world⟩
  | cons next rest ih =>
      obtain ⟨paused, acted⟩ := running.pause others
      rw [World.events]
      refine (paused.event next).bind fun world' went => ?_
      exact (ih went.1).imp fun world'' gone => ⟨gone.1, (acted.trans went.2).trans gone.2⟩

end Running

end VThread.Kernel
