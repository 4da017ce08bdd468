import VThread.Kernel.Running

/-!
# The tick of a kernel

A tick sweeps and wakes, takes one task whose scope has no pending abort, and runs or aborts it.
-/

namespace VThread.Kernel

open VThread.Lib VThread.Carrier VThread.Ready VThread.Wait

/-! ## The end of a turn -/

/-- The carrier is given back by a task of a scope. -/
structure Returned (scope : Nat) (world world' : World) : Prop where
  sound : Sound none world'
  inFlight : world'.inFlight = none
  aside : world'.aside = world.aside
  live : ∀ key task, world'.tasks.get key = some task → world.tasks.get key = some task
  starts : ∀ start ∈ world'.starts, start ∈ world.starts ∨ start.scope = scope
  flagged : world.Flagged → world'.Flagged

/-- What a task does while it runs is not what gives the carrier back. -/
theorem Returned.acted {scope : Nat} {first second third : World}
    (acted : Acted scope first second) (returned : Returned scope second third) :
    Returned scope first third := by
  have starts : ∀ start ∈ third.starts, start ∈ first.starts ∨ start.scope = scope :=
    fun start member => (returned.starts start member).elim (acted.starts start) .inr
  obtain ⟨_, _, _, _, _, _, _, _, _, _, _, rfl⟩ := acted.same
  exact ⟨returned.sound, returned.inFlight, returned.aside, returned.live, starts,
    returned.flagged⟩

namespace Running

variable {key : TaskKey} {task : Task} {world : World}

/-- Without a generation of its own, the task in flight leaves no other one behind. -/
theorem idle_waiting {running : Option TaskKey} {tasks : KernelTasks} {waits : List Generation}
    {reclaimed : List Frames} {generations : Nat → Nat} {parked : List ParkedTask}
    (waiting : Waiting running tasks waits reclaimed generations parked)
    (none' : ∀ wait ∈ waits, running ≠ some wait.route) :
    Waiting none tasks waits reclaimed generations parked :=
  { waiting with
    woken := fun wait member => .inr ((waiting.woken wait member).resolve_left
      (none' wait member)) }

theorem waiting_none (idle : world.waiting key = none) :
    ∀ wait ∈ world.waits, wait.route ≠ key := by
  intro wait member
  simpa using List.find?_eq_none.mp idle wait member

theorem yield (running : Running key task world) (idle : world.waiting key = none) :
    Returned task.scope world
      { world with ready := world.ready.pushBack key, inFlight := none } := by
  have valid := running.sound.valid
  have admitted := running.sound.admitted
  refine ⟨⟨⟨?_, valid.framed, ?_, valid.deferring, valid.noticed⟩,
    ⟨running.sound.bounded.records, running.sound.bounded.owned,
      running.sound.bounded.borrowed⟩, running.sound.pending, ⟨admitted.distinct,
      admitted.bounded, admitted.fresh, admitted.live, admitted.queued, admitted.issued⟩⟩, rfl, rfl,
    fun _ _ => id, fun _ => .inl, id⟩
  · refine valid.located.perm ?_
    simp only [World.keys, running.flight, ReadyQueue.pushBack, List.perm_iff_count,
      List.count_append, Option.toList_some, Option.toList_none, List.count_nil]
    omega
  · refine idle_waiting valid.waiting fun wait member same => ?_
    exact waiting_none idle wait member (Option.some.inj same).symm

/-- A task that waits is parked on its generation. -/
theorem park (running : Running key task world) {wait : Generation}
    (found : world.waiting key = some wait) (deadline : Bool) :
    ∃ world', world.parkTask wait deadline = .ok world' ∧ Returned task.scope world world' := by
  have valid := running.sound.valid
  have admitted := running.sound.admitted
  have waiting := valid.waiting
  have member := List.mem_of_find?_eq_some found
  have isRoute : wait.route = key := by simpa using List.find?_some found
  have unparked : world.parked.find? (·.task == key) = none :=
    List.find?_eq_none.mpr fun parked isParked => by simpa using running.unparked isParked
  have apart : ∀ parked ∈ world.parked, parked.token ≠ wait.token := by
    intro parked isParked same
    have route := (waiting.own parked isParked wait member).mpr same.symm
    exact running.unparked isParked (route.symm.trans isRoute)
  have unarmed : deadline = false ∨ world.timers.any (·.1 == wait.token) = false := by
    right
    rw [List.any_eq_false]
    intro timer armed
    obtain ⟨parked, isParked, token, -⟩ := valid.noticed.timers timer armed
    simpa [← token] using apart parked isParked
  have unique : ∀ other ∈ world.waits, other.route = key ↔ other.token = wait.token := by
    intro other member'
    constructor
    · intro same
      rw [List.inj_on_of_nodup_map waiting.routes member' member (same.trans isRoute.symm)]
    · intro same
      rw [List.inj_on_of_nodup_map waiting.tokens member' member same, isRoute]
  let world' : World := { world with
    timers := if deadline then world.timers ++ [(wait.token, key)] else world.timers
    inFlight := none
    parked := world.parked ++ [⟨wait.token, key, deadline, false⟩] }
  refine ⟨world', ?_, ⟨⟨⟨?_, valid.framed, ?_, ?_, ?_⟩, ⟨running.sound.bounded.records,
    running.sound.bounded.owned, running.sound.bounded.borrowed⟩, running.sound.pending,
    ⟨admitted.distinct, admitted.bounded, admitted.fresh, admitted.live, admitted.queued,
      admitted.issued⟩⟩, rfl, rfl, fun _ _ => id, fun _ => .inl, id⟩⟩
  · rw [World.parkTask, running.flight, expect_some, ok_bind, ensure_of unparked, ok_bind,
      ensure_of unarmed, ok_bind]
    rfl
  · refine valid.located.perm ?_
    simp only [world', World.keys, running.flight, List.perm_iff_count, List.count_append,
      List.map_append, Option.toList_some, Option.toList_none, List.count_nil, List.map_cons,
      List.map_nil]
    omega
  · refine ⟨waiting.tokens, waiting.routes, waiting.owner, waiting.alive, waiting.numbered,
      fun parked isParked => ?_, fun parked isParked => ?_, fun other member' => ?_⟩
    · rcases List.mem_append.mp isParked with isParked | isNew
      · exact waiting.past parked isParked
      · rw [List.mem_singleton.mp isNew]
        exact waiting.numbered wait member
    · rcases List.mem_append.mp isParked with isParked | isNew
      · exact waiting.own parked isParked
      · rw [List.mem_singleton.mp isNew]
        exact unique
    · rcases waiting.woken other member' with runs | ⟨parked, isParked, same⟩ | selected
      · exact .inr (.inl ⟨_, List.mem_append_right _ (List.mem_singleton_self _),
          Option.some.inj runs⟩)
      · exact .inr (.inl ⟨parked, List.mem_append_left _ isParked, same⟩)
      · exact .inr (.inr selected)
  · refine ⟨valid.deferring.routes, fun notice noted => ?_, fun parked isParked marked => ?_⟩
    · obtain ⟨parked, isParked, same⟩ := valid.deferring.marked notice noted
      exact ⟨parked, List.mem_append_left _ isParked, same⟩
    · rcases List.mem_append.mp isParked with isParked | isNew
      · exact valid.deferring.noted parked isParked marked
      · rw [List.mem_singleton.mp isNew] at marked
        cases marked
  · have more : ∀ notice : Notice, Holds world.tasks world.parked notice →
        Holds world.tasks (world.parked ++ [⟨wait.token, key, deadline, false⟩]) notice := by
      rintro notice ⟨names, parked, isParked, same⟩
      exact ⟨names, parked, List.mem_append_left _ isParked, same⟩
    have kept : ∀ timer ∈ world.timers, ∃ parked ∈ world.parked ++
        [⟨wait.token, key, deadline, false⟩], parked.token = timer.1 ∧ parked.task = timer.2 ∧
          parked.hasDeadline = true := by
      intro timer armed
      obtain ⟨parked, isParked, same⟩ := valid.noticed.timers timer armed
      exact ⟨parked, List.mem_append_left _ isParked, same⟩
    refine { valid.noticed with
      wakes := fun notice known => (valid.noticed.wakes notice known).imp_right (more notice)
      timers := fun timer armed => ?_ }
    cases deadline with
    | true =>
        rcases List.mem_append.mp armed with armed | isNew
        · exact kept timer armed
        · rw [List.mem_singleton.mp isNew]
          exact ⟨_, List.mem_append_right _ (List.mem_singleton_self _), rfl, rfl, rfl⟩
    | false => exact kept timer armed

/-- A task that completes leaves its frames and its slab. -/
theorem complete (running : Running key task world) (idle : world.waiting key = none) :
    Goes world.completeTask (Returned task.scope world) := by
  have there := running.there
  rw [World.completeTask, running.flight, expect_some, ok_bind, there, expect_some, ok_bind]
  refine (World.unwind_goes [task.frames] world).bind fun unwound same => ?_
  subst same
  have valid := running.sound.valid
  obtain ⟨hasBorrowed, removal, flags⟩ :=
    @World.removeInFlight_eq (world.unwound [task.frames]) key task running.flight there
  obtain ⟨alone, isGone⟩ := World.frameless valid there
  have without := World.valid_without (valid.unwound [task.frames]) running.flight alone (by
    intro index root _ same
    have known : world.tasks.get key = some root := same
    rw [there] at known
    cases known
    exact isGone) hasBorrowed
  rw [removal, ok_bind]
  have shorter := KernelTasks.remove_len there
  have capacity := KernelTasks.remove_capacity world.tasks key
  have before : ∀ other kept, (world.tasks.remove key).1.get other = some kept →
      world.tasks.get other = some kept := by
    intro other kept there'
    rw [KernelTasks.remove_get] at there'
    split at there'
    · cases there'
    · exact there'
  have admitted := running.sound.admitted
  have bounded := running.sound.bounded
  refine .pure ⟨⟨⟨without.located, without.framed, idle_waiting without.waiting ?_,
    without.deferring, without.noticed⟩, ⟨?_, ?_, ?_⟩, ⟨running.sound.pending.distinct,
      running.sound.pending.alone, fun scope member => ?_⟩, ⟨admitted.distinct, admitted.bounded,
      admitted.fresh, fun other kept there' => admitted.live other kept (before other kept there'),
      admitted.queued, admitted.issued⟩⟩, rfl, rfl, before, fun _ => .inl,
      fun flagged => flags flagged⟩
  · intro wait member same
    exact alone wait member (Option.some.inj same).symm
  · have records := bounded.records
    rw [World.recordCount_eq] at records ⊢
    refine Nat.le_trans (Nat.le_of_eq ?_) records
    change world.packets.length + world.starts.length + (world.tasks.remove key).1.len +
      (world.retained + 1) = _
    omega
  · have same := congrArg Prod.fst capacity
    exact Nat.le_trans (Nat.le_of_eq same) bounded.owned
  · have same := congrArg Prod.snd capacity
    exact Nat.le_trans (Nat.le_of_eq same) bounded.borrowed
  · obtain ⟨index, root, there', isScope⟩ := running.sound.pending.rooted scope member
    refine ⟨index, root, ?_, isScope⟩
    change (world.tasks.remove key).1.get (.owned index) = some root
    rw [KernelTasks.remove_get, if_neg, there']
    rintro rfl
    rw [there] at there'
    cases there'
    have blocked := (world.blocked_iff task.scope).mpr (.inr (isScope ▸ member))
    rw [running.unblocked] at blocked
    cases blocked

end Running

/-! ## Dispatch -/

/-- A task is in flight whose scope has no pending abort. -/
structure Selected (key : TaskKey) (task : Task) (world : World) : Prop where
  sound : Sound none world
  flight : world.inFlight = some key
  there : world.tasks.get key = some task
  unblocked : world.blocked task.scope = false

namespace Selected

variable {key : TaskKey} {task : Task} {world : World}

theorem running (selected : Selected key task world) (unrevoked : world.revoked key = false) :
    Running key task world where
  sound := by
    have valid := selected.sound.valid
    exact ⟨⟨valid.located, valid.framed, { valid.waiting with
      woken := fun wait member => .inr ((valid.waiting.woken wait member).resolve_left nofun) },
      valid.deferring, valid.noticed⟩, selected.sound.bounded, selected.sound.pending,
      selected.sound.admitted⟩
  flight := selected.flight
  there := selected.there
  unrevoked isBorrowed := by
    rw [World.revoked_eq selected.there, isBorrowed] at unrevoked
    exact unrevoked
  unblocked := selected.unblocked

/-- A reclaimed lease is discarded. -/
theorem discard (selected : Selected key task world) (revoked : world.revoked key = true) :
    Goes (world.discardInFlight .scopeClosed) (Returned task.scope world) := by
  obtain ⟨world', ran, valid, discarded, flight, -⟩ := @World.discardInFlight_spec none world key
    task .scopeClosed selected.sound.valid selected.flight selected.there
    (fun unrevoked => by rw [revoked] at unrevoked; cases unrevoked)
  have outside := discarded.outside
  have pendingAborts : world'.pendingAborts = world.pendingAborts :=
    (congrArg World.pendingAborts outside :)
  refine .of_ok ran ⟨⟨valid, discarded.bounded selected.sound.bounded, ?_,
    discarded.admitted selected.sound.admitted⟩, flight, World.aside_of_outside outside,
    fun other kept there => (discarded.live there).2, fun start member =>
      .inl ((congrArg World.starts outside :) ▸ member), discarded.flagged⟩
  have pending := selected.sound.pending
  rw [pendingAborts]
  refine ⟨pending.distinct, pending.alone, fun scope member => ?_⟩
  obtain ⟨index, root, there, isScope⟩ := pending.rooted scope member
  refine ⟨index, root, ?_, isScope⟩
  rw [discarded.tasks, if_neg, there]
  intro isKey
  have same : TaskKey.owned index = key := by simpa using isKey
  rw [World.revoked_eq selected.there, ← same] at revoked
  cases revoked

/-- A dispatched task gives the carrier back, unless it leaves frames with a claim in flight. -/
theorem dispatch (selected : Selected key task world) (others : Nat → List Move) (turn : Turn) :
    Goes (world.dispatch others key turn) (Returned task.scope world) := by
  rw [World.dispatch, selected.there, expect_some, ok_bind]
  cases revoked : world.revoked key with
  | true => exact selected.discard revoked
  | false =>
      rw [if_neg Bool.false_ne_true]
      refine ((selected.running revoked).events others turn.events).bind ?_
      rintro world' ⟨running, acted⟩
      cases found : world'.waiting key with
      | some wait =>
          obtain ⟨final, ran, returned⟩ := running.park found turn.deadline
          exact .of_ok ran (returned.acted acted)
      | none =>
          dsimp only
          split
          · exact (running.complete found).imp fun final returned => returned.acted acted
          · exact .pure ((running.yield found).acted acted)

end Selected

end VThread.Kernel
