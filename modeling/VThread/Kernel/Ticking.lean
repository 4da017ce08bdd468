import VThread.Kernel.Barring
import VThread.Kernel.Selecting

/-!
# A tick as a whole

A tick starts and ends with no task in flight.  It fails only where the task it mounts does, and
it takes no task of a scope with a pending abort.
-/

namespace VThread.Kernel

open VThread.Lib VThread.Carrier VThread.Ready VThread.Wait

/-! ## What the parts of a tick keep -/

/-- What a part of a tick keeps while no task runs. -/
structure Kept (world world' : World) : Prop where
  sound : Sound none world'
  unpacked : world.Unpacked → world'.Unpacked
  flagged : world.starts = [] → world'.starts = [] ∧ (world.Flagged → world'.Flagged)
  undisturbed : Undisturbed world world'
  barred : ∀ scope, Barred scope world → Barred scope world'

theorem Flagged.congr {world world' : World} (flagged : world.Flagged)
    (tasks : world'.tasks = world.tasks) (hasBorrowed : world'.hasBorrowed = world.hasBorrowed) :
    world'.Flagged := by
  intro key task isBorrowed there
  rw [hasBorrowed]
  exact flagged key task isBorrowed (tasks ▸ there)

namespace Kept

variable {world world' : World}

theorem refl (sound : Sound none world) : Kept world world :=
  ⟨sound, id, fun none' => ⟨none', id⟩, .refl world, fun _ => id⟩

theorem trans {first second third : World} (before : Kept first second)
    (after : Kept second third) : Kept first third where
  sound := after.sound
  unpacked := after.unpacked ∘ before.unpacked
  flagged none' := ⟨(after.flagged (before.flagged none').1).1,
    (after.flagged (before.flagged none').1).2 ∘ (before.flagged none').2⟩
  undisturbed := before.undisturbed.trans after.undisturbed
  barred scope := after.barred scope ∘ before.barred scope

theorem of_woken (sound : Sound none world') (woken : Woken world world') : Kept world world' where
  sound := sound
  unpacked := by
    obtain ⟨_, _, _, _, _, _, _, _, _, rfl⟩ := woken
    exact id
  flagged none' := ⟨woken.starts.trans none', fun flagged =>
    Flagged.congr flagged woken.tasks woken.hasBorrowed⟩
  undisturbed := by
    obtain ⟨_, _, _, _, _, _, _, _, _, rfl⟩ := woken
    exact ⟨rfl, rfl, rfl, .refl _⟩
  barred _ barred := barred.woken woken

end Kept

namespace World

variable {world : World}

/-! ## The parts of a tick -/

/-- The part of `maintain` that depends on the signal. -/
def retryDeferred (others : Nat → List Move) (signalChanged : Bool) (world : World) :
    Checked World :=
  if signalChanged then do
    let (world, _) ← world.retryAborts others
    world.processDeferredWakes others
  else pure world

/-- The part of `maintain` that looks for notices. -/
def processNotices (others : Nat → List Move) (signalChanged : Bool) (world : World) :
    Checked World :=
  if signalChanged || (!world.parked.isEmpty && world.hasWakes) then world.processWakes others
  else pure world

theorem maintain_eq (others : Nat → List Move) (input : TickInput) (world : World) :
    world.maintain others input = (do
      let world ← world.sweepRevoked
      let world ← world.retryDeferred others input.signalChanged
      let world ← world.processNotices others input.signalChanged
      if world.timers.isEmpty then pure world
      else (world.expireTimers input.expired).processWakes others) := by
  rw [maintain]
  refine congrArg (world.sweepRevoked >>= ·) (funext fun swept => ?_)
  have notices : ∀ retried : World,
      (if (input.signalChanged || (!retried.parked.isEmpty && retried.hasWakes)) = true then do
        let world ← retried.processWakes others
        if world.timers.isEmpty = true then pure world
        else (world.expireTimers input.expired).processWakes others
      else if retried.timers.isEmpty = true then pure retried
        else (retried.expireTimers input.expired).processWakes others) = (do
      let world ← retried.processNotices others input.signalChanged
      if world.timers.isEmpty = true then pure world
      else (world.expireTimers input.expired).processWakes others) := by
    intro retried
    rw [processNotices]
    split <;> rfl
  rw [retryDeferred]
  split
  · rcases swept.retryAborts others with message | ⟨aborted, attempted⟩
    · rfl
    · rw [ok_bind, ok_bind]
      dsimp only
      cases aborted.processDeferredWakes others with
      | error => rfl
      | ok deferred => exact notices deferred
  · exact notices swept

theorem retryDeferred_spec (sound : Sound none world) (idle : world.inFlight = none)
    (others : Nat → List Move) (signalChanged : Bool) :
    ∃ world', world.retryDeferred others signalChanged = .ok world' ∧ Kept world world' ∧
      world'.inFlight = none := by
  cases signalChanged with
  | false => exact ⟨world, rfl, .refl sound, idle⟩
  | true =>
      obtain ⟨aborted, ran, sound', idle', unpacked, flagged, swept⟩ :=
        retryAborts_spec sound idle others
      obtain ⟨world', ran', sound'', woken⟩ := processDeferredWakes_spec others sound'
      refine ⟨world', ?_, .trans ⟨sound', unpacked, flagged,
        undisturbed_of_retried swept, fun _ barred => barred.retried swept⟩
        (.of_woken sound'' woken), woken.inFlight.trans idle'⟩
      rw [retryDeferred, if_pos rfl, ran, ok_bind]
      exact ran'

theorem wakes_kept (sound : Sound none world) (others : Nat → List Move) :
    ∃ world', world.processWakes others = .ok world' ∧ Kept world world' ∧
      world'.inFlight = world.inFlight := by
  obtain ⟨world', ran, sound', woken⟩ := processWakes_spec others sound
  exact ⟨world', ran, .of_woken sound' woken, woken.inFlight⟩

theorem processNotices_spec (sound : Sound none world) (others : Nat → List Move)
    (signalChanged : Bool) : ∃ world', world.processNotices others signalChanged = .ok world' ∧
      Kept world world' ∧ world'.inFlight = world.inFlight := by
  rw [processNotices]
  split
  · exact wakes_kept sound others
  · exact ⟨world, rfl, .refl sound, rfl⟩

theorem maintain_spec (sound : Sound none world) (idle : world.inFlight = none)
    (others : Nat → List Move) (input : TickInput) : ∃ world',
      world.maintain others input = .ok world' ∧ Kept world world' ∧ world'.inFlight = none := by
  obtain ⟨swept, sweeps, revoked⟩ := sweepRevoked_spec sound idle
  have kept : Kept world swept := ⟨revoked.sound, revoked.unpacked, fun none' =>
    ⟨revoked.starts.trans none', revoked.flagged⟩,
    .of_aside ((aside_of_outside revoked.outside).trans rfl),
    fun _ barred => barred.revoked revoked⟩
  obtain ⟨retried, retries, kept', idle'⟩ :=
    retryDeferred_spec revoked.sound revoked.inFlight others input.signalChanged
  obtain ⟨woken, processes, kept'', idle''⟩ :=
    processNotices_spec kept'.sound others input.signalChanged
  have all := (kept.trans kept').trans kept''
  rw [maintain_eq, sweeps, ok_bind, retries, ok_bind, processes, ok_bind]
  by_cases unarmed : woken.timers.isEmpty
  · rw [if_pos unarmed]
    exact ⟨woken, rfl, all, idle''.trans idle'⟩
  · rw [if_neg unarmed]
    obtain ⟨sound', expired⟩ := expireTimers_spec input.expired kept''.sound
    obtain ⟨world', ran, more, final⟩ := wakes_kept sound' others
    exact ⟨world', ran, (all.trans (.of_woken sound' expired)).trans more,
      final.trans (expired.inFlight.trans (idle''.trans idle'))⟩

/-- Only the ready queue and the flight have changed. -/
theorem kept_choose (sound : Sound none world) (idle : world.inFlight = none)
    {ready : ReadyQueue TaskKey}
    (perm : (world.chosen.toList ++ ready.held).Perm world.ready.held) :
    Kept world { world with ready, inFlight := world.chosen } ∧
      ∀ key, world.chosen = some key →
        ∃ task, Selected key task { world with ready, inFlight := world.chosen } := by
  have sound' := sound.choose idle perm
  refine ⟨⟨sound', id, fun none' => ⟨none', fun flagged => flagged⟩,
    ⟨rfl, rfl, rfl, .refl _⟩, fun _ barred => barred.keep rfl (fun _ _ => id) fun _ => .inl⟩,
    fun key isChosen => ?_⟩
  obtain ⟨task, there, unblocked⟩ := eligible_get (chosen_eligible isChosen)
  exact ⟨task, sound', isChosen, there, unblocked⟩

/-- The task in flight was chosen among the eligible ones. -/
structure Chose (before world : World) : Prop where
  same : ∃ ready, world = { before with ready, inFlight := before.chosen }
  perm : (before.chosen.toList ++ world.ready.held).Perm before.ready.held

/-- No eligible task is ready when none was chosen. -/
theorem Chose.none_eligible {before : World} (chose : Chose before world)
    (idle : world.inFlight = none) : ∀ key ∈ world.ready.held, world.eligible key = false := by
  have perm := chose.perm
  obtain ⟨ready, rfl⟩ := chose.same
  intro key member
  exact chosen_none idle key (perm.subset (List.mem_append_right _ member))

theorem select_spec (sound : Sound none world) (idle : world.inFlight = none)
    (others : Nat → List Move) : ∃ before world', world.select others = .ok world' ∧
      Kept world world' ∧ Chose before world' ∧
      ∀ key, world'.inFlight = some key → ∃ task, Selected key task world' := by
  obtain ⟨ready, ran, perm⟩ := selectReady_spec sound
  obtain ⟨kept, selected⟩ := kept_choose sound idle perm
  rw [select, ran, ok_bind]
  split
  · rename_i again
    have none' : world.chosen = none := by
      rw [Bool.and_eq_true, Option.isNone_iff_eq_none] at again
      exact again.1
    obtain ⟨woken, ran', sound', wakes⟩ := processWakes_spec others kept.sound
    have idle' : woken.inFlight = none := wakes.inFlight.trans none'
    obtain ⟨ready', ran'', perm'⟩ := selectReady_spec sound'
    obtain ⟨kept', selected'⟩ := kept_choose sound' idle' perm'
    refine ⟨woken, _, ?_, (kept.trans (.of_woken sound' wakes)).trans kept', ⟨⟨_, rfl⟩, perm'⟩,
      selected'⟩
    rw [ran', ok_bind]
    exact ran''
  · exact ⟨world, _, rfl, kept, ⟨⟨_, rfl⟩, perm⟩, selected⟩

/-- What a tick leaves. -/
structure Ticked (world world' : World) : Prop where
  sound : Sound none world'
  inFlight : world'.inFlight = none
  unpacked : world.Unpacked → world'.Unpacked
  flagged : world.starts = [] → world.Flagged → world'.Flagged
  undisturbed : Undisturbed world world'
  barred : ∀ scope, Barred scope world → Barred scope world'

theorem mount_spec (sound : Sound none world)
    (selected : ∀ key, world.inFlight = some key → ∃ task, Selected key task world)
    (others : Nat → List Move) (turn : Turn) :
    Goes (world.mount others turn) fun result => Ticked world result.1 := by
  rw [mount]
  cases flight : world.inFlight with
  | none => exact .pure ⟨sound, flight, id, fun _ => id, .refl world, fun _ => id⟩
  | some key =>
      obtain ⟨task, selected⟩ := selected key flight
      dsimp only
      rw [selected.there, expect_some, ok_bind]
      cases world.abortReason task.scope with
      | none =>
          refine (selected.dispatch others turn).bind fun final returned => ?_
          have aside := returned.aside
          exact .pure ⟨returned.sound, returned.inFlight, fun unpacked =>
            ⟨(congrArg World.pending aside :).trans unpacked.1,
              (congrArg World.incoming aside :).trans unpacked.2⟩, fun _ => returned.flagged,
            .of_aside aside, fun scope barred => barred.returned
              (barred.apart selected.there selected.unblocked) returned⟩
      | some reason =>
          obtain ⟨final, retired, ran, aborted⟩ :=
            abort_spec sound others (some task.scope) reason
          dsimp only
          rw [ran, ok_bind]
          exact .pure ⟨aborted.sound, aborted.released selected.flight selected.there
            selected.unblocked, aborted.unpacked, fun none' flagged =>
              aborted.flagged flagged (.inl none'), aborted.undisturbed.1,
            fun scope => aborted.barred⟩

/-- The part of a tick before it mounts a task. -/
def prepareMount (others : Nat → List Move) (input : TickInput) (world : World) :
    Checked World := do
  let world ← world.maintain others input
  world.select others

theorem tick_eq (others : Nat → List Move) (input : TickInput) (world : World) :
    world.tick others input = (do
      let world ← world.prepareMount others input
      world.mount others input.turn) := by
  rw [tick, prepareMount]
  cases world.maintain others input with
  | error => rfl
  | ok => rfl

/-- The part of a tick before it mounts a task never fails. -/
theorem prepareMount_spec (sound : Sound none world) (idle : world.inFlight = none)
    (others : Nat → List Move) (input : TickInput) : ∃ before world',
      world.prepareMount others input = .ok world' ∧ Kept world world' ∧ Chose before world' ∧
      ∀ key, world'.inFlight = some key → ∃ task, Selected key task world' := by
  obtain ⟨maintained, ran, kept, idle'⟩ := maintain_spec sound idle others input
  obtain ⟨before, chosen, selects, kept', chose, selected⟩ := select_spec kept.sound idle' others
  refine ⟨before, chosen, ?_, kept.trans kept', chose, selected⟩
  rw [prepareMount, ran, ok_bind, selects]

/-- A tick fails at most where it leaves frames with a claim in flight. -/
theorem tick_spec (sound : Sound none world) (idle : world.inFlight = none)
    (others : Nat → List Move) (input : TickInput) :
    Goes (world.tick others input) fun result => Ticked world result.1 := by
  obtain ⟨-, chosen, ran, kept, -, selected⟩ := prepareMount_spec sound idle others input
  rw [tick_eq, ran, ok_bind]
  refine (mount_spec kept.sound selected others input.turn).imp fun result ticked => ?_
  exact ⟨ticked.sound, ticked.inFlight, ticked.unpacked ∘ kept.unpacked, fun none' flagged =>
    ticked.flagged (kept.flagged none').1 ((kept.flagged none').2 flagged),
    kept.undisturbed.trans ticked.undisturbed, fun scope => ticked.barred scope ∘ kept.barred scope⟩

end World

end VThread.Kernel
