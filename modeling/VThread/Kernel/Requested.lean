import VThread.Kernel.Calls

/-!
# Aborted scopes over whole runs

Aborts are requested only of scopes that admit no more tasks.  Once an abort of its scope has
been attempted, a task is never dispatched again.
-/

namespace VThread.Kernel

open VThread.Lib VThread.Carrier VThread.Ready VThread.Wait

/-! ## The rest of the runtime -/

/-- A scope that admits no task stays so. -/
theorem Closed.control {scope : Nat} {world : World} (closed : Closed scope world)
    (control : Control) : Closed scope (world.control control) := by
  obtain ⟨old, shut⟩ := closed
  have updated : ∀ other (update : ScopeState → ScopeState),
      (∀ state, (update state).id = state.id) →
      (∀ state, state.aborting ≠ none → (update state).aborting ≠ none) →
      (∀ state ∈ world.scopes, state.id = scope → state.aborting ≠ none) →
      ∀ state ∈ (world.updateScope other update).scopes, state.id = scope →
        state.aborting ≠ none := by
    intro other update same keeps all state member isScope
    obtain ⟨before, known, rfl⟩ := List.mem_map.mp member
    by_cases isOther : before.id = other
    · rw [if_pos isOther] at isScope ⊢
      exact keeps before (all before known (same before ▸ isScope))
    · rw [if_neg isOther] at isScope ⊢
      exact all before known isScope
  cases control with
  | beginOwned =>
      rw [World.control, World.beginOwned]
      split
      · refine ⟨Nat.lt_succ_of_lt old, shut.imp_right (Or.imp_right fun all state member => ?_)⟩
        rcases List.mem_append.mp member with member | isNew
        · exact all state member
        · rw [List.mem_singleton.mp isNew]
          exact fun same => absurd same (Nat.ne_of_gt old)
      · exact ⟨old, shut⟩
  | submit other =>
      rw [World.control, World.submit]
      split
      · rw [Inbox.push]
        split
        · exact ⟨old, shut⟩
        · rename_i inbox first pushed
          split at pushed
          · cases pushed
          · cases pushed
            exact ⟨old, shut⟩
      · exact ⟨old, shut⟩
  | abortScope other reason =>
      rw [World.control, World.abortScope]
      split
      · exact ⟨old, shut.imp_right
          (Or.imp_right (updated other _ (fun _ => rfl) (fun _ _ => by rintro ⟨⟩)))⟩
      · exact ⟨old, shut⟩
  | closeScope other =>
      exact ⟨old, shut.imp_right (Or.imp_right (updated other _ (fun _ => rfl) (fun _ => id)))⟩
  | finishScope other =>
      rw [World.control, World.finishScope]
      split
      · exact ⟨old, shut.imp_right (Or.imp_right fun all state member =>
          all state (List.mem_filter.mp member).1)⟩
      · exact ⟨old, shut⟩
  | requestStop => exact ⟨old, .inl rfl⟩
  | stopInbox => exact ⟨old, .inr (.inl ⟨rfl, rfl⟩)⟩

/-- No packet of a scope that admits no task is submitted. -/
theorem Closed.packets {scope : Nat} {world : World} (closed : Closed scope world)
    (control : Control) {packet : SpawnPacket}
    (member : packet ∈ (world.control control).packets) :
    packet ∈ world.packets ∨ packet.scope ≠ scope := by
  cases control with
  | submit other =>
      rw [World.control, World.submit] at member
      split at member
      · rename_i allowed
        obtain ⟨accepting, ⟨state, known, isOther, -, running⟩, -⟩ := allowed
        rw [Inbox.push] at member
        split at member
        · exact .inl member
        · rename_i inbox first pushed
          split at pushed
          · cases pushed
          · rename_i open'
            cases pushed
            have either : packet ∈ world.packets ∨ packet = ⟨world.nextTask, other⟩ := by
              simp only [World.packets, Inbox.setStarts, List.mem_append,
                List.mem_singleton] at member ⊢
              tauto
            refine either.imp_right ?_
            rintro rfl rfl
            rcases closed.shut with refuses | ⟨stopped, -⟩ | all
            · rw [accepting] at refuses
              cases refuses
            · exact open' (.inl stopped)
            · exact all state known isOther running
      · exact .inl member
  | beginOwned =>
      rw [World.control, World.beginOwned] at member
      split at member <;> exact .inl member
  | abortScope =>
      rw [World.control, World.abortScope] at member
      split at member <;> exact .inl member
  | finishScope other =>
      rw [World.control, World.finishScope] at member
      split at member <;> exact .inl member
  | _ => exact .inl member

theorem Barred.control {scope : Nat} {world : World} (barred : Barred scope world)
    (control : Control) : Barred scope (world.control control) := by
  refine ⟨barred.closed.control control, fun packet member => ?_, ?_, ?_⟩
  · exact (barred.closed.packets control member).elim (barred.packets packet) id
  · obtain ⟨_, _, _, _, _, _, same⟩ := world.control_same control
    rw [same]
    exact barred.starts
  · obtain ⟨_, _, _, _, _, _, same⟩ := world.control_same control
    rw [same]
    exact barred.held

/-! ## Requests -/

/-- Aborts are requested only of scopes that admit no task, and a stopped carrier gets none. -/
structure Requested (world : World) : Prop where
  closed : ∀ request ∈ world.inbox.state.abort, Closed request.1 world
  stopped : world.inbox.stopped = true → world.inbox.state.stopped = true

namespace Requested

variable {world world' : World}

theorem undisturbed (requested : Requested world) (same : Undisturbed world world') :
    Requested world' := by
  obtain ⟨_, _, inbox⟩ := same.inbox
  refine ⟨fun request member => ?_, ?_⟩
  · rw [inbox] at member
    exact (requested.closed request member).undisturbed same
  · rw [inbox]
    exact requested.stopped

theorem takeAbort (requested : Requested world) :
    Requested { world with inbox := world.inbox.takeAbort } :=
  ⟨fun request member => by
    have closed := requested.closed request (List.mem_of_mem_tail member)
    exact ⟨closed.old, closed.shut⟩, requested.stopped⟩

theorem mem_insertAbort {scope : Nat} {reason : TaskFailure} {aborts : List (Nat × TaskFailure)}
    {request : Nat × TaskFailure} (member : request ∈ Inbox.insertAbort scope reason aborts) :
    request = (scope, reason) ∨ request ∈ aborts := by
  induction aborts with
  | nil => exact .inl (List.mem_singleton.mp member)
  | cons entry rest ih =>
      obtain ⟨other, kept⟩ := entry
      rw [Inbox.insertAbort] at member
      split at member
      · exact List.mem_cons.mp member
      · split at member
        · exact (List.mem_cons.mp member).imp_right (List.mem_cons_of_mem _)
        · rcases List.mem_cons.mp member with rfl | member
          · exact .inr List.mem_cons_self
          · exact (ih member).imp_right (List.mem_cons_of_mem _)

theorem of_inbox (requested : Requested world) (inbox : OnlyStarts world.inbox world'.inbox)
    (closed : ∀ request ∈ world.inbox.state.abort, Closed request.1 world') :
    Requested world' := by
  obtain ⟨_, _, same⟩ := inbox
  refine ⟨fun request member => ?_, ?_⟩
  · rw [same] at member
    exact closed request member
  · rw [same]
    exact requested.stopped

theorem control (requested : Requested world) (admitted : Scoped world) (control : Control) :
    Requested (world.control control) := by
  have kept : ∀ request ∈ world.inbox.state.abort, Closed request.1 (world.control control) :=
    fun request member => (requested.closed request member).control control
  cases control with
  | beginOwned =>
      refine requested.of_inbox ?_ kept
      rw [World.control, World.beginOwned]
      split <;> exact .refl _
  | submit scope =>
      refine requested.of_inbox ?_ kept
      rw [World.control, World.submit, Inbox.push]
      split
      · split
        · exact .refl _
        · rename_i inbox first pushed
          split at pushed
          · cases pushed
          · cases pushed
            exact ⟨_, _, rfl⟩
      · exact .refl _
  | abortScope scope reason =>
      rw [World.control, World.abortScope] at kept ⊢
      split
      · rename_i known
        rw [if_pos known] at kept
        refine ⟨fun request member => ?_, requested.stopped⟩
        rcases mem_insertAbort member with rfl | member
        · obtain ⟨state, isState, same⟩ := List.any_eq_true.mp known
          refine ⟨(beq_iff_eq.mp same) ▸ admitted.fresh state isState, .inr (.inr ?_)⟩
          intro updated member isScope
          obtain ⟨before, -, rfl⟩ := List.mem_map.mp member
          by_cases isBefore : before.id = scope
          · rw [if_pos isBefore]
            rintro ⟨⟩
          · rw [if_neg isBefore] at isScope
            exact absurd isScope isBefore
        · exact kept request member
      · exact requested
  | closeScope | requestStop => exact requested.of_inbox (.refl _) kept
  | finishScope scope =>
      rw [World.control, World.finishScope] at kept ⊢
      split
      · rename_i drained
        rw [if_pos drained] at kept
        exact ⟨fun request member => kept request (List.mem_filter.mp member).1,
          requested.stopped⟩
      · exact requested
  | stopInbox => exact ⟨kept, fun _ => rfl⟩

end Requested

/-! ## Steps of the drive loop -/

namespace Drive.Takes

variable {choice : Choice} {drive drive' : Drive} {scope : Nat}

/-- A step keeps requests to scopes that admit no task. -/
theorem requested (taken : Takes choice drive drive') (steady : Steady drive.world)
    (requested : Requested drive.world) : Requested drive'.world := by
  have sound := steady.sound
  cases taken with
  | moves others =>
      obtain ⟨sound', woken⟩ := sound.pause others
      exact requested.undisturbed (Kept.of_woken sound' woken).undisturbed
  | control control => exact requested.control sound.admitted control
  | signal _ => exact requested
  | takeAbort requests ran =>
      obtain ⟨_, _, ran', aborted⟩ := World.abort_spec steady.takeAbort.sound _ _ _
      rw [ran] at ran'
      cases ran'
      exact requested.takeAbort.undisturbed aborted.undisturbed.1
  | receiveAll quiet ran =>
      obtain ⟨_, ran', -, -, received, -⟩ := World.receive_spec sound steady.unpacked _
      rw [ran] at ran'
      cases ran'
      exact requested.undisturbed received.undisturbed.1
  | receive ran =>
      obtain ⟨_, ran', -, -, received, -⟩ := World.receive_spec sound steady.unpacked _
      rw [ran] at ran'
      cases ran'
      exact requested.undisturbed received.undisturbed.1
  | receiveLocal world =>
      exact requested.undisturbed (World.receiveLocal_spec sound).2.1.undisturbed.1
  | abortAll stopped ran =>
      obtain ⟨_, _, ran', aborted⟩ := World.abort_spec sound _ _ _
      rw [ran] at ran'
      cases ran'
      exact requested.undisturbed aborted.undisturbed.1
  | tick ran =>
      exact requested.undisturbed
        ((World.tick_spec sound steady.inFlight _ _).of_eq ran).undisturbed
  | observeIdle world => exact requested.undisturbed ⟨rfl, rfl, rfl, .refl _⟩

/-- A step keeps a scope barred. -/
theorem barred (taken : Takes choice drive drive') (steady : Steady drive.world)
    (barred : Barred scope drive.world) : Barred scope drive'.world := by
  have sound := steady.sound
  cases taken with
  | moves others =>
      obtain ⟨sound', woken⟩ := sound.pause others
      exact barred.woken woken
  | control control => exact barred.control control
  | signal _ => exact barred
  | takeAbort requests ran =>
      obtain ⟨_, _, ran', aborted⟩ := World.abort_spec steady.takeAbort.sound _ _ _
      rw [ran] at ran'
      cases ran'
      have closed := barred.closed
      exact aborted.barred ⟨⟨closed.old, closed.shut⟩, barred.packets, barred.starts, barred.held⟩
  | receiveAll quiet ran =>
      obtain ⟨_, ran', -, -, received, -⟩ := World.receive_spec sound steady.unpacked _
      rw [ran] at ran'
      cases ran'
      exact barred.received received
  | receive ran =>
      obtain ⟨_, ran', -, -, received, -⟩ := World.receive_spec sound steady.unpacked _
      rw [ran] at ran'
      cases ran'
      exact barred.received received
  | receiveLocal world => exact barred.received (World.receiveLocal_spec sound).2.1
  | abortAll stopped ran =>
      obtain ⟨_, _, ran', aborted⟩ := World.abort_spec sound _ _ _
      rw [ran] at ran'
      cases ran'
      exact aborted.barred barred
  | tick ran => exact ((World.tick_spec sound steady.inFlight _ _).of_eq ran).barred scope barred
  | observeIdle world =>
      exact ⟨⟨barred.closed.old, barred.closed.shut⟩, barred.packets, barred.starts, barred.held⟩

end Drive.Takes

/-- Aborts are requested only of scopes that admit no task. -/
theorem requested_of_drive {config : Config} {drive : Drive}
    (reachable : Reachable config drive) : Requested drive.world := by
  refine @System.Reachable.induct _ _ (fun drive : Drive => Requested drive.world) ?_ ?_ drive
    reachable
  · rintro _ rfl
    exact ⟨by simp [World.new, Inbox.new], by simp [World.new, Inbox.new]⟩
  · rintro drive drive' before requested ⟨choice, taken⟩
    exact (Drive.next_takes taken).requested (steady_of_drive before) requested

/-! ## Attempts -/

/-- A step attempts an abort of the scope. -/
inductive Drive.Aborts (scope : Nat) : Choice → Drive → Prop where
  | request {others : Nat → List Move} {world : World} {reason : TaskFailure}
      {rest : List (Nat × TaskFailure)} : world.inbox.state.abort = (scope, reason) :: rest →
      Aborts scope (.takeAbort others) ⟨world, .draining⟩
  | all {others : Nat → List Move} {world : World} : scope < world.nextScope →
      Aborts scope (.abortAll others) ⟨world, .top⟩
  | mounted {others : Nat → List Move} {expired : List ParkToken} {turn : Turn} {changed : Bool}
      {world mounting : World} {key : TaskKey} {task : Task} {reason : TaskFailure} :
      world.prepareMount others ⟨changed, expired, turn⟩ = .ok mounting →
      mounting.inFlight = some key → mounting.tasks.get key = some task → task.scope = scope →
      mounting.abortReason scope = some reason →
      Aborts scope (.tick others expired turn) ⟨world, .ticking changed⟩

/-- A reason to abort the scope of a live task is found only once the scope admits no task. -/
theorem closed_of_reason {world : World} {key : TaskKey} {task : Task} {reason : TaskFailure}
    (admitted : Scoped world) (there : world.tasks.get key = some task)
    (found : world.abortReason task.scope = some reason) : Closed task.scope world := by
  obtain ⟨state, known, isScope⟩ := List.mem_map.mp (admitted.live key task there)
  refine ⟨isScope ▸ admitted.fresh state known, ?_⟩
  rw [World.abortReason] at found
  split at found
  · rename_i refuses
    exact .inl (by simpa using refuses)
  · obtain ⟨other, isOther, aborting⟩ := Option.bind_eq_some_iff.mp found
    have otherScope : other.id = task.scope := by simpa using List.find?_some isOther
    refine .inr (.inr fun third member same => ?_)
    rw [List.inj_on_of_nodup_map admitted.distinct member (List.mem_of_find?_eq_some isOther)
      (same.trans otherScope.symm), aborting]
    exact Option.some_ne_none reason

/-- A scope is barred as soon as its abort was attempted. -/
theorem Drive.Takes.bars {choice : Choice} {drive drive' : Drive} {scope : Nat}
    (taken : Drive.Takes choice drive drive') (aborts : Drive.Aborts scope choice drive)
    (steady : Steady drive.world) (requested : Requested drive.world) :
    Barred scope drive'.world := by
  have sound := steady.sound
  cases aborts with
  | request asks =>
      cases taken with
      | takeAbort requests ran =>
          rw [asks] at requests
          cases requests
          obtain ⟨_, _, ran', aborted⟩ := World.abort_spec steady.takeAbort.sound _ _ _
          rw [ran] at ran'
          cases ran'
          have closed := requested.closed (scope, _) (asks ▸ List.mem_cons_self)
          refine aborted.bars ?_ ⟨closed.old, closed.shut⟩
          rw [inScope, Option.all_some, beq_self_eq_true]
  | all old =>
      cases taken with
      | abortAll stopped ran =>
          obtain ⟨_, _, ran', aborted⟩ := World.abort_spec sound _ _ _
          rw [ran] at ran'
          cases ran'
          exact aborted.bars rfl ⟨old, .inr (.inl ⟨requested.stopped stopped, stopped⟩)⟩
  | mounted prepares flight there isScope found =>
      cases taken with
      | tick ran =>
          subst isScope
          obtain ⟨-, _, prepares', kept, -⟩ :=
            World.prepareMount_spec sound steady.inFlight _ _
          rw [prepares] at prepares'
          cases prepares'
          rename_i others expired turn changed world mounting key task reason world' progress
          obtain ⟨final, retired, aborts, aborted⟩ :=
            World.abort_spec kept.sound others (some task.scope) reason
          rw [World.tick_eq, prepares, ok_bind, World.mount, flight] at ran
          dsimp only at ran
          rw [there, expect_some, ok_bind, found] at ran
          dsimp only at ran
          rw [aborts, ok_bind] at ran
          cases ran
          refine aborted.bars ?_ (closed_of_reason kept.sound.admitted there found)
          rw [inScope, Option.all_some, beq_self_eq_true]

end VThread.Kernel
