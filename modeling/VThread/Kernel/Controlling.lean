import Mathlib.Data.List.ReduceOption
import VThread.Kernel.Receiving
import VThread.Kernel.Running
import VThread.Kernel.Steps

/-!
# What the rest of the runtime does to a kernel

Scopes are opened, aborted and finished, and tasks are submitted, while no task of the carrier
runs.
-/

namespace VThread.Kernel

open VThread.Lib VThread.Carrier VThread.Ready VThread.Wait

namespace World

variable {world : World}

theorem updateScope_ids (world : World) (scope : Nat) {update : ScopeState → ScopeState}
    (same : ∀ state, (update state).id = state.id) :
    (world.updateScope scope update).scopes.map (·.id) = world.scopes.map (·.id) := by
  rw [updateScope, List.map_map]
  refine List.map_congr_left fun state _ => ?_
  rw [Function.comp_apply]
  split
  · exact same state
  · rfl

/-- The scopes of a kernel keep their numbers. -/
theorem updateScope_sound (sound : Sound none world) (scope : Nat)
    {update : ScopeState → ScopeState} (same : ∀ state, (update state).id = state.id) :
    Sound none (world.updateScope scope update) := by
  have ids := updateScope_ids world scope same
  have admitted := sound.admitted
  refine ⟨⟨sound.valid.located, sound.valid.framed, sound.valid.waiting, sound.valid.deferring,
    sound.valid.noticed⟩, ⟨sound.bounded.records, sound.bounded.owned, sound.bounded.borrowed⟩,
    sound.pending, ⟨ids ▸ admitted.distinct, ?_, fun state member => ?_, ids ▸ admitted.live,
      ids ▸ admitted.queued, ids ▸ admitted.issued⟩⟩
  · have size := congrArg List.length ids
    rw [List.length_map, List.length_map] at size
    exact Nat.le_trans (Nat.le_of_eq size) admitted.bounded
  · have known : state.id ∈ world.scopes.map (·.id) := ids ▸ List.mem_map_of_mem member
    obtain ⟨before, isBefore, sameId⟩ := List.mem_map.mp known
    exact sameId ▸ admitted.fresh before isBefore

theorem beginOwned_sound (sound : Sound none world) (supervised : Bool) :
    Sound none (world.beginOwned supervised) := by
  rw [beginOwned]
  split
  · rename_i allowed
    have admitted := sound.admitted
    have more : ∀ scope, scope ∈ world.scopes.map (·.id) →
        scope ∈ (world.scopes ++ [(⟨world.nextScope, true, none⟩ : ScopeState)]).map (·.id) := by
      intro scope member
      rw [List.map_append]
      exact List.mem_append_left _ member
    refine ⟨⟨sound.valid.located, sound.valid.framed, sound.valid.waiting, sound.valid.deferring,
      sound.valid.noticed⟩, ⟨sound.bounded.records, sound.bounded.owned, sound.bounded.borrowed⟩,
      sound.pending, ⟨?_, ?_, fun state member => ?_,
        fun key task there => more _ (admitted.live key task there),
        fun task member => more _ (admitted.queued task member),
        fun packet member => more _ (admitted.issued packet member)⟩⟩
    · rw [List.map_append, List.nodup_append]
      refine ⟨admitted.distinct, List.nodup_singleton _, ?_⟩
      rintro scope member _ isNew rfl
      obtain ⟨state, known, rfl⟩ := List.mem_map.mp member
      rw [List.map_singleton, List.mem_singleton] at isNew
      exact Nat.ne_of_lt (admitted.fresh state known) isNew
    · rw [List.length_append, List.length_singleton]
      exact allowed.2.2
    · rcases List.mem_append.mp member with member | isNew
      · exact Nat.lt_succ_of_lt (admitted.fresh state member)
      · rw [List.mem_singleton.mp isNew]
        exact Nat.lt_succ_self _
  · exact sound

theorem submit_sound (sound : Sound none world) (scope : Nat) :
    Sound none (world.submit scope) := by
  rw [submit]
  split
  · rename_i allowed
    obtain ⟨-, ⟨state, known, isScope, -⟩, room⟩ := allowed
    rw [Inbox.push]
    split
    · exact sound
    · rename_i inbox first pushed
      split at pushed
      · cases pushed
      · cases pushed
        have valid := sound.valid
        have framed := valid.framed
        have admitted := sound.admitted
        have next := Nat.le_succ world.nextTask
        have packets : ∀ packet ∈ world.pending.toList ++ (world.incoming ++
            (world.inbox.state.starts ++ [⟨world.nextTask, scope⟩])),
            packet ∈ world.packets ∨ packet = ⟨world.nextTask, scope⟩ := by
          intro packet member
          simp only [World.packets, List.mem_append, List.mem_singleton] at member ⊢
          tauto
        refine ⟨⟨valid.located, ⟨fun key task there => (framed.live key task there).mono next,
          fun task member => (framed.queued task member).mono next, fun packet member => ?_,
          framed.liveRooted, framed.queuedRooted, framed.children⟩, valid.waiting,
          valid.deferring, valid.noticed⟩, ⟨?_, sound.bounded.owned, sound.bounded.borrowed⟩,
          sound.pending, ⟨admitted.distinct, admitted.bounded, admitted.fresh, admitted.live,
            admitted.queued, fun packet member => ?_⟩⟩
        · rcases packets packet member with member | rfl
          · exact Nat.lt_succ_of_lt (framed.issued packet member)
          · exact Nat.lt_succ_self _
        · rw [recordCount] at room ⊢
          simp only [Inbox.setStarts, List.length_append, List.length_singleton] at room ⊢
          omega
        · rcases packets packet member with member | rfl
          · exact admitted.issued packet member
          · exact List.mem_map.mpr ⟨state, known, isScope⟩
  · exact sound

theorem drained_live {scope : Nat} (drained : world.Drained scope) {key : TaskKey} {task : Task}
    (there : world.tasks.get key = some task) : task.scope ≠ scope := by
  refine drained.2.2 task (List.mem_append.mpr ?_)
  cases key with
  | owned index =>
      exact .inl (List.reduceOption_mem_iff.mpr
        (List.mem_of_getElem? (TaskSlab.get_eq_some.mp there)))
  | borrowed index =>
      exact .inr (List.reduceOption_mem_iff.mpr
        (List.mem_of_getElem? (TaskSlab.get_eq_some.mp there)))

theorem finishScope_sound (sound : Sound none world) (scope : Nat) :
    Sound none (world.finishScope scope) := by
  rw [finishScope]
  split
  · rename_i drained
    have admitted := sound.admitted
    have kept : ∀ other ∈ world.scopes.map (·.id), other ≠ scope →
        other ∈ (world.scopes.filter (·.id ≠ scope)).map (·.id) := by
      intro other member apart
      obtain ⟨state, known, rfl⟩ := List.mem_map.mp member
      exact List.mem_map_of_mem (List.mem_filter.mpr ⟨known, by simpa using apart⟩)
    refine ⟨⟨sound.valid.located, sound.valid.framed, sound.valid.waiting, sound.valid.deferring,
      sound.valid.noticed⟩, ⟨sound.bounded.records, sound.bounded.owned, sound.bounded.borrowed⟩,
      sound.pending, ⟨admitted.distinct.sublist (List.filter_sublist.map _),
        (List.length_filter_le _ _).trans admitted.bounded,
        fun state member => admitted.fresh state (List.mem_filter.mp member).1,
        fun key task there => kept _ (admitted.live key task there) (drained_live drained there),
        fun task member => kept _ (admitted.queued task member) (drained.2.1 task member),
        fun packet member => kept _ (admitted.issued packet member) (drained.1 packet ?_)⟩⟩
    simp only [packets, Inbox.clearAbort, Inbox.setAbort, List.mem_append] at member ⊢
    tauto
  · exact sound

theorem abortScope_sound (sound : Sound none world) (scope : Nat) (reason : TaskFailure) :
    Sound none (world.abortScope scope reason) := by
  rw [abortScope]
  split
  · have updated := @updateScope_sound world sound scope (fun state =>
      { state with aborting := some reason, admitting := false }) fun _ => rfl
    have admitted := updated.admitted
    exact ⟨⟨updated.valid.located, updated.valid.framed, updated.valid.waiting,
      updated.valid.deferring, updated.valid.noticed⟩, ⟨updated.bounded.records,
      updated.bounded.owned, updated.bounded.borrowed⟩, updated.pending, ⟨admitted.distinct,
        admitted.bounded, admitted.fresh, admitted.live, admitted.queued, admitted.issued⟩⟩
  · exact sound

/-- The rest of the runtime keeps what holds of a kernel. -/
theorem control_sound (sound : Sound none world) (control : Control) :
    Sound none (world.control control) := by
  cases control with
  | beginOwned supervised => exact beginOwned_sound sound supervised
  | submit scope => exact submit_sound sound scope
  | abortScope scope reason => exact abortScope_sound sound scope reason
  | closeScope scope => exact updateScope_sound sound scope fun _ => rfl
  | finishScope scope => exact finishScope_sound sound scope
  | requestStop | stopInbox =>
      have admitted := sound.admitted
      exact ⟨⟨sound.valid.located, sound.valid.framed, sound.valid.waiting, sound.valid.deferring,
        sound.valid.noticed⟩, ⟨sound.bounded.records, sound.bounded.owned,
        sound.bounded.borrowed⟩, sound.pending, ⟨admitted.distinct, admitted.bounded,
          admitted.fresh, admitted.live, admitted.queued, admitted.issued⟩⟩

/-- What the rest of the runtime leaves alone. -/
theorem control_same (world : World) (control : Control) :
    ∃ inbox scopes activeScope accepting nextScope nextTask, world.control control = { world with
      inbox, scopes, activeScope, accepting, nextScope, nextTask } := by
  cases control with
  | beginOwned =>
      rw [World.control, beginOwned]
      split <;> exact ⟨_, _, _, _, _, _, rfl⟩
  | submit scope =>
      rw [World.control, submit]
      split
      · split <;> exact ⟨_, _, _, _, _, _, rfl⟩
      · exact ⟨_, _, _, _, _, _, rfl⟩
  | abortScope =>
      rw [World.control, abortScope]
      split <;> exact ⟨_, _, _, _, _, _, rfl⟩
  | closeScope | requestStop | stopInbox => exact ⟨_, _, _, _, _, _, rfl⟩
  | finishScope scope =>
      rw [World.control, finishScope]
      split <;> exact ⟨_, _, _, _, _, _, rfl⟩

end World

end VThread.Kernel
