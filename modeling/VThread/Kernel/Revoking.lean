import VThread.Kernel.Aborting

/-!
# The sweep of revoked tasks

Borrowed tasks whose lease is reclaimed are discarded, when a scope has been left since the
last sweep.
-/

namespace VThread.Kernel

open VThread.Lib VThread.Carrier VThread.Ready VThread.Wait

/-- Fewer tasks, and no frames reclaimed. -/
structure Sweeping (base world : World) : Prop where
  within : Within base world
  reclaimed : world.reclaimed = base.reclaimed

namespace World

variable {world : World} {key : TaskKey} {task : Task}

theorem revoked_of_get {base : World} (there : world.tasks.get key = some task)
    (before : base.tasks.get key = some task) (reclaimed : world.reclaimed = base.reclaimed) :
    world.revoked key = base.revoked key := by
  rw [revoked_eq there, revoked_eq before, reclaimed]

theorem discards_revoked {base : World} (reason : TaskFailure) (valid : Valid none base) :
    Discards revoked base.revoked reason (Sweeping base) where
  agree world key task sweeping there :=
    revoked_of_get there (sweeping.within.tasks key task there) sweeping.reclaimed
  settled world key task sweeping there isRevoked unrevoked := by
    rw [revoked_of_get there (sweeping.within.tasks key task there) sweeping.reclaimed,
      isRevoked] at unrevoked
    cases unrevoked
  retired world wait _ sweeping member isRevoked := by
    have known := sweeping.within.waits member
    exact absurd rfl (revoked_idle valid (valid.waiting.owner wait known) isRevoked wait known)
  step world world' gone sweeping all discarded := by
    refine ⟨sweeping.within.step discarded, ?_⟩
    rw [← sweeping.reclaimed]
    refine discarded.revoked fun entry member => ?_
    have there := discarded.were entry member
    rw [revoked_of_get there (sweeping.within.tasks _ _ there) sweeping.reclaimed]
    exact all entry member

/-- What a sweep leaves. -/
structure Revoked (world world' : World) : Prop where
  sound : Sound none world'
  inFlight : world'.inFlight = none
  starts : world'.starts = world.starts
  pendingAborts : world'.pendingAborts = world.pendingAborts
  unpacked : world.Unpacked → world'.Unpacked
  outside : world'.outside = { world with observedEpoch := world'.observedEpoch }.outside
  tasks : ∀ key task, world'.tasks.get key = some task → world.tasks.get key = some task
  flagged : world.Flagged → world'.Flagged
  unrevoked : world.Flagged → world.epoch ≠ world.observedEpoch →
    ∀ key task, world'.tasks.get key = some task → world'.revoked key = false

/-- A sweep never fails. -/
theorem sweepRevoked_spec (sound : Sound none world) (idle : world.inFlight = none) :
    ∃ world', world.sweepRevoked = .ok world' ∧ Revoked world world' := by
  rw [sweepRevoked]
  by_cases flag : world.hasBorrowed = true
  · by_cases quiet : world.epoch = world.observedEpoch
    · refine ⟨world, ?_, sound, idle, rfl, rfl, id, rfl, fun _ _ => id, id,
        fun _ apart => absurd quiet apart⟩
      rw [if_neg (by simp [flag]), if_pos quiet]
      rfl
    · let base : World := { world with observedEpoch := world.epoch }
      have valid : Valid none base := ⟨sound.valid.located, sound.valid.framed, sound.valid.waiting,
        sound.valid.deferring, sound.valid.noticed⟩
      have bounded : Bounded base :=
        ⟨sound.bounded.records, sound.bounded.owned, sound.bounded.borrowed⟩
      have admitted : Scoped base := ⟨sound.admitted.distinct, sound.admitted.bounded,
        sound.admitted.fresh, sound.admitted.live, sound.admitted.queued, sound.admitted.issued⟩
      have discards := discards_revoked .scopeClosed valid
      obtain ⟨swept, gone, ran, valid', sweeping, discarded, names, flight, ready, parked⟩ :=
        discardMatching_spec discards "revoked frame retained a publisher" valid
          ⟨⟨fun _ _ => id, fun _ => id⟩, rfl⟩ idle
      have outside := discarded.outside
      have isRevoked : ∀ key ∈ gone.map (·.1), base.revoked key = true := by
        intro key member
        rw [names, List.mem_append] at member
        rcases member with member | member
        · exact (List.mem_filter.mp member).2
        · obtain ⟨other, chosen, rfl⟩ := List.mem_map.mp member
          exact (List.mem_filter.mp chosen).2
      have all : ∀ key task, base.tasks.get key = some task → base.revoked key = true →
          key ∈ gone.map (·.1) := by
        intro key task there isRevoked
        have place := valid.located.mem there
        rw [show base.keys = _ from rfl, keys, idle, Option.toList_none, List.nil_append,
          ← List.append_assoc, List.mem_append] at place
        rw [names, List.mem_append]
        rcases place with place | place
        · exact .inl (List.mem_filter.mpr ⟨place, isRevoked⟩)
        · obtain ⟨other, member, rfl⟩ := List.mem_map.mp place
          exact .inr (List.mem_map_of_mem (List.mem_filter.mpr ⟨member, isRevoked⟩))
      have bounded' := discarded.bounded bounded
      have admitted' := discarded.admitted admitted
      have pendingAborts : swept.pendingAborts = world.pendingAborts :=
        (congrArg World.pendingAborts outside :)
      refine ⟨swept.refreshBorrowed, ?_, ⟨⟨valid'.located, valid'.framed, valid'.waiting,
        valid'.deferring, valid'.noticed⟩, ⟨bounded'.records, bounded'.owned, bounded'.borrowed⟩,
        ?_, ⟨admitted'.distinct, admitted'.bounded, admitted'.fresh, admitted'.live,
          admitted'.queued, admitted'.issued⟩⟩, flight, (congrArg World.starts outside :),
        pendingAborts, fun unpacked => ⟨(congrArg World.pending outside :).trans unpacked.1,
          (congrArg World.incoming outside :).trans unpacked.2⟩, ?_,
        fun key task there => (discarded.live there).2,
        fun _ => refreshBorrowed_flagged swept, fun _ _ key task there => ?_⟩
      · rw [if_neg (by simp [flag]), if_neg quiet]
        dsimp only
        rw [show discardMatching revoked _ _ _ = _ from ran, ok_bind]
        rfl
      · rw [show swept.refreshBorrowed.pendingAborts = _ from pendingAborts]
        refine ⟨sound.pending.distinct, sound.pending.alone, fun scope member => ?_⟩
        obtain ⟨index, root, there, isScope⟩ := sound.pending.rooted scope member
        refine ⟨index, root, ?_, isScope⟩
        rw [show swept.refreshBorrowed.tasks = swept.tasks from rfl, discarded.tasks, if_neg, there]
        intro member
        have borrowed := isRevoked _ member
        rw [revoked_eq (show base.tasks.get _ = some root from there)] at borrowed
        cases borrowed
      · have observed : swept.observedEpoch = world.epoch :=
          (congrArg World.observedEpoch outside :)
        change swept.outside = { world with observedEpoch := swept.observedEpoch }.outside
        rw [observed]
        exact outside
      · have kept := discarded.live there
        have unrevoked : base.revoked key = false := by
          by_contra isRevoked
          exact kept.1 (all key task kept.2 (by simpa using isRevoked))
        rw [← unrevoked]
        exact revoked_of_get there kept.2 sweeping.reclaimed
  · refine ⟨world, ?_, sound, idle, rfl, rfl, id, rfl, fun _ _ => id, id,
      fun flagged _ key task there => ?_⟩
    · rw [if_pos (by simp [flag])]
      rfl
    · rw [revoked_eq there, Bool.and_eq_false_iff]
      refine .inl ?_
      by_contra borrowed
      exact flag (flagged key task (by simpa using borrowed) there)

end World

end VThread.Kernel
