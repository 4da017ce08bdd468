import VThread.Kernel.Deferral

/-!
# Aborts

An abort that can retire every generation of its scope discards exactly the tasks of the scope.
Any other becomes pending, and no task of its scope is discarded.
-/

namespace VThread.Kernel

open VThread.Lib VThread.Carrier VThread.Ready VThread.Wait

/-- What holds of a kernel between the parts of a step. -/
structure Sound (running : Option TaskKey) (world : World) : Prop where
  valid : Valid running world
  bounded : Bounded world
  pending : Pending world.tasks world.pendingAborts
  admitted : Scoped world

namespace World

variable {world world' : World} {scope : Option Nat} {reason : TaskFailure}

/-! ## Deferral -/

theorem flightIn_eq (valid : Valid none world) (scope : Option Nat) :
    world.flightIn scope = .ok (world.inFlight.any (world.keyIn scope)) := by
  rw [flightIn]
  cases flight : world.inFlight with
  | none => rfl
  | some key =>
      obtain ⟨task, there⟩ := @Located.get _ _ key valid.located (by simp [keys, flight])
      simp only [there, expect_some, ok_bind, Option.any_some, keyIn_eq there]
      rfl

theorem returnFlight_spec (valid : Valid none world) (scope : Option Nat) :
    ∃ ready, world.returnFlight scope = .ok { world with
        ready, inFlight := world.inFlight.filter (!world.keyIn scope ·) } ∧
      Valid none
        { world with ready, inFlight := world.inFlight.filter (!world.keyIn scope ·) } ∧
      (world.inFlight = none → ready = world.ready) := by
  rw [returnFlight, flightIn_eq valid, ok_bind]
  by_cases isIn : world.inFlight.any (world.keyIn scope) = true
  · obtain ⟨key, flight, isKey⟩ := (Option.any_eq_true _ _).mp isIn
    have left : world.inFlight.filter (!world.keyIn scope ·) = none := by
      rw [flight, Option.filter, isKey]
      rfl
    refine ⟨world.ready.pushFront key, ?_, ?_, by simp [flight]⟩
    · rw [if_pos isIn, left, flight, expect_some, ok_bind]
      rfl
    · rw [left]
      refine ⟨valid.located.perm ?_, valid.framed, valid.waiting, valid.deferring, valid.noticed⟩
      simp [keys, flight, ReadyQueue.pushFront]
  · have left : world.inFlight.filter (!world.keyIn scope ·) = world.inFlight := by
      cases flight : world.inFlight with
      | none => rfl
      | some key =>
          rw [flight, Option.any_some, Bool.not_eq_true] at isIn
          rw [Option.filter, isIn]
          rfl
    refine ⟨world.ready, ?_, ?_, fun _ => rfl⟩
    · rw [if_neg isIn, left]
      rfl
    · rw [left]
      exact valid

/-- An abort has become pending. -/
structure Deferral (scope : Option Nat) (reason : TaskFailure) (world world' : World) : Prop where
  same : ∃ pendingAborts ready inFlight,
    world' = { world with pendingAborts, ready, inFlight }
  sound : Sound none world'
  covered : ∀ other, inScope scope other = true → world'.blocked other = true
  blocked : ∀ other, world.blocked other = true → world'.blocked other = true
  pushed : none ∈ world.pendingAborts.map (·.1) ∧ scope ≠ none ∧ world' = world ∨
    Pushed scope reason world.pendingAborts world'.pendingAborts ∧
      world'.inFlight = world.inFlight.filter (!world.keyIn scope ·)

theorem deferAbort_spec (sound : Sound none world)
    (rooted : ∀ other, scope = some other → HasOwned world.tasks other) :
    ∃ world', world.deferAbort scope reason = .ok world' ∧
      Deferral scope reason world world' := by
  rw [deferAbort]
  by_cases all : scope ≠ none ∧ none ∈ world.pendingAborts.map (·.1)
  · obtain ⟨some, covered⟩ := all
    refine ⟨world, ?_, ⟨_, _, _, rfl⟩, sound, fun other _ => (world.blocked_iff other).mpr
      (.inl covered), fun _ => id, .inl ⟨covered, some, rfl⟩⟩
    obtain ⟨entry, member, same⟩ := List.mem_map.mp covered
    rw [if_pos]
    · rfl
    · rw [Bool.and_eq_true, List.any_eq_true]
      exact ⟨Option.isSome_iff_ne_none.mpr some, entry, member, by rw [same]; rfl⟩
  · have uncovered : scope ≠ none → none ∉ world.pendingAborts.map (·.1) :=
      fun some covered => all ⟨some, covered⟩
    obtain ⟨pendingAborts, pushes, pending, pushed⟩ :=
      @pushAbort_spec world scope reason sound.pending sound.admitted rooted uncovered
    have valid : Valid none { world with pendingAborts } :=
      ⟨sound.valid.located, sound.valid.framed, sound.valid.waiting, sound.valid.deferring,
        sound.valid.noticed⟩
    obtain ⟨ready, returned, valid', -⟩ := returnFlight_spec valid scope
    have isNew : ¬ (scope.isSome && world.pendingAborts.any (·.1.isNone)) = true := by
      rw [Bool.and_eq_true, List.any_eq_true]
      rintro ⟨some, entry, member, isNone⟩
      exact uncovered (Option.isSome_iff_ne_none.mp some)
        (List.mem_map.mpr ⟨entry, member, Option.isNone_iff_eq_none.mp isNone⟩)
    refine ⟨_, ?_, ⟨_, _, _, rfl⟩, ⟨valid', ?_, pending, ?_⟩, fun other isIn => ?_,
      fun other blocks => ?_, .inr ⟨pushed, rfl⟩⟩
    · rw [if_neg isNew, pushes, ok_bind, returned]
    · exact ⟨sound.bounded.records, sound.bounded.owned, sound.bounded.borrowed⟩
    · have admitted := sound.admitted
      exact ⟨admitted.distinct, admitted.bounded, admitted.fresh, admitted.live, admitted.queued,
        admitted.issued⟩
    · rw [blocked_iff]
      cases scope with
      | none => exact .inl pushed.covers
      | some scope =>
          rw [inScope, Option.all_some, beq_iff_eq] at isIn
          exact .inr (isIn ▸ pushed.covers)
    · rw [blocked_iff] at blocks ⊢
      by_cases isNone : scope = none
      · exact .inl (isNone ▸ pushed.covers)
      · exact blocks.imp (pushed.keeps isNone _) (pushed.keeps isNone _)

end World

/-! ## Reclamation -/

/-- Fewer tasks and generations than before. -/
structure Within (base world : World) : Prop where
  tasks : ∀ key task, world.tasks.get key = some task → base.tasks.get key = some task
  waits : world.waits ⊆ base.waits

theorem Within.step {base world world' : World} {reason : TaskFailure}
    {gone : List (TaskKey × Task)} (within : Within base world)
    (discarded : Discarded reason world world' gone) : Within base world' where
  tasks key task there := within.tasks key task (discarded.live there).2
  waits _ member := within.waits (discarded.waits.subset member)

/-- The tasks of a scope can be discarded once its generations are settled. -/
theorem discards_scope {base : World} {scope : Option Nat} (reason : TaskFailure)
    (valid : Valid none base) (settled : Settled scope base.waits) :
    Discards (World.keyIn scope) (base.keyIn scope) reason (Within base) where
  agree world key task within there := by
    rw [World.keyIn_eq there, World.keyIn_eq (within.tasks key task there)]
  settled world key task within there isIn _ wait member uses := by
    have known := within.waits member
    have descends := valid.framed.live _ _ (valid.waiting.owner wait known)
    obtain ⟨frames, inside, same⟩ := List.any_eq_true.mp uses
    rw [List.contains_iff_mem, List.mem_singleton] at same
    refine settled wait known ?_
    rw [← descends.scope frames inside, same]
    rwa [World.keyIn_eq (within.tasks key task there)] at isIn
  retired world wait _ within member isIn := by
    have known := within.waits member
    rw [World.keyIn_eq (valid.waiting.owner wait known)] at isIn
    exact settled wait known isIn
  step world world' gone within _ discarded := within.step discarded

theorem Discarded.bounded {world world' : World} {reason : TaskFailure}
    {gone : List (TaskKey × Task)} (discarded : Discarded reason world world' gone)
    (bounded : Bounded world) : Bounded world' := by
  have outside := discarded.outside
  have config : world'.config = world.config := (congrArg World.config outside :)
  have pending : world'.pending = world.pending := (congrArg World.pending outside :)
  have incoming : world'.incoming = world.incoming := (congrArg World.incoming outside :)
  have starts : world'.starts = world.starts := (congrArg World.starts outside :)
  have inbox : world'.inbox = world.inbox := (congrArg World.inbox outside :)
  have capacity := discarded.capacity
  rw [KernelTasks.capacity, KernelTasks.capacity, Prod.mk.injEq] at capacity
  refine ⟨?_, ?_, ?_⟩
  · have records := bounded.records
    have size := discarded.size
    simp only [World.recordCount, config, pending, incoming, starts, inbox,
      discarded.retained] at records ⊢
    omega
  · rw [capacity.1, config]
    exact bounded.owned
  · rw [capacity.2, config]
    exact bounded.borrowed

theorem Discarded.admitted {world world' : World} {reason : TaskFailure}
    {gone : List (TaskKey × Task)} (discarded : Discarded reason world world' gone)
    (admitted : Scoped world) : Scoped world' := by
  have outside := discarded.outside
  have scopes : world'.scopes = world.scopes := (congrArg World.scopes outside :)
  have config : world'.config = world.config := (congrArg World.config outside :)
  have nextScope : world'.nextScope = world.nextScope := (congrArg World.nextScope outside :)
  have starts : world'.starts = world.starts := (congrArg World.starts outside :)
  have packets : world'.packets = world.packets := (congrArg World.packets outside :)
  exact ⟨scopes ▸ admitted.distinct, by rw [scopes, config]; exact admitted.bounded,
    by rw [scopes, nextScope]; exact admitted.fresh, fun key task there => by
      rw [scopes]
      exact admitted.live key task (discarded.live there).2,
    by rw [starts, scopes]; exact admitted.queued, by rw [packets, scopes]; exact admitted.issued⟩

/-- What `abort` leaves of a kernel whose generations of the scope are settled. -/
structure Reclaimed (scope : Option Nat) (reason : TaskFailure) (world world' : World)
    (gone : List (TaskKey × Task)) : Prop where
  sound : Sound none world'
  discarded : Discarded reason { world with
    pendingAborts := world.pendingAborts.filter fun entry => scope.isSome && entry.1 != scope }
    world' gone
  exact : ∀ key, key ∈ gone.map (·.1) ↔ world.keyIn scope key = true
  inFlight : world'.inFlight = world.inFlight.filter (!world.keyIn scope ·)
  normal : world'.ready.normal = world.ready.normal.filter (!world.keyIn scope ·)
  wakes : world'.ready.wakes = world.ready.wakes.filter (!world.keyIn scope ·)
  parked : world'.parked = world.parked.filter (!world.keyIn scope ·.task)
  flagged : world'.Flagged

namespace World

variable {world world' : World} {scope : Option Nat} {reason : TaskFailure}

/-- The task in flight is discarded, when it belongs to the scope. -/
theorem discardFlight_spec {base : World} (valid : Valid none world)
    (discards : Discards (keyIn scope) (base.keyIn scope) reason (Within base))
    (within : Within base world) :
    ∃ world' gone, world.discardFlight scope reason = .ok world' ∧
      Valid none world' ∧ Within base world' ∧ Discarded reason world world' gone ∧
      gone.map (·.1) = (world.inFlight.filter (base.keyIn scope)).toList ∧
      world'.inFlight = world.inFlight.filter (!base.keyIn scope ·) ∧
      world'.ready = world.ready ∧ world'.parked = world.parked := by
  rw [discardFlight, flightIn_eq valid, ok_bind]
  cases flight : world.inFlight with
  | none =>
      refine ⟨world, [], ?_, valid, within, .refl _, rfl, flight, rfl, rfl⟩
      rw [if_neg (by simp)]
      rfl
  | some key =>
      obtain ⟨task, there⟩ := @Located.get _ _ key valid.located (by simp [keys, flight])
      have agree := discards.agree world key task within there
      cases isIn : base.keyIn scope key with
      | true =>
          obtain ⟨world', ran, valid', discarded, flight', ready, parked⟩ :=
            @discardInFlight_spec none world key task reason valid flight there fun unrevoked =>
              discards.settled world key task within there isIn unrevoked
          refine ⟨world', [(key, task)], ?_, valid', within.step discarded, discarded, ?_, ?_,
            ready, parked⟩
          · rw [if_pos (by simp [agree, isIn]), ran]
          · simp [Option.filter, isIn]
          · simp [Option.filter, isIn, flight']
      | false =>
          refine ⟨world, [], ?_, valid, within, .refl _, ?_, ?_, rfl, rfl⟩
          · rw [if_neg (by simp [agree, isIn])]
            rfl
          · simp [Option.filter, isIn]
          · simp [Option.filter, isIn, flight]

theorem hideFlight_eq (world : World) : world.hideFlight = { world with
    ready := { world.ready with normal := world.inFlight.toList ++ world.ready.normal }
    inFlight := none } := by
  rw [hideFlight]
  cases flight : world.inFlight with
  | none =>
      have same : { world with inFlight := none } = world := by rw [← flight]
      exact same.symm
  | some key => rfl

theorem restoreFlight_eq {retained : Option TaskKey} {rest : List TaskKey}
    (flight : world.inFlight = none) (front : world.ready.normal = retained.toList ++ rest) :
    world.restoreFlight retained = .ok { world with
      ready := { world.ready with normal := rest }, inFlight := retained } := by
  cases retained with
  | none =>
      have same : rest = world.ready.normal := front.symm
      have none' : { world with inFlight := none } = world := by rw [← flight]
      rw [restoreFlight, same]
      exact congrArg Except.ok none'.symm
  | some key =>
      have member : key ∈ world.ready.normal := by simp [front]
      simp only [restoreFlight, ReadyQueue.remove, if_pos member]
      rw [ensure_of trivial, ok_bind]
      simp [front, pure, Except.pure]

end World

/-- Only which aborts are pending has changed. -/
theorem Sound.prune {world : World} (sound : Sound none world)
    {pendingAborts : List (Option Nat × TaskFailure)}
    (pending : Pending world.tasks pendingAborts) : Sound none { world with pendingAborts } :=
  ⟨⟨sound.valid.located, sound.valid.framed, sound.valid.waiting, sound.valid.deferring,
      sound.valid.noticed⟩,
    ⟨sound.bounded.records, sound.bounded.owned, sound.bounded.borrowed⟩, pending,
    ⟨sound.admitted.distinct, sound.admitted.bounded, sound.admitted.fresh, sound.admitted.live,
      sound.admitted.queued, sound.admitted.issued⟩⟩

theorem Pending.sublist {tasks : KernelTasks}
    {pendingAborts pendingAborts' : List (Option Nat × TaskFailure)}
    (pending : Pending tasks pendingAborts) (fewer : pendingAborts'.Sublist pendingAborts) :
    Pending tasks pendingAborts' where
  distinct := pending.distinct.sublist (fewer.map _)
  alone all := by
    have one := pending.alone ((fewer.map _).subset all)
    have bound := fewer.length_le
    rcases List.eq_nil_or_concat pendingAborts' with rfl | ⟨_, _, rfl⟩
    · cases all
    · rw [List.concat_eq_append, List.length_append, List.length_singleton] at bound ⊢
      omega
  rooted scope member := pending.rooted scope ((fewer.map _).subset member)

namespace World

variable {world world' : World} {scope : Option Nat} {reason : TaskFailure}

/-- Exactly the tasks of the scope are discarded. -/
theorem reclaim_spec (sound : Sound none world) (settled : Settled scope world.waits)
    (reason : TaskFailure) : ∃ world' gone, world.reclaim scope reason = .ok world' ∧
      Reclaimed scope reason world world' gone := by
  let pendingAborts := world.pendingAborts.filter fun entry => scope.isSome && entry.1 != scope
  let pruned : World := { world with pendingAborts }
  have sound' : Sound none pruned := sound.prune (sound.pending.sublist List.filter_sublist)
  have discards := discards_scope reason sound'.valid settled
  obtain ⟨first, gone, ran, valid, within, discarded, names, flight, ready, parked⟩ :=
    discardFlight_spec sound'.valid discards ⟨fun _ _ => id, fun _ => id⟩
  have hidden := hideFlight_eq first
  have eligible : ∀ key, first.inFlight = some key → world.keyIn scope key = false := by
    intro key there
    rw [flight, Option.filter_eq_some_iff] at there
    have apart : pruned.keyIn scope key = false := by simpa using there.2
    exact apart
  let second : World := { first with
    ready := { first.ready with normal := first.inFlight.toList ++ first.ready.normal }
    inFlight := none }
  have valid' : Valid none second := by
    refine ⟨valid.located.perm ?_, valid.framed, valid.waiting, valid.deferring, valid.noticed⟩
    simp [keys, second]
  have within' : Within pruned second := ⟨within.tasks, within.waits⟩
  have moved : Discarded reason first second [] := .nil rfl rfl rfl (.refl _) rfl rfl rfl
  obtain ⟨third, gone', ran', valid'', within'', discarded', names', flight', ready', parked'⟩ :=
    discardMatching_spec discards "preflight retained a publisher" valid' within' rfl
  have front : third.ready.normal =
      first.inFlight.toList ++ world.ready.normal.filter (!world.keyIn scope ·) := by
    have kept : first.inFlight.toList.filter (!pruned.keyIn scope ·) = first.inFlight.toList :=
      List.filter_eq_self.mpr fun key member => by
        rw [Bool.not_eq_true']
        exact eligible key (Option.mem_toList.mp member)
    rw [ready']
    dsimp only [second]
    rw [List.filter_append, kept, ready]
    rfl
  have restored := restoreFlight_eq flight' front
  let final : World := { third with
    ready := { third.ready with normal := world.ready.normal.filter (!world.keyIn scope ·) }
    inFlight := first.inFlight }
  have validFinal : Valid none final.refreshBorrowed := by
    refine ⟨valid''.located.perm ?_, valid''.framed, valid''.waiting, valid''.deferring,
      valid''.noticed⟩
    simp only [keys, flight', front, final, refreshBorrowed, Option.toList_none, List.nil_append,
      List.append_assoc]
    exact .refl _
  let all : List (TaskKey × Task) := gone ++ ([] ++ gone')
  have whole : Discarded reason pruned final.refreshBorrowed all := by
    refine discarded.append (moved.append ?_)
    have before := discarded'
    exact ⟨before.outside, before.distinct, before.were, before.tasks, before.outcomes,
      before.waits, before.reclaimed, before.revoked, before.size, before.capacity,
      before.retained, fun _ => refreshBorrowed_flagged final⟩
  have exact : ∀ key, key ∈ all.map (·.1) ↔ world.keyIn scope key = true := by
    intro key
    rw [List.map_append, List.nil_append, names, names', List.mem_append, List.mem_append]
    constructor
    · rintro (member | member | member)
      · exact (Option.filter_eq_some_iff.mp (Option.mem_toList.mp member)).2
      · exact (List.mem_filter.mp member).2
      · obtain ⟨other, chosen, rfl⟩ := List.mem_map.mp member
        exact (List.mem_filter.mp chosen).2
    · intro isIn
      obtain ⟨task, there⟩ : ∃ task, world.tasks.get key = some task := by
        cases there : world.tasks.get key with
        | none =>
            rw [keyIn, scopeOf, there] at isIn
            cases isIn
        | some task => exact ⟨task, rfl⟩
      have place := sound.valid.located.mem there
      rw [keys, List.mem_append, List.mem_append, List.mem_append] at place
      rcases place with place | place | place | place
      · exact .inl (Option.mem_toList.mpr
          (Option.filter_eq_some_iff.mpr ⟨Option.mem_toList.mp place, isIn⟩))
      · refine .inr (.inl (List.mem_filter.mpr ⟨?_, isIn⟩))
        simp [second, ready, pruned, place]
      · refine .inr (.inl (List.mem_filter.mpr ⟨?_, isIn⟩))
        simp [second, ready, pruned, place]
      · obtain ⟨other, member, rfl⟩ := List.mem_map.mp place
        refine .inr (.inr (List.mem_map_of_mem (List.mem_filter.mpr ⟨?_, isIn⟩)))
        simpa [second, parked] using member
  refine ⟨final.refreshBorrowed, all, ?_, ⟨validFinal, whole.bounded sound'.bounded, ?_,
    whole.admitted sound'.admitted⟩, whole, exact, ?_, rfl, ?_, ?_, refreshBorrowed_flagged final⟩
  · rw [reclaim, show discardFlight scope reason _ = _ from ran, ok_bind]
    dsimp only
    rw [hidden, ran', ok_bind, restored, ok_bind]
    rfl
  · have same : final.refreshBorrowed.pendingAborts = pendingAborts :=
      (congrArg World.pendingAborts whole.outside :)
    rw [same]
    refine ⟨sound'.pending.distinct, sound'.pending.alone, fun other member => ?_⟩
    obtain ⟨index, root, there, isScope⟩ := sound'.pending.rooted other member
    refine ⟨index, root, ?_, isScope⟩
    rw [whole.tasks, if_neg, there]
    have before : world.tasks.get (.owned index) = some root := there
    rw [exact, keyIn_eq before, isScope, Bool.not_eq_true]
    obtain ⟨entry, kept, isOther⟩ := List.mem_map.mp member
    have apart := (List.mem_filter.mp kept).2
    rw [isOther, Bool.and_eq_true, bne_iff_ne] at apart
    cases scope with
    | none => cases apart.1
    | some scope =>
        rw [inScope, Option.all_some, beq_eq_false_iff_ne]
        exact fun equal => apart.2 (by rw [equal])
  · exact flight
  · have lanes := congrArg ReadyQueue.wakes ready'
    rw [show final.refreshBorrowed.ready.wakes = _ from lanes]
    dsimp only [second]
    rw [ready]
    rfl
  · rw [show final.refreshBorrowed.parked = _ from parked']
    dsimp only [second]
    rw [parked]
    rfl

end World

/-! ## Aborts -/

/-- What `abort` does before it looks at the started tasks of its scope. -/
structure Begun (scope : Option Nat) (reason : TaskFailure) (world world' : World)
    (keys : List TaskKey) : Prop where
  same : ∃ pending incoming inbox tasks retained outcomes, world' = { world with
    pending, incoming, inbox, tasks, retained, outcomes
    starts := []
    ready := { world.ready with normal := world.ready.normal ++ keys } }
  sound : Sound none world'
  kept : ∀ key task, world.tasks.get key = some task → world'.tasks.get key = some task
  new : ∀ key task, world'.tasks.get key = some task →
    world.tasks.get key = some task ∨ key.isBorrowed = true ∧ task ∈ world.starts
  packets : world'.packets = world.packets.filter (!inScope scope ·.scope)
  outcomes : world'.outcomes =
    world.outcomes ++ World.failed reason (world.packets.filter (inScope scope ·.scope))
  inbox : OnlyStarts world.inbox world'.inbox
  unpacked : world.Unpacked → world'.Unpacked

namespace World

variable {world : World} {scope : Option Nat} {reason : TaskFailure}

/-- Local starts can become runnable at any time. -/
theorem takeStarts_sound (sound : Sound none world) :
    ∃ keys, Started world.starts world world.takeStarts keys ∧ Sound none world.takeStarts := by
  obtain ⟨keys, started, valid, bounded⟩ := takeStarts_spec sound.valid sound.bounded
  obtain ⟨⟨tasks, same⟩, kept, new⟩ := started
  have admitted := sound.admitted
  refine ⟨keys, ⟨⟨tasks, same⟩, kept, new⟩, valid, bounded, ?_, ?_⟩
  · rw [show world.takeStarts.pendingAborts = world.pendingAborts by rw [same]]
    refine ⟨sound.pending.distinct, sound.pending.alone, fun other member => ?_⟩
    obtain ⟨index, root, there, isScope⟩ := sound.pending.rooted other member
    exact ⟨index, root, kept _ _ there, isScope⟩
  · have scopes : world.takeStarts.scopes = world.scopes := by rw [same]
    refine ⟨scopes ▸ admitted.distinct, ?_, ?_, fun key task there => ?_, ?_, ?_⟩
    · rw [same]
      exact admitted.bounded
    · rw [same]
      exact admitted.fresh
    · rw [scopes]
      rcases new key task there with there | ⟨-, queued⟩
      · exact admitted.live key task there
      · exact admitted.queued task queued
    · rw [same]
      simp
    · rw [same]
      exact admitted.issued

theorem begun_spec (sound : Sound none world) (scope : Option Nat) (reason : TaskFailure) :
    ∃ before keys, world.discardUnstarted scope reason = .ok before ∧
      Begun scope reason world before.takeStarts keys := by
  obtain ⟨pending, incoming, inbox, ran, packets, only, unpacked⟩ :=
    discardUnstarted_spec world scope reason
  let before : World := { world with
    pending, incoming, inbox
    retained := world.retained + (world.packets.filter (inScope scope ·.scope)).length
    outcomes := world.outcomes ++ failed reason (world.packets.filter (inScope scope ·.scope)) }
  obtain ⟨valid, bounded, admitted⟩ :=
    @discardUnstarted_keeps none world before pending incoming inbox _ _ rfl packets
  have sound' : Sound none before :=
    ⟨valid sound.valid, bounded sound.bounded, sound.pending, admitted sound.admitted⟩
  obtain ⟨keys, ⟨⟨tasks, same⟩, kept, new⟩, started⟩ := takeStarts_sound sound'
  refine ⟨before, keys, ran, ⟨⟨_, _, _, tasks, _, _, same⟩, started, kept, new, ?_, ?_, ?_, ?_⟩⟩
  · rw [same]
    exact packets
  · rw [same]
  · rw [same]
    exact only
  · rw [same]
    exact unpacked

/-- An abort starts the local starts, tries to retire the generations of its scope, and then
reclaims its tasks or becomes pending. -/
structure Aborted (others : Nat → List Move) (scope : Option Nat) (reason : TaskFailure)
    (world world' : World) (retired : Bool) : Prop where
  parts : ∃ begun prepared keys, Begun scope reason world begun keys ∧
    Preparation others scope begun prepared retired ∧
    (retired = true → ∃ gone, Reclaimed scope reason prepared world' gone) ∧
    (retired = false → Deferral scope reason prepared world')
  complete : retired = false ↔ Meets others scope world
  sound : Sound none world'

theorem meets_congr {world world' : World} {others : Nat → List Move}
    (parked : world'.parked = world.parked) (waits : world'.waits = world.waits)
    (clock : world'.clock = world.clock)
    (keys : ∀ parked ∈ world.parked,
      world'.keyIn scope parked.task = world.keyIn scope parked.task) :
    Meets others scope world' ↔ Meets others scope world := by
  have sameTasks : (world'.parked.filter fun parked => world'.keyIn scope parked.task) =
      world.parked.filter fun parked => world.keyIn scope parked.task := by
    rw [parked]
    exact List.filter_congr keys
  have sameClaims : ∀ rounds token, world'.unpublished others rounds token =
      world.unpublished others rounds token := by
    intro rounds token
    rw [unpublished, unpublished, generation, generation, waits, clock]
  simp only [Meets, sameTasks, sameClaims]

/-- An abort never fails. -/
theorem abort_spec (sound : Sound none world) (others : Nat → List Move) (scope : Option Nat)
    (reason : TaskFailure) : ∃ world' retired, world.abort others scope reason =
      .ok (world', retired) ∧ Aborted others scope reason world world' retired := by
  obtain ⟨before, keys, ran, begun⟩ := begun_spec sound scope reason
  obtain ⟨prepared, retired, prepares, preparation⟩ :=
    prepareAbort_spec others scope begun.sound.valid begun.sound.bounded
  have complete : retired = false ↔ Meets others scope world := by
    rw [preparation.complete]
    obtain ⟨_, _, _, _, _, _, same⟩ := begun.same
    refine meets_congr (by rw [same]) (by rw [same]) (by rw [same]) fun parked member => ?_
    obtain ⟨task, there⟩ : ∃ task, world.tasks.get parked.task = some task :=
      sound.valid.located.get (by simp [World.keys, List.mem_map_of_mem member])
    rw [keyIn_eq there, keyIn_eq (begun.kept _ _ there)]
  have sound' : Sound none prepared := by
    obtain ⟨_, _, _, _, _, same, -⟩ := preparation.stirred
    refine ⟨preparation.valid, preparation.bounded, ?_, ?_⟩
    · rw [same]
      exact begun.sound.pending
    · have admitted := begun.sound.admitted
      rw [same]
      exact ⟨admitted.distinct, admitted.bounded, admitted.fresh, admitted.live, admitted.queued,
        admitted.issued⟩
  rw [abort, ran, ok_bind, prepares, ok_bind]
  cases isRetired : retired with
  | true =>
      obtain ⟨world', gone, reclaims, reclaimed⟩ :=
        reclaim_spec sound' (preparation.settled isRetired) reason
      refine ⟨world', true, ?_, ⟨_, prepared, keys, begun, ?_, fun _ => ⟨gone, reclaimed⟩, by simp⟩,
        isRetired ▸ complete, reclaimed.sound⟩
      · simp only [if_true, reclaims, ok_bind]
        rfl
      · exact isRetired ▸ preparation
  | false =>
      obtain ⟨index, root, there, isIn⟩ := preparation.rooted isRetired
      have rooted : ∀ other, scope = some other → HasOwned prepared.tasks other := by
        rintro other rfl
        rw [inScope, Option.all_some, beq_iff_eq] at isIn
        exact ⟨index, root, preparation.stirred.tasks ▸ there, isIn⟩
      obtain ⟨world', defers, deferral⟩ := deferAbort_spec sound' rooted
      refine ⟨world', false, ?_, ⟨_, prepared, keys, begun, ?_, by simp, fun _ => deferral⟩,
        isRetired ▸ complete, deferral.sound⟩
      · simp only [Bool.false_eq_true, if_false, defers, ok_bind]
        rfl
      · exact isRetired ▸ preparation

namespace Aborted

variable {world world' : World} {others : Nat → List Move} {scope : Option Nat}
  {reason : TaskFailure} {retired : Bool}

theorem starts (aborted : Aborted others scope reason world world' retired) :
    world'.starts = [] := by
  obtain ⟨begun, prepared, keys, ⟨⟨_, _, _, _, _, _, begins⟩, -⟩, ⟨stirred, -⟩, reclaims, defers⟩ :=
    aborted.parts
  have before : prepared.starts = [] := by
    obtain ⟨_, _, _, _, _, same, -⟩ := stirred
    rw [same, begins]
  cases retired with
  | true =>
      obtain ⟨gone, reclaimed⟩ := reclaims rfl
      exact (congrArg World.starts reclaimed.discarded.outside :).trans before
  | false =>
      obtain ⟨_, _, _, same⟩ := (defers rfl).same
      rw [same]
      exact before

theorem unpacked (aborted : Aborted others scope reason world world' retired)
    (unpacked : world.Unpacked) : world'.Unpacked := by
  obtain ⟨begun, prepared, keys, begins, ⟨stirred, -⟩, reclaims, defers⟩ := aborted.parts
  have before : prepared.Unpacked := by
    obtain ⟨_, _, _, _, _, same, -⟩ := stirred
    rw [same]
    exact begins.unpacked unpacked
  cases retired with
  | true =>
      obtain ⟨gone, reclaimed⟩ := reclaims rfl
      exact ⟨(congrArg World.pending reclaimed.discarded.outside :).trans before.1,
        (congrArg World.incoming reclaimed.discarded.outside :).trans before.2⟩
  | false =>
      obtain ⟨_, _, _, same⟩ := (defers rfl).same
      rw [same]
      exact before

theorem inFlight (aborted : Aborted others scope reason world world' retired)
    (idle : world.inFlight = none) : world'.inFlight = none := by
  obtain ⟨begun, prepared, keys, ⟨⟨_, _, _, _, _, _, begins⟩, -⟩, ⟨stirred, -⟩, reclaims, defers⟩ :=
    aborted.parts
  have before : prepared.inFlight = none := by
    obtain ⟨_, _, _, _, _, same, -⟩ := stirred
    rw [same, begins, idle]
  cases retired with
  | true =>
      obtain ⟨gone, reclaimed⟩ := reclaims rfl
      rw [reclaimed.inFlight, before]
      rfl
  | false =>
      rcases (defers rfl).pushed with ⟨-, -, same⟩ | ⟨-, flight⟩
      · rw [same, before]
      · rw [flight, before]
        rfl

/-- The task in flight is given back when its scope is aborted, and had no pending abort. -/
theorem released {key : TaskKey} {task : Task}
    (aborted : Aborted others (some task.scope) reason world world' retired)
    (flight : world.inFlight = some key) (there : world.tasks.get key = some task)
    (unblocked : world.blocked task.scope = false) : world'.inFlight = none := by
  obtain ⟨begun, prepared, keys, ⟨⟨_, _, _, _, _, _, begins⟩, -, kept, -⟩, ⟨stirred, -⟩, reclaims,
    defers⟩ := aborted.parts
  have before : prepared.inFlight = some key := by
    obtain ⟨_, _, _, _, _, same, -⟩ := stirred
    rw [same, begins, flight]
  have pending : prepared.pendingAborts = world.pendingAborts := by
    obtain ⟨_, _, _, _, _, same, -⟩ := stirred
    rw [same, begins]
  have isIn : prepared.keyIn (some task.scope) key = true := by
    rw [keyIn_eq (stirred.tasks ▸ kept key task there), inScope, Option.all_some]
    exact beq_self_eq_true _
  have gone : prepared.inFlight.filter (!prepared.keyIn (some task.scope) ·) = none := by
    rw [before, Option.filter, isIn]
    rfl
  cases retired with
  | true =>
      obtain ⟨_, reclaimed⟩ := reclaims rfl
      exact reclaimed.inFlight.trans gone
  | false =>
      rcases (defers rfl).pushed with ⟨covered, -, -⟩ | ⟨-, left⟩
      · rw [pending] at covered
        have blocks := (world.blocked_iff task.scope).mpr (.inl covered)
        rw [unblocked] at blocks
        cases blocks
      · exact left.trans gone

/-- A deferred abort discards no started task. -/
theorem deferred (aborted : Aborted others scope reason world world' false) :
    (∀ key task, world.tasks.get key = some task → world'.tasks.get key = some task) ∧
    (∀ key task, world'.tasks.get key = some task →
      world.tasks.get key = some task ∨ key.isBorrowed = true ∧ task ∈ world.starts) ∧
    world'.hasBorrowed = world.hasBorrowed ∧
    world'.outcomes =
      world.outcomes ++ failed reason (world.packets.filter (inScope scope ·.scope)) := by
  obtain ⟨begun, prepared, keys, ⟨⟨_, _, _, _, _, _, begins⟩, -, kept, new, -, outcomes, -⟩,
    ⟨stirred, -⟩, -, defers⟩ := aborted.parts
  obtain ⟨_, _, _, same⟩ := (defers rfl).same
  have tasks : world'.tasks = begun.tasks := by rw [same, ← stirred.tasks]
  obtain ⟨_, _, _, _, _, stirs, -⟩ := stirred
  refine ⟨tasks ▸ kept, tasks ▸ new, ?_, ?_⟩
  · rw [same, stirs, begins]
  · rw [same, stirs]
    exact outcomes

/-- The flag of borrowed tasks is right after an abort that reclaims, or starts no task. -/
theorem flagged (aborted : Aborted others scope reason world world' retired)
    (flagged : world.Flagged)
    (either : world.starts = [] ∨ world.hasBorrowed = true ∨ retired = true) :
    world'.Flagged := by
  cases retired with
  | true =>
      obtain ⟨begun, prepared, keys, -, -, reclaims, -⟩ := aborted.parts
      obtain ⟨gone, reclaimed⟩ := reclaims rfl
      exact reclaimed.flagged
  | false =>
      obtain ⟨-, new, flag, -⟩ := aborted.deferred
      intro key task isBorrowed there
      rw [flag]
      rcases either with none | set | retired
      · rcases new key task there with there | ⟨-, queued⟩
        · exact flagged key task isBorrowed there
        · rw [none] at queued
          cases queued
      · exact set
      · cases retired

/-- An abort whose scope is not pending only adds to the pending aborts. -/
theorem prefix' (aborted : Aborted others scope reason world world' retired)
    (absent : scope ∉ world.pendingAborts.map (·.1))
    (uncovered : none ∉ world.pendingAborts.map (·.1))
    (alone : scope = none → world.pendingAborts = []) :
    world.pendingAborts <+: world'.pendingAborts ∧
      (retired = true → world'.pendingAborts = world.pendingAborts) := by
  obtain ⟨begun, prepared, keys, ⟨⟨_, _, _, _, _, _, begins⟩, -⟩, ⟨stirred, -⟩, reclaims, defers⟩ :=
    aborted.parts
  have before : prepared.pendingAborts = world.pendingAborts := by
    obtain ⟨_, _, _, _, _, same, -⟩ := stirred
    rw [same, begins]
  cases retired with
  | true =>
      obtain ⟨gone, reclaimed⟩ := reclaims rfl
      have left := (congrArg World.pendingAborts reclaimed.discarded.outside :)
      have all : world'.pendingAborts = world.pendingAborts := by
        refine left.trans ?_
        change prepared.pendingAborts.filter _ = _
        rw [before, List.filter_eq_self]
        intro entry member
        rw [Bool.and_eq_true, bne_iff_ne, Option.isSome_iff_ne_none]
        refine ⟨fun isNone => ?_, fun same => absent (List.mem_map.mpr ⟨entry, member, same⟩)⟩
        rw [alone isNone] at member
        cases member
      exact ⟨all ▸ List.prefix_refl _, fun _ => all⟩
  | false =>
      refine ⟨?_, by simp⟩
      rcases (defers rfl).pushed with ⟨covered, -, -⟩ | ⟨pushed, -⟩
      · rw [before] at covered
        exact absurd covered uncovered
      · rw [before] at pushed
        by_cases isNone : scope = none
        · rw [alone isNone]
          exact List.nil_prefix
        · rw [pushed.appends isNone absent]
          exact List.prefix_append ..

end Aborted

/-! ## Retries -/

/-- What a removal leaves of the pending aborts. -/
theorem pending_removed {tasks : KernelTasks}
    {pendingAborts rest : List (Option Nat × TaskFailure)} {entry : Option Nat × TaskFailure}
    (pending : Pending tasks pendingAborts) (perm : pendingAborts.Perm (entry :: rest)) :
    Pending tasks rest ∧ entry.1 ∉ rest.map (·.1) ∧ none ∉ rest.map (·.1) ∧
      (entry.1 = none → rest = []) := by
  have scopes := perm.map (·.1)
  obtain ⟨absent, distinct⟩ := List.nodup_cons.mp (scopes.nodup_iff.mp pending.distinct)
  have single : none ∈ pendingAborts.map (·.1) → rest = [] := by
    intro all
    have size := perm.length_eq
    rw [pending.alone all, List.length_cons] at size
    exact List.eq_nil_of_length_eq_zero (by omega)
  have uncovered : none ∉ rest.map (·.1) := by
    intro all
    have none' := single (scopes.symm.subset (List.mem_cons_of_mem _ all))
    rw [none'] at all
    cases all
  refine ⟨⟨distinct, fun all => absurd all uncovered, fun scope member =>
    pending.rooted scope (scopes.symm.subset (List.mem_cons_of_mem _ member))⟩, absent, uncovered,
    fun isNone => single (scopes.symm.subset ?_)⟩
  rw [List.map_cons, isNone]
  exact List.mem_cons_self

/-- A retry, whatever the others do. -/
def Retried (others : Nat → List Move) (entry : Option Nat × TaskFailure) (world world' : World) :
    Prop :=
  Sound none world ∧ ∃ retired, world.abort others entry.1 entry.2 = .ok (world', retired) ∧
    Aborted others entry.1 entry.2 world world' retired

/-- Every pending abort is attempted once, the last one first. -/
theorem retryAborts_spec (sound : Sound none world) (idle : world.inFlight = none)
    (others : Nat → List Move) : ∃ world', world.retryAborts others =
        .ok (world', world.pendingAborts.reverse) ∧ Sound none world' ∧ world'.inFlight = none ∧
      (world.Unpacked → world'.Unpacked) ∧
      (world.starts = [] → world'.starts = [] ∧ (world.Flagged → world'.Flagged)) ∧
      Swept pendingAborts setPendingAborts (Retried others) world.pendingAborts.reverse
        world world' := by
  let holds (state : World) : Prop := Sound none state ∧ state.inFlight = none ∧
    (world.Unpacked → state.Unpacked) ∧
    (world.starts = [] → state.starts = [] ∧ (world.Flagged → state.Flagged))
  have step : ∀ state index entry rest, holds state →
      swapRemove state.pendingAborts index = some (entry, rest) →
      ∃ state', (setPendingAborts rest state).retryAbort others entry = .ok state' ∧
        holds state' ∧ rest <+: state'.pendingAborts ∧
        Retried others entry (setPendingAborts rest state) state' := by
    rintro state index entry rest ⟨sound, idle, unpacked, keeps⟩ removed
    obtain ⟨front, back, split, -, perm, -⟩ := swapRemove_cases removed
    have perm' : state.pendingAborts.Perm (entry :: rest) := by
      rw [split]
      exact List.perm_middle.trans (perm.symm.cons entry)
    obtain ⟨pending, absent, uncovered, alone⟩ := pending_removed sound.pending perm'
    have sound' := sound.prune pending
    obtain ⟨state', retired, ran, aborted⟩ := abort_spec sound' others entry.1 entry.2
    refine ⟨state', ?_, ⟨aborted.sound, aborted.inFlight idle,
      fun batch => aborted.unpacked (unpacked batch), fun quiet => ⟨aborted.starts,
      fun flagged => ?_⟩⟩, (aborted.prefix' absent uncovered alone).1, sound', retired, ran,
      aborted⟩
    · rw [retryAbort, setPendingAborts, ran]
      rfl
    · exact aborted.flagged ((keeps quiet).2 flagged) (.inl (keeps quiet).1)
  obtain ⟨world', ran, ⟨sound', idle', unpacked, keeps⟩, swept⟩ :=
    @sweep_spec _ _ pendingAborts setPendingAborts (retryAbort others) holds (Retried others) step
      world.pendingAborts.length world ⟨sound, idle, id, fun quiet => ⟨quiet, id⟩⟩ (Nat.le_refl _)
  rw [List.take_length] at ran swept
  exact ⟨world', ran, sound', idle', unpacked, keeps, swept⟩

end World

end VThread.Kernel
