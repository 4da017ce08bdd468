import Mathlib.Data.List.Range
import VThread.Carrier.Local
import VThread.Lib.Transition

/-!
# Queue depths

The depth events of the two start queues of every carrier.  A queue is changed in one step and
each of its depths is recorded in one step of its own: under the lock of the inbox for the
remote starts, by the owner alone for the local ones.
-/

namespace VThread.Evidence

open VThread.Lib VThread.Carrier

variable {ι : Type}

inductive QueueKind where
  | start
  | localStart
  | wake
  deriving DecidableEq, Repr

/-- A `QueueDepth` event. -/
structure QueueDepth (ι : Type) where
  carrier : ι
  queue : QueueKind
  depth : Nat
  capacity : Nat
  deriving DecidableEq

/-- The start queues of a carrier. -/
structure Queues where
  inbox : Inbox
  /-- The depths that the holder of the inbox lock has still to record. -/
  locked : Option (List Nat)
  locals : LocalCarrier
  /-- The owner has changed the local queue and has still to record it. -/
  reporting : Bool
  deriving DecidableEq

def Queues.new (capacity : Nat) : Queues := ⟨.new capacity, none, .new capacity, false⟩

/-- The carriers, and the depth events in sequence order. -/
structure Depths (ι : Type) where
  carrierQueueCapacity : Nat
  queues : ι → Queues
  log : List (QueueDepth ι)

/-- What happens to the queues of a carrier. -/
inductive Operation where
  | push (packet : SpawnPacket)
  | drainInto (limit : Nat)
  | popScope (scope : Option Nat)
  | stop
  /-- The holder of the inbox lock records a depth. -/
  | record
  | unlock
  /-- `spawn_with` queues a child. -/
  | spawn (task : BorrowedTask)
  /-- A round of `receive_local_tasks`. -/
  | receiveLocal
  /-- The owner records the depth of its local queue. -/
  | report
  /-- An abort empties the local queue into the ready queue. -/
  | takeStarts
  deriving DecidableEq

/-- `(remaining..initial_depth).rev()`. -/
def drainDepths (remaining initial : Nat) : List Nat :=
  (List.range' remaining (initial - remaining)).reverse

namespace Queues

/-- Change the inbox under its lock. -/
def lock (queues : Queues) (inbox : Inbox) (depths : List Nat) : Option Queues :=
  if queues.locked = none then some { queues with inbox, locked := some depths } else none

/-- The next step of an operation, and the queue and depth it records. -/
def step (operation : Operation) (queues : Queues) :
    Option (Queues × Option (QueueKind × Nat)) :=
  match operation with
  | .push packet =>
      match queues.inbox.push packet with
      | none => queues.lock queues.inbox [] |>.map (·, none)
      | some (inbox, _) => queues.lock inbox [inbox.state.starts.length] |>.map (·, none)
  | .drainInto limit =>
      let inbox := queues.inbox.drainInto limit
      queues.lock inbox
        (drainDepths inbox.state.starts.length queues.inbox.state.starts.length) |>.map (·, none)
  | .popScope scope =>
      match queues.inbox.state.starts.findIdx? (fun packet => scope.all (packet.scope == ·)) with
      | none => queues.lock queues.inbox [] |>.map (·, none)
      | some _ =>
          let inbox := queues.inbox.popScope scope
          queues.lock inbox [inbox.state.starts.length] |>.map (·, none)
  | .stop => queues.lock queues.inbox.stop [] |>.map (·, none)
  | .record =>
      match queues.locked with
      | some (depth :: depths) =>
          some ({ queues with locked := some depths }, some (.start, depth))
      | _ => none
  | .unlock =>
      if queues.locked = some [] then some ({ queues with locked := none }, none) else none
  | .spawn task =>
      if queues.reporting = false ∧ queues.locals.checkCapacity = true then
        some ({ queues with locals := queues.locals.pushStart task, reporting := true }, none)
      else none
  | .receiveLocal =>
      if queues.reporting then none
      else queues.locals.popStart.map fun popped =>
        ({ queues with locals := popped.1, reporting := true }, none)
  | .report =>
      if queues.reporting then
        some ({ queues with reporting := false }, some (.localStart, queues.locals.pendingStarts))
      else none
  | .takeStarts =>
      if queues.reporting then none
      else some ({ queues with locals := queues.locals.takeStarts.1 }, none)

end Queues

namespace Depths

/-- The capacity that an event of a queue carries. -/
def recordedCapacity (depths : Depths ι) (queues : Queues) : QueueKind → Nat
  | .start => queues.inbox.capacity
  | _ => depths.carrierQueueCapacity

def new (capacity : Nat) : Depths ι := ⟨capacity, fun _ => .new capacity, []⟩

variable [DecidableEq ι]

/-- One operation of a carrier. -/
def step (choice : ι × Operation) (depths : Depths ι) : Option (Depths ι) :=
  ((depths.queues choice.1).step choice.2).map fun result => { depths with
    queues := Function.update depths.queues choice.1 result.1
    log := depths.log ++ (result.2.map fun recorded =>
      ⟨choice.1, recorded.1, recorded.2, depths.recordedCapacity result.1 recorded.1⟩).toList }

end Depths

def depthMachine (ι : Type) [DecidableEq ι] (capacity : Nat) :
    Machine (Depths ι) (ι × Operation) where
  initial := (· = .new capacity)
  next := Depths.step

/-! ## Walks -/

/-- From a depth, one by one and within the capacities recorded with them, the depths lead to
the last one. -/
def Walk : Nat → List (Nat × Nat) → Nat → Prop
  | depth, [], last => depth = last
  | depth, (next, capacity) :: rest, last =>
      (next = depth + 1 ∨ depth = next + 1) ∧ next ≤ capacity ∧ Walk next rest last

theorem Walk.append {depth middle last : Nat} {first second : List (Nat × Nat)}
    (walk : Walk depth first middle) (rest : Walk middle second last) :
    Walk depth (first ++ second) last := by
  induction first generalizing depth with
  | nil =>
      cases walk
      exact rest
  | cons _ _ ih =>
      obtain ⟨near, within, walk⟩ := walk
      exact ⟨near, within, ih walk⟩

/-- A drain walks down to what remains. -/
theorem Walk.drain {remaining initial capacity : Nat} (below : remaining ≤ initial)
    (within : initial ≤ capacity) :
    Walk initial ((drainDepths remaining initial).map (·, capacity)) remaining := by
  induction initial with
  | zero =>
      rw [Nat.le_zero.mp below]
      rfl
  | succ initial ih =>
      rcases Nat.lt_or_eq_of_le below with below | rfl
      · have split : initial + 1 - remaining = (initial - remaining) + 1 := by omega
        have last : remaining + (initial - remaining) = initial := by omega
        unfold drainDepths
        rw [split, List.range'_concat, List.reverse_append]
        simp only [List.reverse_singleton, List.singleton_append, List.map_cons, Nat.one_mul, last]
        exact ⟨.inr rfl, Nat.le_of_succ_le within,
          ih (Nat.le_of_lt_succ below) (Nat.le_of_succ_le within)⟩
      · simp [drainDepths, Walk]

/-! ## One carrier -/

/-- What a step adds to the recorded depths of a queue. -/
def recordedOf (queue : QueueKind) (capacity : Nat) : Option (QueueKind × Nat) → List (Nat × Nat)
  | some (recorded, depth) => if recorded = queue then [(depth, capacity)] else []
  | none => []

/-- The recorded depths, with those still to record, walk to the depth of the inbox. -/
structure Remote (capacity : Nat) (history : List (Nat × Nat)) (queues : Queues) : Prop where
  capacity_eq : queues.inbox.capacity = capacity
  within : queues.inbox.state.starts.length ≤ capacity
  walk : Walk 0 (history ++ (queues.locked.getD []).map (·, capacity))
    queues.inbox.state.starts.length

/-- The recorded depths, with the one still to record, walk to the depth of the local queue. -/
structure Locals (capacity : Nat) (history : List (Nat × Nat)) (queues : Queues) : Prop where
  capacity_eq : queues.locals.capacity = capacity
  depth : queues.locals.pendingStarts = queues.locals.starts.length
  within : queues.locals.starts.length ≤ capacity
  walk : Walk 0 (history ++ if queues.reporting then [(queues.locals.pendingStarts, capacity)]
    else []) queues.locals.starts.length

variable {capacity : Nat} {history : List (Nat × Nat)} {queues queues' : Queues}

/-- An operation takes the lock and will record a walk to the new depth. -/
theorem Remote.lock (remote : Remote capacity history queues) {inbox : Inbox} {depths : List Nat}
    (taken : queues.lock inbox depths = some queues')
    (same : inbox.capacity = queues.inbox.capacity)
    (within : inbox.state.starts.length ≤ capacity)
    (walk : Walk queues.inbox.state.starts.length (depths.map (·, capacity))
      inbox.state.starts.length) : Remote capacity history queues' := by
  unfold Queues.lock at taken
  split at taken
  · rename_i free
    cases taken
    have before := remote.walk
    rw [free, Option.getD_none, List.map_nil, List.append_nil] at before
    exact ⟨same.trans remote.capacity_eq, within, before.append walk⟩
  · cases taken

theorem Queues.lock_locals {inbox : Inbox} {depths : List Nat}
    (taken : queues.lock inbox depths = some queues') :
    queues'.locals = queues.locals ∧ queues'.reporting = queues.reporting := by
  unfold Queues.lock at taken
  split at taken
  · cases taken
    exact ⟨rfl, rfl⟩
  · cases taken

/-- Steps that leave the inbox alone record nothing of it. -/
theorem Remote.keep (remote : Remote capacity history queues)
    (inbox : queues'.inbox = queues.inbox) (locked : queues'.locked = queues.locked) :
    Remote capacity history queues' where
  capacity_eq := inbox ▸ remote.capacity_eq
  within := inbox ▸ remote.within
  walk := by
    rw [inbox, locked]
    exact remote.walk

/-- Every step keeps the walk of the remote starts. -/
theorem Remote.step (remote : Remote capacity history queues) {operation : Operation}
    {recorded : Option (QueueKind × Nat)}
    (taken : queues.step operation = some (queues', recorded)) :
    Remote capacity (history ++ recordedOf .start capacity recorded) queues' := by
  cases operation with
  | push packet =>
      rw [Queues.step] at taken
      cases pushed : queues.inbox.push packet with
      | none =>
          rw [pushed] at taken
          obtain ⟨_, held, ⟨⟩⟩ := Option.map_eq_some_iff.mp taken
          rw [recordedOf, List.append_nil]
          exact remote.lock held rfl remote.within rfl
      | some result =>
          rw [pushed] at taken
          obtain ⟨_, held, ⟨⟩⟩ := Option.map_eq_some_iff.mp taken
          rw [recordedOf, List.append_nil]
          unfold Inbox.push at pushed
          split at pushed
          · cases pushed
          · rename_i accepted
            cases pushed
            have room : queues.inbox.state.starts.length + 1 ≤ capacity := by
              rw [← remote.capacity_eq]
              omega
            apply remote.lock held rfl
            · simpa [Inbox.setStarts] using room
            · simpa [Inbox.setStarts, Walk] using room
  | drainInto limit =>
      obtain ⟨_, held, ⟨⟩⟩ := Option.map_eq_some_iff.mp taken
      rw [recordedOf, List.append_nil]
      have fewer : (queues.inbox.drainInto limit).state.starts.length ≤
          queues.inbox.state.starts.length := by
        simp only [Inbox.drainInto, Inbox.setStarts, List.length_drop]
        omega
      exact remote.lock held rfl (fewer.trans remote.within) (.drain fewer remote.within)
  | popScope scope =>
      rw [Queues.step] at taken
      cases found : queues.inbox.state.starts.findIdx?
          (fun packet => scope.all (packet.scope == ·)) with
      | none =>
          rw [found] at taken
          obtain ⟨_, held, ⟨⟩⟩ := Option.map_eq_some_iff.mp taken
          rw [recordedOf, List.append_nil]
          exact remote.lock held rfl remote.within rfl
      | some index =>
          rw [found] at taken
          obtain ⟨_, held, ⟨⟩⟩ := Option.map_eq_some_iff.mp taken
          rw [recordedOf, List.append_nil]
          have below := (List.findIdx?_eq_some_iff_getElem.mp found).1
          have popped : (queues.inbox.popScope scope).state.starts.length + 1 =
              queues.inbox.state.starts.length := by
            unfold Inbox.popScope
            rw [found]
            simp only [Inbox.setStarts, List.length_eraseIdx_of_lt below]
            omega
          have same : (queues.inbox.popScope scope).capacity = queues.inbox.capacity := by
            unfold Inbox.popScope
            rw [found]
            rfl
          have within := remote.within
          refine remote.lock held same (by omega) ⟨.inr popped.symm, by omega, rfl⟩
  | stop =>
      obtain ⟨_, held, ⟨⟩⟩ := Option.map_eq_some_iff.mp taken
      rw [recordedOf, List.append_nil]
      exact remote.lock held rfl remote.within rfl
  | record =>
      rw [Queues.step] at taken
      split at taken
      · rename_i depth depths held
        cases taken
        refine ⟨remote.capacity_eq, remote.within, ?_⟩
        have walk := remote.walk
        rw [held] at walk
        simpa [recordedOf] using walk
      · cases taken
  | unlock =>
      rw [Queues.step] at taken
      split at taken
      · rename_i held
        cases taken
        rw [recordedOf, List.append_nil]
        refine ⟨remote.capacity_eq, remote.within, ?_⟩
        have walk := remote.walk
        rw [held] at walk
        exact walk
      · cases taken
  | spawn task =>
      rw [Queues.step] at taken
      split at taken
      · cases taken
        rw [recordedOf, List.append_nil]
        exact remote.keep rfl rfl
      · cases taken
  | receiveLocal =>
      rw [Queues.step] at taken
      split at taken
      · cases taken
      · obtain ⟨popped, -, ⟨⟩⟩ := Option.map_eq_some_iff.mp taken
        rw [recordedOf, List.append_nil]
        exact remote.keep rfl rfl
  | report =>
      rw [Queues.step] at taken
      split at taken
      · cases taken
        rw [recordedOf, if_neg (by decide), List.append_nil]
        exact remote.keep rfl rfl
      · cases taken
  | takeStarts =>
      rw [Queues.step] at taken
      split at taken
      · cases taken
      · cases taken
        rw [recordedOf, List.append_nil]
        exact remote.keep rfl rfl

/-- Steps that leave the local queue alone record nothing of it. -/
theorem Locals.keep (locals : Locals capacity history queues)
    (same : queues'.locals = queues.locals) (reporting : queues'.reporting = queues.reporting) :
    Locals capacity history queues' where
  capacity_eq := same ▸ locals.capacity_eq
  depth := same ▸ locals.depth
  within := same ▸ locals.within
  walk := by
    rw [same, reporting]
    exact locals.walk

/-- The owner has changed its queue by one and will record it. -/
theorem Locals.change (locals : Locals capacity history queues) (resting : queues.reporting = false)
    (same : queues'.locals.capacity = queues.locals.capacity)
    (depth : queues'.locals.pendingStarts = queues'.locals.starts.length)
    (within : queues'.locals.starts.length ≤ capacity)
    (near : queues'.locals.starts.length = queues.locals.starts.length + 1 ∨
      queues.locals.starts.length = queues'.locals.starts.length + 1)
    (reporting : queues'.reporting = true) : Locals capacity history queues' where
  capacity_eq := same.trans locals.capacity_eq
  depth := depth
  within := within
  walk := by
    have walk := locals.walk
    rw [resting, if_neg Bool.false_ne_true, List.append_nil] at walk
    rw [if_pos reporting, depth]
    exact walk.append ⟨near, within, rfl⟩

/-- Every step keeps the walk of the local starts, unless an abort takes some. -/
theorem Locals.step (locals : Locals capacity history queues) {operation : Operation}
    {recorded : Option (QueueKind × Nat)}
    (guarded : operation = .takeStarts → queues.locals.starts = [])
    (taken : queues.step operation = some (queues', recorded)) :
    Locals capacity (history ++ recordedOf .localStart capacity recorded) queues' := by
  cases operation with
  | push | popScope =>
      rw [Queues.step] at taken
      split at taken <;>
      · obtain ⟨_, held, ⟨⟩⟩ := Option.map_eq_some_iff.mp taken
        rw [recordedOf, List.append_nil]
        exact locals.keep (Queues.lock_locals held).1 (Queues.lock_locals held).2
  | drainInto | stop =>
      obtain ⟨_, held, ⟨⟩⟩ := Option.map_eq_some_iff.mp taken
      rw [recordedOf, List.append_nil]
      exact locals.keep (Queues.lock_locals held).1 (Queues.lock_locals held).2
  | record =>
      rw [Queues.step] at taken
      split at taken
      · cases taken
        rw [recordedOf, if_neg (by decide), List.append_nil]
        exact locals.keep rfl rfl
      · cases taken
  | unlock =>
      rw [Queues.step] at taken
      split at taken
      · cases taken
        rw [recordedOf, List.append_nil]
        exact locals.keep rfl rfl
      · cases taken
  | spawn task =>
      rw [Queues.step] at taken
      split at taken
      · rename_i admitted
        cases taken
        rw [recordedOf, List.append_nil]
        have room : queues.locals.starts.length < capacity := by
          have checked := admitted.2
          unfold LocalCarrier.checkCapacity at checked
          rwa [decide_eq_true_eq, locals.depth, locals.capacity_eq] at checked
        refine locals.change admitted.1 rfl ?_ ?_ (.inl ?_) rfl
        · simp [LocalCarrier.pushStart, locals.depth]
        · simpa [LocalCarrier.pushStart] using Nat.succ_le_of_lt room
        · simp [LocalCarrier.pushStart]
      · cases taken
  | receiveLocal =>
      rw [Queues.step] at taken
      split at taken
      · cases taken
      · rename_i resting
        obtain ⟨⟨popped, task⟩, pops, ⟨⟩⟩ := Option.map_eq_some_iff.mp taken
        rw [recordedOf, List.append_nil]
        unfold LocalCarrier.popStart at pops
        split at pops
        · cases pops
        · split at pops
          · cases pops
          · rename_i starts queued
            cases pops
            have within := locals.within
            have depth := locals.depth
            rw [queued, List.length_cons] at within depth
            refine locals.change (by simpa using resting) rfl ?_ ?_ (.inr ?_) rfl
            · simp [depth]
            · exact Nat.le_of_succ_le within
            · simp [queued]
  | report =>
      rw [Queues.step] at taken
      split at taken
      · rename_i reporting
        cases taken
        refine ⟨locals.capacity_eq, locals.depth, locals.within, ?_⟩
        have walk := locals.walk
        rw [if_pos reporting] at walk
        simpa [recordedOf] using walk
      · cases taken
  | takeStarts =>
      rw [Queues.step] at taken
      split at taken
      · cases taken
      · cases taken
        rw [recordedOf, List.append_nil]
        have empty := guarded rfl
        refine locals.keep ?_ rfl
        have depth := locals.depth
        rw [empty, List.length_nil] at depth
        cases whole : queues.locals with
        | mk =>
            rw [whole] at empty depth
            simp only at empty depth
            rw [empty, depth]
            rfl

/-! ## Every carrier -/

theorem Walk.split {depth last : Nat} {first second : List (Nat × Nat)}
    (walk : Walk depth (first ++ second) last) :
    ∃ middle, Walk depth first middle ∧ Walk middle second last := by
  induction first generalizing depth with
  | nil => exact ⟨depth, rfl, walk⟩
  | cons _ _ ih =>
      obtain ⟨near, within, walk⟩ := walk
      obtain ⟨middle, walk, rest⟩ := ih walk
      exact ⟨middle, ⟨near, within, walk⟩, rest⟩

variable [DecidableEq ι]

/-- The recorded depths of a queue of a carrier, in sequence order, with their capacities. -/
def recordedDepths (carrier : ι) (queue : QueueKind) (log : List (QueueDepth ι)) :
    List (Nat × Nat) :=
  (log.filter fun event => event.carrier = carrier ∧ event.queue = queue).map
    fun event => (event.depth, event.capacity)

/-- The recorded depths of a carrier explain its start queues. -/
structure Replays (depths : Depths ι) (carrier : ι) : Prop where
  remote : ∃ last, Walk 0 (recordedDepths carrier .start depths.log) last ∧
    ((depths.queues carrier).locked = none →
      last = (depths.queues carrier).inbox.state.starts.length)
  locals : ∃ last, Walk 0 (recordedDepths carrier .localStart depths.log) last ∧
    ((depths.queues carrier).reporting = false →
      last = (depths.queues carrier).locals.starts.length)

/-- An abort that empties the local queue finds it empty. -/
def emptyHanded (choice : ι × Operation) (depths : Depths ι) : Bool :=
  match choice.2 with
  | .takeStarts => (depths.queues choice.1).locals.starts.isEmpty
  | _ => true

/-- What a step records is what it adds to the history of its own carrier. -/
theorem recordedDepths_step {carrier actor : ι} {queue : QueueKind} {log : List (QueueDepth ι)}
    {recorded : Option (QueueKind × Nat)} {capacities : QueueKind → Nat}
    (same : ∀ kind, capacities kind = capacity) :
    recordedDepths carrier queue (log ++ (recorded.map fun recorded =>
        (⟨actor, recorded.1, recorded.2, capacities recorded.1⟩ : QueueDepth ι)).toList) =
      recordedDepths carrier queue log ++
        if actor = carrier then recordedOf queue capacity recorded else [] := by
  unfold recordedDepths
  rw [List.filter_append, List.map_append]
  congr 1
  cases recorded with
  | none => simp [recordedOf]
  | some recorded =>
      by_cases own : actor = carrier <;> by_cases kind : recorded.1 = queue <;>
        simp [recordedOf, own, kind, same]

/-- The invariant of the queues of all carriers. -/
structure Recorded (capacity : Nat) (depths : Depths ι) : Prop where
  capacity_eq : depths.carrierQueueCapacity = capacity
  remote : ∀ carrier, Remote capacity (recordedDepths carrier .start depths.log)
    (depths.queues carrier)
  locals : ∀ carrier, Locals capacity (recordedDepths carrier .localStart depths.log)
    (depths.queues carrier)

theorem Recorded.step {depths depths' : Depths ι} (record : Recorded capacity depths)
    {choice : ι × Operation} (guarded : emptyHanded choice depths = true)
    (taken : depths.step choice = some depths') : Recorded capacity depths' := by
  obtain ⟨actor, operation⟩ := choice
  obtain ⟨⟨queues, recorded⟩, moved, rfl⟩ := Option.map_eq_some_iff.mp taken
  have remote := (record.remote actor).step moved
  have locals : Locals capacity
      (recordedDepths actor .localStart depths.log ++ recordedOf .localStart capacity recorded)
      queues := by
    refine (record.locals actor).step ?_ moved
    rintro rfl
    simpa [emptyHanded] using guarded
  have capacities : ∀ kind, depths.recordedCapacity queues kind = capacity := by
    intro kind
    cases kind with
    | start => exact remote.capacity_eq
    | localStart => exact record.capacity_eq
    | wake => exact record.capacity_eq
  refine ⟨record.capacity_eq, fun carrier => ?_, fun carrier => ?_⟩
  · dsimp only
    rw [recordedDepths_step capacities]
    by_cases own : actor = carrier
    · subst own
      rw [if_pos rfl, Function.update_self]
      exact remote
    · rw [if_neg own, List.append_nil, Function.update_of_ne (Ne.symm own)]
      exact record.remote carrier
  · dsimp only
    rw [recordedDepths_step capacities]
    by_cases own : actor = carrier
    · subst own
      rw [if_pos rfl, Function.update_self]
      exact locals
    · rw [if_neg own, List.append_nil, Function.update_of_ne (Ne.symm own)]
      exact record.locals carrier

theorem Recorded.reachable {depths : Depths ι}
    (reachable : ((depthMachine ι capacity).guarded
      fun choice depths => emptyHanded choice depths = true).Reachable depths) :
    Recorded capacity depths := by
  apply reachable.induct
  · rintro _ rfl
    exact ⟨rfl, fun _ => ⟨rfl, Nat.zero_le _, rfl⟩, fun _ => ⟨rfl, rfl, Nat.zero_le _, rfl⟩⟩
  · rintro before after - record ⟨choice, guarded, taken⟩
    exact record.step guarded taken

/-- While no abort takes local starts, the recorded depths replay every start queue. -/
theorem depths_replay {depths : Depths ι}
    (reachable : ((depthMachine ι capacity).guarded
      fun choice depths => emptyHanded choice depths = true).Reachable depths) (carrier : ι) :
    Replays depths carrier := by
  have record := Recorded.reachable reachable
  refine ⟨?_, ?_⟩
  · obtain ⟨middle, walk, rest⟩ := (record.remote carrier).walk.split
    refine ⟨middle, walk, fun free => ?_⟩
    rw [free] at rest
    exact rest
  · obtain ⟨middle, walk, rest⟩ := (record.locals carrier).walk.split
    refine ⟨middle, walk, fun resting => ?_⟩
    rw [resting] at rest
    exact rest

/-- The result for a carrier that has received a local start. -/
theorem depths_replay_one : ∃ depths : Depths Unit, depths.log ≠ [] ∧ Replays depths () := by
  refine ⟨_, ?_, depths_replay (@Machine.run_reachable _ _ (depthMachine Unit 1) emptyHanded
    [((), .spawn ⟨1, 0⟩), ((), .report), ((), .receiveLocal), ((), .report), ((), .takeStarts)]
    _ _ (.initial rfl) rfl) ()⟩
  exact List.cons_ne_nil _ _

/-- An abort takes a local start, and the last recorded depth stays. -/
theorem depths_misreport : ∃ depths : Depths Unit,
    (depthMachine Unit 1).system.Reachable depths ∧ ¬ Replays depths () := by
  refine ⟨_, Machine.guarded_reachable (@Machine.run_reachable _ _ _ (fun _ _ => true)
    [((), .spawn ⟨1, 0⟩), ((), .report), ((), .takeStarts)] _ _ (.initial rfl) rfl), ?_⟩
  rintro ⟨-, last, walk, rests⟩
  have empty : last = 0 := rests rfl
  obtain ⟨-, -, ends⟩ : Walk 0 [(1, 1)] last := walk
  exact absurd (ends.trans empty) (by decide)

end VThread.Evidence
