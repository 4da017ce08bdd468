import VThread.Progress.Counters

/-!
# Batches of progress

Between publications a task only yields, and a full batch of yields is published.  So the published
counts trail those of the carrier by less than a batch, and a park or the end of the task makes them
exact.
-/

namespace VThread.Counters

open VThread.Lib VThread.Progress

/-! ## What transitions store -/

/-- A store that is not of a count. -/
def Store.Silent : Store → Prop
  | .mounts _ | .yields _ => False
  | .yielded _ | .mounted _ => True

/-- The cells of a writer count the finished mounts, and the yields among them. -/
structure Counted (writer : TaskProgressWriter) (finished yielded : Nat) : Prop where
  yields : writer.yields = UInt64.ofNat yielded
  others : writer.nonYieldMounts = UInt64.ofNat (finished - yielded)
  bounded : yielded ≤ finished

theorem Counted.new : Counted .new 0 0 := ⟨rfl, rfl, Nat.le_refl 0⟩

section Writers

variable {writer : TaskProgressWriter} {finished yielded : Nat}

theorem Counted.mounts (counted : Counted writer finished yielded) :
    writer.mounts = UInt64.ofNat finished := by
  rw [TaskProgressWriter.mounts, counted.yields, counted.others, ← UInt64.ofNat_add,
    Nat.add_sub_cancel' counted.bounded]

theorem Counted.finish (counted : Counted writer finished yielded) :
    Counted writer.finishNonYieldMount (finished + 1) yielded where
  yields := counted.yields
  others := by
    have more : finished + 1 - yielded = finished - yielded + 1 :=
      Nat.succ_sub counted.bounded
    rw [TaskProgressWriter.finishNonYieldMount, counted.others, more, UInt64.ofNat_add]
    rfl
  bounded := Nat.le_succ_of_le counted.bounded

theorem Counted.park (counted : Counted writer finished yielded) :
    Counted writer.park.1 (finished + 1) yielded where
  yields := counted.finish.yields
  others := counted.finish.others
  bounded := counted.finish.bounded

theorem Counted.yieldNow (counted : Counted writer finished yielded) :
    Counted writer.yieldNow.1 (finished + 1) (yielded + 1) where
  yields := by
    rw [UInt64.ofNat_add, ← counted.yields]
    rfl
  others := by
    rw [Nat.add_sub_add_right]
    exact counted.others
  bounded := Nat.succ_le_succ counted.bounded

/-- The 64-bit count of yields is a multiple of a batch when the number is. -/
theorem batch_iff (yielded : Nat) :
    UInt64.ofNat yielded % counterBatch = 0 ↔ yielded % 64 = 0 := by
  rw [← UInt64.toNat_inj, UInt64.toNat_mod, UInt64.toNat_ofNat']
  have batch : counterBatch.toNat = 64 := rfl
  rw [batch]
  simp only [UInt64.toNat_zero]
  omega

/-- An update that says nothing is not applied, and stores nothing. -/
theorem update_stores (firstYield : Bool) (counters : Option (UInt64 × UInt64)) :
    (if firstYield || counters.isSome then (TaskProgressUpdate.mk firstYield counters).apply
      else []) = (TaskProgressUpdate.mk firstYield counters).apply := by
  cases firstYield <;> cases counters <;> rfl

/-- A yield stores both counts after a full batch, and else none. -/
theorem yieldNow_stores (counted : Counted writer finished yielded) :
    ∃ later, (∀ store ∈ later, store.Silent) ∧ later.getLast? = some (.mounted 0) ∧
      writer.yieldNow.2 =
        if (yielded + 1) % 64 = 0 then
          .mounts (UInt64.ofNat (finished + 1)) :: .yields (UInt64.ofNat (yielded + 1)) :: later
        else later := by
  have yields : writer.yields + 1 = UInt64.ofNat (yielded + 1) := counted.yieldNow.yields
  have mounts : TaskProgressWriter.mounts { writer with yields := writer.yields + 1 } =
      UInt64.ofNat (finished + 1) := counted.yieldNow.mounts
  refine ⟨(if !writer.yielded then [.yielded true] else []) ++ [.mounted 0], ?_, ?_, ?_⟩
  · cases writer.yielded <;> simp [Store.Silent]
  · simp
  · rw [TaskProgressWriter.yieldNow, update_stores, mounts, yields]
    by_cases full : (yielded + 1) % 64 = 0
    · rw [if_pos ((batch_iff _).mpr full), if_pos full]
      rfl
    · rw [if_neg (mt (batch_iff _).mp full), if_neg full]
      rfl

/-- Parks and ends store both counts. -/
theorem park_stores (counted : Counted writer finished yielded) :
    ∃ later, (∀ store ∈ later, store.Silent) ∧ later.getLast? = some (.mounted 0) ∧
      writer.park.2 =
        .mounts (UInt64.ofNat (finished + 1)) :: .yields (UInt64.ofNat yielded) :: later := by
  have ended := counted.finish
  refine ⟨(if writer.yielded then [.yielded false] else []) ++ [.mounted 0], ?_, ?_, ?_⟩
  · cases writer.yielded <;> simp [Store.Silent]
  · simp
  · rw [TaskProgressWriter.park, ended.mounts, ended.yields]
    rfl

theorem unmount_mounted {carrier : CarrierProgress} {task : TaskId}
    (counted : Counted writer finished yielded) (mounted : carrier.slot = task.get) :
    writer.unmount carrier task = (writer.finishNonYieldMount,
      [.mounts (UInt64.ofNat (finished + 1)), .yields (UInt64.ofNat yielded), .mounted 0]) := by
  have found : carrier.mounted = some task := by
    simp [CarrierProgress.mounted, mounted, task.nonzero]
  have ended := counted.finish
  simp [TaskProgressWriter.unmount, found, publish, ended.mounts, ended.yields]

/-- A task that is not mounted finishes none. -/
theorem unmount_resting {carrier : CarrierProgress} {task : TaskId}
    (counted : Counted writer finished yielded) (apart : carrier.slot ≠ task.get) :
    writer.unmount carrier task = (writer,
      [.mounts (UInt64.ofNat finished), .yields (UInt64.ofNat yielded), .mounted 0]) := by
  have other : carrier.mounted ≠ some task := by
    rw [CarrierProgress.mounted]
    split
    · exact fun same => apart (congrArg TaskId.get (Option.some.inj same))
    · rintro ⟨⟩
  simp [TaskProgressWriter.unmount, other, publish, counted.mounts, counted.yields]

end Writers

/-! ## What readers find -/

/-- Published counts between publications: they lag by yields, of an unfinished batch. -/
structure Settled (finished yielded mounts yields : Nat) : Prop where
  same : mounts + yielded = finished + yields
  batch : yielded / 64 * 64 ≤ yields
  bounded : yields ≤ yielded

theorem Settled.exact (finished yielded : Nat) : Settled finished yielded finished yielded :=
  ⟨rfl, Nat.div_mul_le_self _ _, Nat.le_refl _⟩

/-- Published counts, and the stores still to be made before a task rests. -/
inductive Pending (finished yielded : Nat) (rest : Resting) : Nat → Nat → List Store → Prop where
  | both {mounts yields : Nat} {later : List Store} :
      mounts ≤ finished → finished ≤ mounts + 64 → yields ≤ yielded → yielded ≤ yields + 64 →
      (∀ store ∈ later, store.Silent) →
      Pending finished yielded rest mounts yields
        (.mounts (UInt64.ofNat finished) :: .yields (UInt64.ofNat yielded) :: later)
  | yields {yields : Nat} {later : List Store} :
      yields ≤ yielded → yielded ≤ yields + 64 → (∀ store ∈ later, store.Silent) →
      Pending finished yielded rest finished yields (.yields (UInt64.ofNat yielded) :: later)
  | settled {mounts yields : Nat} {later : List Store} :
      Settled finished yielded mounts yields → (rest ≠ .ready → yields = yielded) →
      (∀ store ∈ later, store.Silent) → Pending finished yielded rest mounts yields later

def Stage.Publishes (finished yielded mounts yields : Nat) : Stage → Prop
  | .mounted => Settled finished yielded mounts yields
  | .resting rest => Pending finished yielded rest mounts yields []
  | .storing store stores rest => Pending finished yielded rest mounts yields (store :: stores)

theorem publishes_publishing {finished yielded mounts yields : Nat} {stores : List Store}
    {rest : Resting} :
    (Stage.publishing stores rest).Publishes finished yielded mounts yields ↔
      Pending finished yielded rest mounts yields stores := by
  cases stores <;> rfl

/-- The slot names the task while it is mounted, and is free once it rests. -/
def Stage.Slot (task : TaskId) (slot : Nat) : Stage → Prop
  | .mounted => slot = task.get
  | .resting _ => slot ≠ task.get
  | .storing store stores _ => (store :: stores).getLast? = some (.mounted 0)

theorem slot_publishing {task : TaskId} {slot : Nat} {stores : List Store} {rest : Resting}
    (last : stores.getLast? = some (.mounted 0)) :
    (Stage.publishing stores rest).Slot task slot := by
  cases stores with
  | nil => cases last
  | cons => exact last

/-- A task and what readers find of its counters. -/
structure Inv (state : State) (mounts yields : Nat) : Prop where
  counted : Counted state.writer state.finished state.yielded
  readMounts : state.progress.mounts = UInt64.ofNat mounts
  readYields : state.progress.yields = UInt64.ofNat yields
  publishes : state.stage.Publishes state.finished state.yielded mounts yields
  slot : state.stage.Slot state.task state.carrier.slot

theorem inv_initial {task : TaskId} {slot : Nat} (apart : slot ≠ task.get) :
    Inv ⟨task, ⟨slot⟩, .new, .new, .resting .ready, 0, 0⟩ 0 0 where
  counted := .new
  readMounts := rfl
  readYields := rfl
  publishes := .settled (.exact 0 0) (fun _ => rfl) (by simp)
  slot := apart

section Steps

variable {state : State} {mounts yields : Nat}

/-- Between ends of mounts the counts are settled. -/
theorem Inv.settled (inv : Inv state mounts yields)
    (rests : ∀ store stores rest, state.stage ≠ .storing store stores rest) :
    Settled state.finished state.yielded mounts yields := by
  have publishes := inv.publishes
  cases stage : state.stage with
  | mounted =>
      rw [stage] at publishes
      exact publishes
  | resting rest =>
      rw [stage] at publishes
      cases publishes with
      | settled settled _ _ => exact settled
  | storing store stores rest => exact absurd stage (rests store stores rest)

/-- The end of one more mount leaves counts to publish. -/
theorem Settled.both {finished yielded finished' yielded' : Nat} {rest : Resting}
    {later : List Store} (settled : Settled finished yielded mounts yields)
    (ended : finished ≤ finished' ∧ finished' ≤ finished + 1)
    (gave : yielded ≤ yielded' ∧ yielded' ≤ yielded + 1)
    (silent : ∀ store ∈ later, store.Silent) :
    Pending finished' yielded' rest mounts yields
      (.mounts (UInt64.ofNat finished') :: .yields (UInt64.ofNat yielded') :: later) := by
  have same := settled.same
  have batch := settled.batch
  have bounded := settled.bounded
  exact .both (by omega) (by omega) (by omega) (by omega) silent

/-- A yield inside a batch lags by one more. -/
theorem Settled.yieldNow {finished yielded : Nat}
    (settled : Settled finished yielded mounts yields) (inside : ¬ (yielded + 1) % 64 = 0) :
    Settled (finished + 1) (yielded + 1) mounts yields := by
  have same := settled.same
  have batch := settled.batch
  have bounded := settled.bounded
  constructor
  case same => omega
  case batch => omega
  case bounded => omega

/-- A mount ended, and the carrier begins to publish it. -/
theorem Inv.ends {writer : TaskProgressWriter} {stores : List Store} {rest : Resting}
    {finished yielded : Nat} (inv : Inv state mounts yields)
    (counted : Counted writer finished yielded)
    (pending : Pending finished yielded rest mounts yields stores)
    (last : stores.getLast? = some (.mounted 0)) :
    Inv { state with writer, stage := .publishing stores rest, finished, yielded }
      mounts yields where
  counted := counted
  readMounts := inv.readMounts
  readYields := inv.readYields
  publishes := publishes_publishing.mpr pending
  slot := slot_publishing last

theorem getLast?_counts {first second : Store} {later : List Store}
    (last : later.getLast? = some (.mounted 0)) :
    (first :: second :: later).getLast? = some (.mounted 0) := by
  cases later with
  | nil => cases last
  | cons => exact last

theorem dispatched_inv (inv : Inv state mounts yields) (mounted : state.stage = .mounted)
    (fiber : FiberState) : Inv (state.dispatched fiber) mounts yields := by
  have settled := inv.settled (by simp [mounted])
  have counted := inv.counted
  have stays : state.yielded ≤ state.yielded ∧ state.yielded ≤ state.yielded + 1 :=
    ⟨Nat.le_refl _, Nat.le_succ _⟩
  have grows : ∀ count, count ≤ count + 1 ∧ count + 1 ≤ count + 1 :=
    fun count => ⟨Nat.le_succ count, Nat.le_refl _⟩
  cases fiber with
  | yieldNow =>
      obtain ⟨later, silent, last, stores⟩ := yieldNow_stores counted
      rw [State.dispatched, stores]
      by_cases full : (state.yielded + 1) % 64 = 0
      · rw [if_pos full]
        exact inv.ends counted.yieldNow (settled.both (grows _) (grows _) silent)
          (getLast?_counts last)
      · rw [if_neg full]
        exact inv.ends counted.yieldNow
          (.settled (settled.yieldNow full) (fun busy => absurd rfl busy) silent) last
  | park =>
      obtain ⟨later, silent, last, stores⟩ := park_stores counted
      rw [State.dispatched, stores]
      exact inv.ends counted.park (settled.both (grows _) stays silent) (getLast?_counts last)
  | complete =>
      have slot := inv.slot
      rw [mounted] at slot
      rw [State.dispatched, unmount_mounted counted slot]
      exact inv.ends counted.finish (settled.both (grows _) stays (by simp [Store.Silent])) rfl

/-- A reclaimed task finished a mount exactly when it was mounted. -/
theorem discarded_inv (inv : Inv state mounts yields)
    (rests : ∀ store stores rest, state.stage ≠ .storing store stores rest) :
    Inv state.discarded mounts yields := by
  have settled := inv.settled rests
  have counted := inv.counted
  have slot := inv.slot
  cases stage : state.stage with
  | mounted =>
      rw [stage] at slot
      rw [State.discarded, unmount_mounted counted slot, if_pos stage]
      exact inv.ends counted.finish (settled.both ⟨Nat.le_succ _, Nat.le_refl _⟩
        ⟨Nat.le_refl _, Nat.le_succ _⟩ (by simp [Store.Silent])) rfl
  | resting rest =>
      rw [stage] at slot
      rw [State.discarded, unmount_resting counted slot, if_neg (by simp [stage])]
      exact inv.ends counted (settled.both ⟨Nat.le_refl _, Nat.le_succ _⟩
        ⟨Nat.le_refl _, Nat.le_succ _⟩ (by simp [Store.Silent])) rfl
  | storing store stores rest => exact absurd stage (rests store stores rest)

/-- A silent store leaves the counts that readers find. -/
theorem Store.Silent.apply {store : Store} (silent : store.Silent) (state : State) :
    (store.apply state).progress.mounts = state.progress.mounts ∧
      (store.apply state).progress.yields = state.progress.yields := by
  cases store with
  | mounts | yields => exact silent.elim
  | yielded | mounted => exact ⟨rfl, rfl⟩

/-- A store changes what readers find, or the slot, and nothing else. -/
theorem apply_kept (state : State) (store : Store) : (store.apply state).writer = state.writer ∧
    (store.apply state).task = state.task ∧ (store.apply state).finished = state.finished ∧
      (store.apply state).yielded = state.yielded := by
  cases store <;> exact ⟨rfl, rfl, rfl, rfl⟩

/-- The slot is free after the last store. -/
theorem slot_stored {store : Store} {stores : List Store} {rest : Resting}
    (last : (store :: stores).getLast? = some (.mounted 0)) :
    (Stage.publishing stores rest).Slot state.task (store.apply state).carrier.slot := by
  cases stores with
  | nil =>
      cases last
      exact state.task.nonzero.symm
  | cons => exact last

/-- One store publishes a count or none; counts that readers find only grow. -/
theorem stored_inv {store : Store} {stores : List Store} {rest : Resting}
    (inv : Inv state mounts yields) (stage : state.stage = .storing store stores rest) :
    ∃ mounts' yields',
      Inv { store.apply state with stage := .publishing stores rest } mounts' yields' ∧
        mounts ≤ mounts' ∧ yields ≤ yields' := by
  obtain ⟨writer, task, finished, yielded⟩ := apply_kept state store
  have publishes := inv.publishes
  have slot := inv.slot
  rw [stage] at publishes slot
  have counted : Counted (store.apply state).writer (store.apply state).finished
      (store.apply state).yielded := by
    rw [writer, finished, yielded]
    exact inv.counted
  have free : (Stage.publishing stores rest).Slot (store.apply state).task
      (store.apply state).carrier.slot := by
    rw [task]
    exact slot_stored slot
  cases publishes with
  | both below above inside near silent =>
      refine ⟨state.finished, yields, ⟨counted, rfl, inv.readYields, ?_, free⟩, below,
        Nat.le_refl _⟩
      exact .yields inside near silent
  | yields inside near silent =>
      refine ⟨state.finished, state.yielded, ⟨counted, inv.readMounts, rfl, ?_, free⟩,
        Nat.le_refl _, inside⟩
      exact publishes_publishing.mpr (.settled (.exact _ _) (fun _ => rfl) silent)
  | settled settled exact' silent =>
      obtain ⟨sameMounts, sameYields⟩ :=
        Store.Silent.apply (silent store List.mem_cons_self) state
      refine ⟨mounts, yields, ⟨counted, sameMounts.trans inv.readMounts,
        sameYields.trans inv.readYields, ?_, free⟩, Nat.le_refl _, Nat.le_refl _⟩
      rw [finished, yielded]
      exact publishes_publishing.mpr (.settled settled exact' fun later member =>
        silent later (List.mem_cons_of_mem _ member))

end Steps

/-! ## Runs -/

/-- What each choice does, where it may be taken. -/
inductive Moved (state : State) : Choice → State → Prop where
  | others {slot : Nat} : state.stage.Rests → slot ≠ state.task.get →
      Moved state (.others slot) { state with carrier := ⟨slot⟩ }
  | mount : state.stage = .resting .ready →
      Moved state .mount { state with
        writer := (state.writer.mount state.task).1
        carrier := (state.writer.mount state.task).2.1
        stage := .mounted }
  | interrupted : state.stage = .mounted → Moved state (.resume .yieldNow true) state
  | resume {fiber : FiberState} {interrupted : Bool} : state.stage = .mounted →
      ¬ (fiber = .yieldNow ∧ interrupted = true) →
      Moved state (.resume fiber interrupted) (state.dispatched fiber)
  | discard : (∀ store stores rest, state.stage ≠ .storing store stores rest) →
      Moved state .discard state.discarded
  | wake : state.stage = .resting .parked →
      Moved state .wake { state with stage := .resting .ready }
  | store {store : Store} {stores : List Store} {rest : Resting} :
      state.stage = .storing store stores rest →
      Moved state .store { store.apply state with stage := .publishing stores rest }
  | next {task : TaskId} {recycled reused : Bool} {slot : Nat} : slot ≠ task.get →
      Moved state (.next task recycled reused slot) (state.renewed task recycled reused slot)

theorem moved_of_next {state state' : State} {choice : Choice}
    (taken : state.next choice = some state') : Moved state choice state' := by
  cases choice with
  | others slot =>
      obtain ⟨⟨rests, apart⟩, taken⟩ := Option.ite_none_right_eq_some.mp taken
      cases taken
      exact .others rests apart
  | mount =>
      obtain ⟨ready, taken⟩ := Option.ite_none_right_eq_some.mp taken
      cases taken
      exact .mount ready
  | resume fiber interrupted =>
      obtain ⟨mounted, taken⟩ := Option.ite_none_right_eq_some.mp taken
      by_cases again : fiber = .yieldNow ∧ interrupted = true
      · have stays := Option.some.inj ((if_pos again).symm.trans taken)
        obtain ⟨rfl, rfl⟩ := again
        exact stays ▸ .interrupted mounted
      · have ended := Option.some.inj ((if_neg again).symm.trans taken)
        exact ended ▸ .resume mounted again
  | discard =>
      obtain ⟨live, taken⟩ := Option.ite_none_right_eq_some.mp taken
      cases taken
      refine .discard fun store stores rest stage => ?_
      simp [stage] at live
  | wake =>
      obtain ⟨parked, taken⟩ := Option.ite_none_right_eq_some.mp taken
      cases taken
      exact .wake parked
  | store =>
      cases stage : state.stage with
      | storing =>
          simp only [State.next, stage, Option.some.injEq] at taken
          exact taken ▸ .store stage
      | resting rest => simp [State.next, stage] at taken
      | mounted => simp [State.next, stage] at taken
  | next =>
      obtain ⟨⟨terminated, apart⟩, taken⟩ := Option.ite_none_right_eq_some.mp taken
      cases taken
      exact .next apart

/-- A choice that ends a mount of the task. -/
def Choice.ends (state : State) : Choice → Bool
  | .resume fiber interrupted => !(decide (fiber = .yieldNow) && interrupted)
  | .discard => decide (state.stage = .mounted)
  | _ => false

/-- A choice that ends a mount by a yield. -/
def Choice.gives : Choice → Bool
  | .resume fiber interrupted => decide (fiber = .yieldNow) && !interrupted
  | _ => false

/-- One task keeps its cells. -/
def Choice.Same : Choice → Prop
  | .next _ _ _ _ => False
  | _ => True

theorem Stage.Rests.resting {stage : Stage} (rests : stage.Rests) :
    ∃ rest, stage = .resting rest := by
  rcases rests with ready | parked | terminated
  · exact ⟨_, ready⟩
  · exact ⟨_, parked⟩
  · exact ⟨_, terminated⟩

theorem renewed_eq (state : State) (task : TaskId) (recycled reused : Bool) (slot : Nat) :
    state.renewed task recycled reused slot =
      ⟨task, ⟨slot⟩, .new, .new, .resting .ready, 0, 0⟩ := by
  cases recycled <;> cases reused <;> rfl

theorem moved_inv {state state' : State} {choice : Choice} {mounts yields : Nat}
    (inv : Inv state mounts yields) (moved : Moved state choice state') :
    ∃ mounts' yields', Inv state' mounts' yields' ∧
      (choice.Same → mounts ≤ mounts' ∧ yields ≤ yields' ∧
        state'.finished = state.finished + (choice.ends state).toNat ∧
        state'.yielded = state.yielded + choice.gives.toNat) := by
  have publishes := inv.publishes
  have slot := inv.slot
  cases moved with
  | others rests apart =>
      obtain ⟨rest, stage⟩ := rests.resting
      refine ⟨mounts, yields, ⟨inv.counted, inv.readMounts, inv.readYields, publishes, ?_⟩,
        fun _ => ⟨Nat.le_refl _, Nat.le_refl _, rfl, rfl⟩⟩
      rw [stage]
      exact apart
  | mount ready =>
      have counted := inv.counted
      refine ⟨mounts, yields, ⟨⟨counted.yields, counted.others, counted.bounded⟩,
        inv.readMounts, inv.readYields, inv.settled (by simp [ready]), rfl⟩,
        fun _ => ⟨Nat.le_refl _, Nat.le_refl _, rfl, rfl⟩⟩
  | interrupted =>
      exact ⟨mounts, yields, inv, fun _ => ⟨Nat.le_refl _, Nat.le_refl _, rfl, rfl⟩⟩
  | @resume fiber interrupted mounted committed =>
      refine ⟨mounts, yields, dispatched_inv inv mounted _,
        fun _ => ⟨Nat.le_refl _, Nat.le_refl _, ?_, ?_⟩⟩ <;>
      cases fiber <;> cases interrupted <;>
        simp [State.dispatched, Choice.ends, Choice.gives] at committed ⊢
  | discard rests =>
      refine ⟨mounts, yields, discarded_inv inv rests,
        fun _ => ⟨Nat.le_refl _, Nat.le_refl _, ?_, rfl⟩⟩
      by_cases mounted : state.stage = .mounted <;>
        simp [State.discarded, Choice.ends, mounted]
  | wake parked =>
      refine ⟨mounts, yields, ⟨inv.counted, inv.readMounts, inv.readYields, ?_, ?_⟩,
        fun _ => ⟨Nat.le_refl _, Nat.le_refl _, rfl, rfl⟩⟩
      · exact .settled (inv.settled (by simp [parked])) (fun busy => absurd rfl busy) (by simp)
      · rw [parked] at slot
        exact slot
  | store stage =>
      obtain ⟨mounts', yields', inv', more, further⟩ := stored_inv inv stage
      obtain ⟨-, -, finished, yielded⟩ := apply_kept state _
      exact ⟨mounts', yields', inv', fun _ => ⟨more, further, finished, yielded⟩⟩
  | @next task recycled reused slot apart =>
      refine ⟨0, 0, ?_, fun same => same.elim⟩
      rw [renewed_eq]
      exact inv_initial apart

/-! ## Exactness -/

/-- What holds of a task in a state, the published counts as long as it has finished fewer than
`2 ^ 64` mounts. -/
structure Law (state : State) : Prop where
  counted : state.writer.mounts = UInt64.ofNat state.finished ∧
    state.writer.yields = UInt64.ofNat state.yielded
  bounded : state.finished < 2 ^ 64 →
    state.progress.mounts.toNat ≤ state.finished ∧ state.progress.yields.toNat ≤ state.yielded
  lag : state.finished < 2 ^ 64 →
    state.finished ≤ state.progress.mounts.toNat + 64 ∧
      state.yielded ≤ state.progress.yields.toNat + 64
  between : state.finished < 2 ^ 64 →
    (∀ store stores rest, state.stage ≠ .storing store stores rest) →
      state.finished < state.progress.mounts.toNat + 64 ∧
        state.yielded < state.progress.yields.toNat + 64
  exact : state.finished < 2 ^ 64 →
    state.stage = .resting .parked ∨ state.stage = .resting .terminated →
      state.progress.mounts.toNat = state.finished ∧
        state.progress.yields.toNat = state.yielded

/-- What a step does to the counts: readers never see them fall, an end of a mount is counted once,
and the cells of the next task count from 0. -/
structure Moves (choice : Choice) (state state' : State) : Prop where
  monotone : choice.Same → state'.finished < 2 ^ 64 →
    state.progress.mounts ≤ state'.progress.mounts ∧
      state.progress.yields ≤ state'.progress.yields
  once : choice.Same →
    state'.writer.mounts = state.writer.mounts + UInt64.ofNat (choice.ends state).toNat ∧
      state'.writer.yields = state.writer.yields + UInt64.ofNat choice.gives.toNat
  fresh : ¬ choice.Same → state'.progress.mounts = 0 ∧ state'.progress.yields = 0 ∧
    state'.writer.mounts = 0 ∧ state'.writer.yields = 0

theorem Pending.bounds {finished yielded mounts yields : Nat} {rest : Resting}
    {stores : List Store} (pending : Pending finished yielded rest mounts yields stores) :
    mounts ≤ finished ∧ finished ≤ mounts + 64 ∧ yields ≤ yielded ∧ yielded ≤ yields + 64 := by
  cases pending with
  | both below above inside near _ => exact ⟨below, above, inside, near⟩
  | yields inside near _ => exact ⟨Nat.le_refl _, Nat.le_add_right _ _, inside, near⟩
  | settled settled _ _ =>
      have same := settled.same
      have batch := settled.batch
      have inside := settled.bounded
      omega

theorem Inv.bounds {state : State} {mounts yields : Nat} (inv : Inv state mounts yields) :
    mounts ≤ state.finished ∧ state.finished ≤ mounts + 64 ∧ yields ≤ state.yielded ∧
      state.yielded ≤ yields + 64 := by
  have publishes := inv.publishes
  cases stage : state.stage with
  | mounted =>
      have settled := inv.settled (by simp [stage])
      have pending : Pending state.finished state.yielded .ready mounts yields [] :=
        .settled settled (fun busy => absurd rfl busy) (by simp)
      exact pending.bounds
  | resting | storing =>
      rw [stage] at publishes
      exact publishes.bounds

theorem toNat_ofNat_of_lt {count : Nat} (small : count < 2 ^ 64) :
    (UInt64.ofNat count).toNat = count := by
  rw [UInt64.toNat_ofNat', Nat.mod_eq_of_lt small]

/-- What readers find is the published counts, before they wrap. -/
theorem Inv.reads {state : State} {mounts yields : Nat} (inv : Inv state mounts yields)
    (small : state.finished < 2 ^ 64) :
    state.progress.mounts.toNat = mounts ∧ state.progress.yields.toNat = yields := by
  have bounds := inv.bounds
  have bounded := inv.counted.bounded
  rw [inv.readMounts, inv.readYields]
  exact ⟨toNat_ofNat_of_lt (by omega), toNat_ofNat_of_lt (by omega)⟩

theorem Inv.law {state : State} {mounts yields : Nat} (inv : Inv state mounts yields) :
    Law state := by
  have bounds := inv.bounds
  constructor
  case counted => exact ⟨inv.counted.mounts, inv.counted.yields⟩
  case bounded =>
    intro small
    rw [(inv.reads small).1, (inv.reads small).2]
    exact ⟨bounds.1, bounds.2.2.1⟩
  case lag =>
    intro small
    rw [(inv.reads small).1, (inv.reads small).2]
    exact ⟨bounds.2.1, bounds.2.2.2⟩
  case between =>
    intro small rests
    have settled := inv.settled rests
    have same := settled.same
    have batch := settled.batch
    rw [(inv.reads small).1, (inv.reads small).2]
    omega
  case exact =>
    intro small ended
    have publishes := inv.publishes
    rw [(inv.reads small).1, (inv.reads small).2]
    have flushed : ∀ rest, rest ≠ .ready → state.stage = .resting rest →
        mounts = state.finished ∧ yields = state.yielded := by
      intro rest busy stage
      rw [stage] at publishes
      cases publishes with
      | settled settled exact' _ =>
          have same := settled.same
          have all := exact' busy
          exact ⟨by omega, all⟩
    rcases ended with parked | terminated
    · exact flushed .parked nofun parked
    · exact flushed .terminated nofun terminated

theorem reachable_inv {state : State} (reachable : machine.system.Reachable state) :
    ∃ mounts yields, Inv state mounts yields := by
  induction reachable with
  | initial isInitial =>
      obtain ⟨task, slot, apart, rfl⟩ := isInitial
      exact ⟨0, 0, inv_initial apart⟩
  | step _ taken ih =>
      obtain ⟨choice, taken⟩ := taken
      obtain ⟨mounts, yields, inv⟩ := ih
      obtain ⟨mounts', yields', inv', -⟩ := moved_inv inv (moved_of_next taken)
      exact ⟨mounts', yields', inv'⟩

theorem moves_of_moved {state state' : State} {choice : Choice} {mounts yields : Nat}
    (inv : Inv state mounts yields) (moved : Moved state choice state') :
    Moves choice state state' := by
  obtain ⟨mounts', yields', inv', grows⟩ := moved_inv inv moved
  constructor
  case monotone =>
    intro same small
    obtain ⟨more, further, finished, -⟩ := grows same
    have before := inv.reads (by omega)
    have after := inv'.reads small
    rw [UInt64.le_iff_toNat_le, UInt64.le_iff_toNat_le, before.1, before.2, after.1, after.2]
    exact ⟨more, further⟩
  case once =>
    intro same
    obtain ⟨-, -, finished, yielded⟩ := grows same
    rw [inv.counted.mounts, inv.counted.yields, inv'.counted.mounts, inv'.counted.yields,
      finished, yielded, UInt64.ofNat_add, UInt64.ofNat_add]
    exact ⟨rfl, rfl⟩
  case fresh =>
    intro other
    cases moved with
    | next apart =>
        rw [renewed_eq]
        exact ⟨rfl, rfl, rfl, rfl⟩
    | others | mount | interrupted | resume | discard | wake | store =>
        exact absurd trivial other

/-- The published counts of a task are monotone, bounded by those of its carrier, trail them by at
most a batch, and are exact once it parked or ended. -/
theorem counters_published {state : State} (reachable : machine.system.Reachable state) :
    Law state ∧ ∀ choice state', state.next choice = some state' → Moves choice state state' := by
  obtain ⟨mounts, yields, inv⟩ := reachable_inv reachable
  exact ⟨inv.law, fun _ _ taken => moves_of_moved inv (moved_of_next taken)⟩

/-- The choices of two mounts: the first yields, the second parks. -/
def yieldThenPark : List Choice :=
  [.mount, .resume .yieldNow false, .store, .store, .mount, .resume .park false, .store, .store,
    .store, .store]

theorem reachable_of_run {choices : List Choice} {state : State}
    (runs : machine.run (fun _ _ => true) choices
      ⟨⟨1, by decide⟩, ⟨0⟩, .new, .new, .resting .ready, 0, 0⟩ = some state) :
    machine.system.Reachable state :=
  Machine.guarded_reachable
    (Machine.run_reachable (.initial ⟨⟨1, by decide⟩, 0, by decide, rfl⟩) runs)

/-- A task yields, which is not published, parks, which publishes both mounts, and is woken and
discarded in its third mount. -/
theorem counters_published_park : ∃ ready parked terminated,
    (machine.system.Reachable ready ∧ ready.stage = .resting .ready ∧ ready.yielded = 1 ∧
      ready.progress.mounts = 0 ∧ Law ready) ∧
    (machine.system.Reachable parked ∧ parked.stage = .resting .parked ∧
      parked.progress.mounts = 2 ∧ parked.progress.yields = 1 ∧ Law parked) ∧
    (machine.system.Reachable terminated ∧ terminated.stage = .resting .terminated ∧
      terminated.progress.mounts = 3 ∧ terminated.progress.yields = 1 ∧ Law terminated) := by
  have yields := @reachable_of_run (yieldThenPark.take 4) _ rfl
  have parks := @reachable_of_run yieldThenPark _ rfl
  have ends := @reachable_of_run
    (yieldThenPark ++ [.wake, .mount, .discard, .store, .store, .store]) _ rfl
  exact ⟨_, _, _, ⟨yields, rfl, rfl, rfl, (counters_published yields).1⟩,
    ⟨parks, rfl, rfl, rfl, (counters_published parks).1⟩,
    ⟨ends, rfl, rfl, rfl, (counters_published ends).1⟩⟩

/-! ## In the middle of a batch, and beyond 64 bits -/

/-- The next store of a transition to rest. -/
theorem next_store {store : Store} {stores : List Store} {state : State} {rest : Resting}
    (stage : state.stage = .publishing (store :: stores) rest) :
    state.next .store = some { store.apply state with stage := .publishing stores rest } := by
  simp [State.next, stage, Stage.publishing]

theorem reachable_store {store : Store} {stores : List Store} {state : State} {rest : Resting}
    (reachable : machine.system.Reachable state)
    (stage : state.stage = .publishing (store :: stores) rest) :
    machine.system.Reachable { store.apply state with stage := .publishing stores rest } :=
  .step reachable ⟨.store, next_store stage⟩

/-- Stores that are not of counts lead to rest. -/
theorem drains {stores : List Store} {state : State} {rest : Resting}
    (reachable : machine.system.Reachable state) (stage : state.stage = .publishing stores rest)
    (silent : ∀ store ∈ stores, store.Silent) :
    ∃ state', machine.system.Reachable state' ∧ state'.stage = .resting rest ∧
      state'.progress.mounts = state.progress.mounts ∧
      state'.progress.yields = state.progress.yields ∧
      state'.finished = state.finished ∧ state'.yielded = state.yielded := by
  induction stores generalizing state with
  | nil => exact ⟨state, reachable, stage, rfl, rfl, rfl, rfl⟩
  | cons store stores ih =>
      obtain ⟨-, -, finished, yielded⟩ := apply_kept state store
      obtain ⟨sameMounts, sameYields⟩ :=
        Store.Silent.apply (silent store List.mem_cons_self) state
      obtain ⟨state', reachable', stage', mounts', yields', finished', yielded'⟩ :=
        ih (reachable_store reachable stage) rfl fun later member =>
          silent later (List.mem_cons_of_mem _ member)
      exact ⟨state', reachable', stage', mounts'.trans sameMounts, yields'.trans sameYields,
        finished'.trans finished, yielded'.trans yielded⟩

/-- A task that only ever yields, with as many full batches published. -/
structure Yielding (state : State) (count : Nat) : Prop where
  reachable : machine.system.Reachable state
  finished : state.finished = count
  yielded : state.yielded = count
  mounts : state.progress.mounts = UInt64.ofNat (count / 64 * 64)
  yields : state.progress.yields = UInt64.ofNat (count / 64 * 64)

/-- The end of one more of its mounts. -/
theorem Yielding.again {state : State} {count : Nat} (yielding : Yielding state count)
    (ready : state.stage = .resting .ready) :
    ∃ later state', machine.system.Reachable state' ∧ (∀ store ∈ later, store.Silent) ∧
      state'.stage = .publishing (if (count + 1) % 64 = 0 then
        .mounts (UInt64.ofNat (count + 1)) :: .yields (UInt64.ofNat (count + 1)) :: later
        else later) .ready ∧
      state'.finished = count + 1 ∧ state'.yielded = count + 1 ∧
      state'.progress = state.progress := by
  obtain ⟨mounts, yields, inv⟩ := reachable_inv yielding.reachable
  have counted := inv.counted
  rw [yielding.finished, yielding.yielded] at counted
  have mounted : machine.system.Reachable _ :=
    .step yielding.reachable ⟨.mount, if_pos ready⟩
  have ended : machine.system.Reachable _ := .step mounted ⟨.resume .yieldNow false, rfl⟩
  obtain ⟨later, silent, -, stores⟩ := yieldNow_stores
    (⟨counted.yields, counted.others, counted.bounded⟩ :
      Counted (state.writer.mount state.task).1 count count)
  refine ⟨later, _, ended, silent, congrArg (Stage.publishing · .ready) stores, ?_, ?_, rfl⟩
  · exact congrArg (· + 1) yielding.finished
  · exact congrArg (· + 1) yielding.yielded

theorem yields_only (count : Nat) :
    ∃ state, Yielding state count ∧ state.stage = .resting .ready := by
  induction count with
  | zero =>
      exact ⟨_, ⟨.initial ⟨⟨1, by decide⟩, 0, by decide, rfl⟩, rfl, rfl, rfl, rfl⟩, rfl⟩
  | succ count ih =>
      obtain ⟨state, yielding, ready⟩ := ih
      obtain ⟨later, ended, reachable, silent, stage, finished, yielded, progress⟩ :=
        yielding.again ready
      by_cases full : (count + 1) % 64 = 0
      · have whole : (count + 1) / 64 * 64 = count + 1 := by omega
        rw [if_pos full] at stage
        have first := reachable_store reachable stage
        have second := reachable_store first rfl
        obtain ⟨state', reachable', stage', mounts, yields, finished', yielded'⟩ :=
          drains second rfl silent
        refine ⟨state', ⟨reachable', finished'.trans finished, yielded'.trans yielded, ?_, ?_⟩,
          stage'⟩
        · rw [mounts, whole]
          rfl
        · rw [yields, whole]
          rfl
      · have inside : (count + 1) / 64 * 64 = count / 64 * 64 := by omega
        rw [if_neg full] at stage
        obtain ⟨state', reachable', stage', mounts, yields, finished', yielded'⟩ :=
          drains reachable stage silent
        refine ⟨state', ⟨reachable', finished'.trans finished, yielded'.trans yielded, ?_, ?_⟩,
          stage'⟩
        · rw [mounts, progress, yielding.mounts, inside]
        · rw [yields, progress, yielding.yields, inside]

/-- The last yield of a batch, before its first store. -/
theorem batch_ends (count : Nat) (full : (count + 1) % 64 = 0) :
    ∃ later state, machine.system.Reachable state ∧
      state.stage = .publishing (.mounts (UInt64.ofNat (count + 1)) ::
        .yields (UInt64.ofNat (count + 1)) :: later) .ready ∧
      state.finished = count + 1 ∧ state.yielded = count + 1 ∧
      state.progress.mounts = UInt64.ofNat (count / 64 * 64) ∧
      state.progress.yields = UInt64.ofNat (count / 64 * 64) := by
  obtain ⟨state, yielding, ready⟩ := yields_only count
  obtain ⟨later, ended, reachable, -, stage, finished, yielded, progress⟩ :=
    yielding.again ready
  rw [if_pos full] at stage
  exact ⟨later, ended, reachable, stage, finished, yielded, progress ▸ yielding.mounts,
    progress ▸ yielding.yields⟩

/-- Before the stores of a batch the counts trail by all of it, and the batch with which the 64-bit
counters wrap publishes fewer mounts than before. -/
theorem counters_lag_and_wrap :
    (∃ state, machine.system.Reachable state ∧ state.finished = 64 ∧ state.yielded = 64 ∧
      state.progress.mounts = 0 ∧ state.progress.yields = 0) ∧
    ∃ state state', machine.system.Reachable state ∧ state.next .store = some state' ∧
      state'.progress.mounts < state.progress.mounts := by
  constructor
  · obtain ⟨_, state, reachable, -, finished, yielded, mounts, yields⟩ :=
      batch_ends 63 (by decide)
    exact ⟨state, reachable, finished, yielded, mounts, yields⟩
  · obtain ⟨later, state, reachable, stage, -, -, mounts, -⟩ :=
      batch_ends (2 ^ 64 - 1) (by decide)
    have wraps : UInt64.ofNat (2 ^ 64 - 1 + 1) < state.progress.mounts := by
      rw [mounts]
      decide
    exact ⟨state, _, reachable, next_store stage, wraps⟩

end VThread.Counters
