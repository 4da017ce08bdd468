import VThread.Lib.Census
import VThread.Await.Target

/-!
# Steps of waiting threads, carriers and clients

What each step does, and the counts that it exchanges: registered waiters and tasks that
were admitted and are not retired.
-/

namespace VThread.Await

open VThread.Lib

variable {ι : Type} [DecidableEq ι]

/-! ## Every step -/

/-- Steps of a waiting thread. -/
inductive Waits (id : ι) (shared : Shared ι) : Pc ι → Shared ι → Pc ι → Prop where
  | call (wait : Wait) : Waits id shared (.idle none) shared (.register wait)
  | register (wait : Wait) : Waits id shared (.register wait)
      { shared with targetWaiters := shared.targetWaiters + wait.listens } (.loadVersion wait)
  | loadVersion (wait : Wait) : Waits id shared (.loadVersion wait) shared
      (.loadRetired wait shared.signal.notified)
  | loadRetired (wait : Wait) (observed : Nat) : Waits id shared (.loadRetired wait observed)
      shared (.loadAdmitted wait observed (shared.retired wait.scope))
  | drained (wait : Wait) (observed retired : Nat) : retired ≤ shared.admitted wait.scope →
      wait.target = none → Waits id shared (.loadAdmitted wait observed retired) shared
        (wait.checked observed (shared.admitted wait.scope - retired) false)
  | loadAdmitted (wait : Wait) (observed retired : Nat) (target : TaskId) :
      retired ≤ shared.admitted wait.scope → wait.target = some target →
      Waits id shared (.loadAdmitted wait observed retired) shared
        (.loadDone wait observed (shared.admitted wait.scope - retired))
  | panic (wait : Wait) (observed retired : Nat) : shared.admitted wait.scope < retired →
      Waits id shared (.loadAdmitted wait observed retired) shared .panicked
  | loadDone (wait : Wait) (observed active : Nat) : Waits id shared
      (.loadDone wait observed active) shared
      (wait.checked observed active (wait.target.any shared.done))
  | expire (wait : Wait) (observed : Nat) : Waits id shared (.undone wait observed) shared
      (.unregister wait)
  | block (wait : Wait) (observed : Nat) : Waits id shared (.undone wait observed) shared
      (.lockGate wait observed)
  | lockGate (wait : Wait) (observed : Nat) : Waits id shared (.lockGate wait observed)
      { shared with signal := { shared.signal with gate := some id } } (.addWaiter wait observed)
  | addWaiter (wait : Wait) (observed : Nat) : Waits id shared (.addWaiter wait observed)
      { shared with signal := { shared.signal with waiters := shared.signal.waiters + 1 } }
      (.loadEpoch wait observed)
  | unchanged (wait : Wait) (observed : Nat) : Waits id shared (.loadEpoch wait observed) shared
      (.sleep wait observed)
  | changed (wait : Wait) (observed : Nat) : Waits id shared (.loadEpoch wait observed) shared
      (.removeWaiter wait)
  | timeOut (wait : Wait) (observed : Nat) : Waits id shared (.sleep wait observed) shared
      (.removeWaiter wait)
  | sleep (wait : Wait) (observed : Nat) : Waits id shared (.sleep wait observed)
      { shared with signal := { shared.signal with
        gate := none, blocked := Function.update shared.signal.blocked id true } }
      (.blocked wait observed)
  | wake (wait : Wait) (observed : Nat) (blocked : ι → Bool) :
      Waits id shared (.blocked wait observed)
        { shared with signal := { shared.signal with gate := some id, blocked := blocked } }
        (.loadEpoch wait observed)
  | removeWaiter (wait : Wait) : Waits id shared (.removeWaiter wait)
      { shared with signal := { shared.signal with waiters := shared.signal.waiters - 1 } }
      (.unlockGate wait)
  | unlockGate (wait : Wait) : Waits id shared (.unlockGate wait)
      { shared with signal := { shared.signal with gate := none } } (.loadVersion wait)
  | unregister (wait : Wait) : Waits id shared (.unregister wait)
      { shared with targetWaiters := shared.targetWaiters - wait.listens } (.idle none)

theorem waitStep_waits {id : ι} {choice : Choice ι} {shared shared' : Shared ι} {pc pc' : Pc ι}
    (taken : waitStep id choice shared pc = some (shared', pc')) :
    Waits id shared pc shared' pc' := by
  cases pc with
  | idle kept =>
      cases kept <;> cases choice <;> cases taken
      exact .call _
  | register wait =>
      cases choice <;> cases taken
      exact .register wait
  | loadVersion wait =>
      cases choice <;> cases taken
      exact .loadVersion wait
  | loadRetired wait observed =>
      cases choice <;> cases taken
      exact .loadRetired wait observed
  | loadAdmitted wait observed retired =>
      cases choice with
      | go =>
          rw [waitStep] at taken
          split at taken
          · rename_i fits
            split at taken
            · rename_i noTarget
              cases taken
              exact .drained wait observed retired fits noTarget
            · rename_i target isTarget
              cases taken
              exact .loadAdmitted wait observed retired target fits isTarget
          · rename_i exceeds
            cases taken
            exact .panic wait observed retired (Nat.lt_of_not_le exceeds)
      | _ => cases taken
  | loadDone wait observed active =>
      cases choice <;> cases taken
      exact .loadDone wait observed active
  | undone wait observed =>
      cases choice with
      | expire =>
          rw [waitStep, Option.ite_none_right_eq_some] at taken
          cases taken.2
          exact .expire wait observed
      | go =>
          cases taken
          exact .block wait observed
      | _ => cases taken
  | lockGate wait observed =>
      cases choice with
      | go =>
          rw [waitStep, Option.ite_none_right_eq_some] at taken
          cases taken.2
          exact .lockGate wait observed
      | _ => cases taken
  | addWaiter wait observed =>
      cases choice <;> cases taken
      exact .addWaiter wait observed
  | loadEpoch wait observed =>
      cases choice <;> cases taken
      split
      · exact .unchanged wait observed
      · exact .changed wait observed
  | sleep wait observed =>
      cases choice with
      | expire =>
          rw [waitStep, Option.ite_none_right_eq_some] at taken
          cases taken.2
          exact .timeOut wait observed
      | go =>
          cases taken
          exact .sleep wait observed
      | _ => cases taken
  | blocked wait observed =>
      cases choice with
      | spurious | go =>
          rw [waitStep, Option.ite_none_right_eq_some] at taken
          cases taken.2
          exact .wake wait observed _
      | _ => cases taken
  | removeWaiter wait =>
      cases choice <;> cases taken
      exact .removeWaiter wait
  | unlockGate wait =>
      cases choice <;> cases taken
      exact .unlockGate wait
  | unregister wait =>
      cases choice <;> cases taken
      exact .unregister wait
  | _ => cases choice <;> cases taken

/-- Steps of a notification. -/
inductive Notifies (shared : Shared ι) : Pc ι → Shared ι → Pc ι → Prop where
  | addEpoch (kept : Option CompletionBatch) (owed : List Change) :
      Notifies shared (.addEpoch kept owed)
        { shared with signal := { shared.signal with notified := shared.signal.notified + 1 } }
        (.loadWaiters kept)
  | alone (kept : Option CompletionBatch) : Notifies shared (.loadWaiters kept) shared (.idle kept)
  | loadWaiters (kept : Option CompletionBatch) : Notifies shared (.loadWaiters kept) shared
      (.notifyGate kept)
  | notifyGate (kept : Option CompletionBatch) : Notifies shared (.notifyGate kept)
      { shared with signal := { shared.signal with blocked := fun _ => false } } (.idle kept)

omit [DecidableEq ι] in
theorem notifyStep_notifies {shared shared' : Shared ι} {pc pc' : Pc ι}
    (taken : notifyStep shared pc = some (shared', pc')) : Notifies shared pc shared' pc' := by
  cases pc with
  | addEpoch kept owed =>
      cases taken
      exact .addEpoch kept owed
  | loadWaiters kept =>
      cases taken
      split
      · exact .alone kept
      · exact .loadWaiters kept
  | notifyGate kept =>
      rw [notifyStep, Option.ite_none_right_eq_some] at taken
      cases taken.2
      exact .notifyGate kept
  | _ => cases taken

/-- Steps of a carrier. -/
inductive Completes (shared : Shared ι) : Pc ι → Shared ι → Pc ι → Prop where
  | complete (kept : Option CompletionBatch) (record : TaskRecord ι) (earlier : List TaskId) :
      record ∈ shared.live → earlierTasks record.scope kept = some earlier →
      Completes shared (.idle kept) { shared with live := shared.live.erase record }
        (.complete record.scope earlier record.id)
  | discard (kept : Option CompletionBatch) (record : TaskRecord ι) : record ∈ shared.live →
      Completes shared (.idle kept) { shared with live := shared.live.erase record }
        (.discarded kept record.scope record.id)
  | flush (batch : CompletionBatch) : Completes shared (.idle (some batch)) shared
      (.retire none batch)
  | done (scope : ScopeId) (earlier : List TaskId) (task : TaskId) :
      Completes shared (.complete scope earlier task)
        { shared with done := Function.update shared.done task true } (.queue scope earlier task)
  | full (scope : ScopeId) (earlier : List TaskId) (task : TaskId) :
      Completes shared (.queue scope earlier task) shared
        (.retire none ⟨scope, earlier ++ [task]⟩)
  | queue (scope : ScopeId) (earlier : List TaskId) (task : TaskId) :
      Completes shared (.queue scope earlier task) shared (.mayDefer ⟨scope, earlier ++ [task]⟩)
  | defer (batch : CompletionBatch) : shared.targetWaiters = 0 →
      Completes shared (.mayDefer batch) shared (.idle (some batch))
  | publish (batch : CompletionBatch) : Completes shared (.mayDefer batch) shared
      (.retire none batch)
  | discarded (kept : Option CompletionBatch) (scope : ScopeId) (task : TaskId) :
      Completes shared (.discarded kept scope task)
        { shared with done := Function.update shared.done task true }
        (.retire kept ⟨scope, [task]⟩)
  | retire (kept : Option CompletionBatch) (batch : CompletionBatch) :
      Completes shared (.retire kept batch)
        { shared with
          retired := Function.update shared.retired batch.scope
            (shared.retired batch.scope + batch.tasks.length) }
        (.loadAdmission kept batch (shared.retired batch.scope + batch.tasks.length))
  | drained (kept : Option CompletionBatch) (batch : CompletionBatch) (retired : Nat) :
      retired = shared.admitted batch.scope →
      Completes shared (.loadAdmission kept batch retired) shared
        (.addEpoch kept (.drained batch.scope :: batch.tasks.map .done))
  | undrained (kept : Option CompletionBatch) (batch : CompletionBatch) (retired : Nat) :
      retired ≠ shared.admitted batch.scope →
      Completes shared (.loadAdmission kept batch retired) shared (.loadTargets kept batch)
  | unheard (kept : Option CompletionBatch) (batch : CompletionBatch) :
      shared.targetWaiters = 0 → Completes shared (.loadTargets kept batch) shared (.idle kept)
  | targets (kept : Option CompletionBatch) (batch : CompletionBatch) :
      Completes shared (.loadTargets kept batch) shared
        (.addEpoch kept (batch.tasks.map .done))
  | notify {pc pc' : Pc ι} {shared' : Shared ι} : Notifies shared pc shared' pc' →
      Completes shared pc shared' pc'

theorem takeTask_eq {id : ι} {shared shared' : Shared ι} {task : TaskId} {record : TaskRecord ι}
    (taken : takeTask id shared task = some (shared', record)) :
    record ∈ shared.live ∧ shared' = { shared with live := shared.live.erase record } := by
  simp only [takeTask, Option.bind_eq_bind, Option.bind_eq_some_iff, Option.guard_eq_some',
    Option.pure_def, Option.some.injEq, Prod.mk.injEq] at taken
  obtain ⟨found, isFound, _, -, rfl, rfl⟩ := taken
  exact ⟨List.mem_of_find?_eq_some isFound, rfl⟩

theorem completeStep_completes {id : ι} {choice : Choice ι} {shared shared' : Shared ι}
    {pc pc' : Pc ι} (taken : completeStep id choice shared pc = some (shared', pc')) :
    Completes shared pc shared' pc' := by
  cases pc with
  | idle kept =>
      cases choice with
      | complete task =>
          simp only [completeStep, Option.bind_eq_bind, Option.bind_eq_some_iff, Prod.exists,
            Option.pure_def, Option.some.injEq, Prod.mk.injEq] at taken
          obtain ⟨_, record, found, earlier, isEarlier, rfl, rfl⟩ := taken
          obtain ⟨member, rfl⟩ := takeTask_eq found
          exact .complete kept record earlier member isEarlier
      | discard task =>
          simp only [completeStep, Option.bind_eq_bind, Option.bind_eq_some_iff, Prod.exists,
            Option.pure_def, Option.some.injEq, Prod.mk.injEq] at taken
          obtain ⟨_, record, found, rfl, rfl⟩ := taken
          obtain ⟨member, rfl⟩ := takeTask_eq found
          exact .discard kept record member
      | flush =>
          cases kept with
          | none => cases taken
          | some batch =>
              cases taken
              exact .flush batch
      | _ => cases taken
  | complete scope earlier task =>
      cases choice <;> cases taken
      exact .done scope earlier task
  | queue scope earlier task =>
      cases choice <;> cases taken
      split
      · exact .full scope earlier task
      · exact .queue scope earlier task
  | mayDefer batch =>
      cases choice <;> cases taken
      split
      · rename_i unheard
        exact .defer batch unheard
      · exact .publish batch
  | discarded kept scope task =>
      cases choice <;> cases taken
      exact .discarded kept scope task
  | retire kept batch =>
      cases choice <;> cases taken
      exact .retire kept batch
  | loadAdmission kept batch retired =>
      cases choice <;> cases taken
      split
      · rename_i drained
        exact .drained kept batch retired drained
      · rename_i undrained
        exact .undrained kept batch retired undrained
  | loadTargets kept batch =>
      cases choice <;> cases taken
      split
      · rename_i unheard
        exact .unheard kept batch unheard
      · exact .targets kept batch
  | addEpoch | loadWaiters | notifyGate =>
      cases choice with
      | go => exact .notify (notifyStep_notifies taken)
      | _ => cases taken
  | _ => cases choice <;> cases taken

/-- Steps of a client. -/
inductive Submits (shared : Shared ι) : Pc ι → Shared ι → Pc ι → Prop where
  | submit (scope : ScopeId) (carrier : ι) : Submits shared (.idle none)
        { shared with
          admitted := Function.update shared.admitted scope (shared.admitted scope + 1)
          nextTask := shared.nextTask + 1 }
        (.reserved ⟨shared.nextTask, scope, carrier⟩)
  | accept (task : TaskRecord ι) : Submits shared (.reserved task)
      { shared with live := shared.live ++ [task] } (.idle none)
  | reject (task : TaskRecord ι) : Submits shared (.reserved task) shared (.release task)
  | release (task : TaskRecord ι) : Submits shared (.release task)
      { shared with admitted :=
        Function.update shared.admitted task.scope (shared.admitted task.scope - 1) }
      (.addEpoch none [.drained task.scope])
  | start : Submits shared (.idle none) shared (.addEpoch none [])
  | notify {pc pc' : Pc ι} {shared' : Shared ι} : Notifies shared pc shared' pc' →
      Submits shared pc shared' pc'

omit [DecidableEq ι] in
theorem clientStep_submits {choice : Choice ι} {shared shared' : Shared ι} {pc pc' : Pc ι}
    (taken : clientStep choice shared pc = some (shared', pc')) :
    Submits shared pc shared' pc' := by
  cases pc with
  | idle kept =>
      cases kept <;> cases choice <;> cases taken
      · exact .submit _ _
      · exact .start
  | reserved task =>
      cases choice <;> cases taken
      · exact .accept task
      · exact .reject task
  | release task =>
      cases choice <;> cases taken
      exact .release task
  | addEpoch | loadWaiters | notifyGate =>
      cases choice with
      | go => exact .notify (notifyStep_notifies taken)
      | _ => cases taken
  | _ => cases choice <;> cases taken

/-! ## Counts -/

/-- The tasks of a scope in a batch. -/
def CompletionBatch.count (scope : ScopeId) (batch : CompletionBatch) : Nat :=
  if batch.scope = scope then batch.tasks.length else 0

def keptCount (scope : ScopeId) (kept : Option CompletionBatch) : Nat :=
  kept.elim 0 (·.count scope)

def TaskRecord.count (scope : ScopeId) (task : TaskRecord ι) : Nat :=
  if task.scope = scope then 1 else 0

def liveCount (scope : ScopeId) (live : List (TaskRecord ι)) : Nat :=
  live.countP (·.scope = scope)

namespace Pc

/-- The admitted tasks of a scope that a party has to account for. -/
def holds (scope : ScopeId) : Pc ι → Nat
  | .idle kept => keptCount scope kept
  | .complete owner earlier task | .queue owner earlier task =>
      CompletionBatch.count scope ⟨owner, earlier ++ [task]⟩
  | .mayDefer batch => batch.count scope
  | .discarded kept owner task => keptCount scope kept + CompletionBatch.count scope ⟨owner, [task]⟩
  | .retire kept batch => keptCount scope kept + batch.count scope
  | .loadAdmission kept _ _ | .loadTargets kept _ => keptCount scope kept
  | .addEpoch kept _ | .loadWaiters kept | .notifyGate kept => keptCount scope kept
  | .reserved task | .release task => task.count scope
  | _ => 0

/-- The call of a thread that has registered and not returned. -/
def wait : Pc ι → Option Wait
  | .loadVersion wait | .loadRetired wait _ | .loadAdmitted wait _ _ | .loadDone wait _ _
  | .undone wait _ | .lockGate wait _ | .addWaiter wait _ | .loadEpoch wait _ | .sleep wait _
  | .blocked wait _ | .removeWaiter wait | .unlockGate wait | .unregister wait => some wait
  | _ => none

/-- Whether a thread is counted as waiting for a target. -/
def listens (pc : Pc ι) : Nat := pc.wait.elim 0 Wait.listens

end Pc

omit [DecidableEq ι] in
@[simp] theorem liveCount_append (scope : ScopeId) (live : List (TaskRecord ι))
    (task : TaskRecord ι) : liveCount scope (live ++ [task]) = liveCount scope live +
      task.count scope := by
  simp [liveCount, TaskRecord.count, List.countP_cons]

theorem liveCount_erase (scope : ScopeId) {live : List (TaskRecord ι)} {task : TaskRecord ι}
    (member : task ∈ live) :
    liveCount scope (live.erase task) + task.count scope = liveCount scope live := by
  have same := List.Perm.countP_eq (fun task => task.scope = scope) (List.perm_cons_erase member)
  rw [liveCount, liveCount, same, List.countP_cons]
  simp [TaskRecord.count]

theorem earlier_count {owner : ScopeId} {kept : Option CompletionBatch} {earlier : List TaskId}
    (isEarlier : earlierTasks owner kept = some earlier) (scope : ScopeId) (task : TaskId) :
    CompletionBatch.count scope ⟨owner, earlier ++ [task]⟩ =
      keptCount scope kept + if owner = scope then 1 else 0 := by
  cases kept with
  | none =>
      cases isEarlier
      simp [CompletionBatch.count, keptCount]
  | some batch =>
      rw [earlierTasks, Option.ite_none_right_eq_some] at isEarlier
      obtain ⟨rfl, same⟩ := isEarlier
      cases same
      by_cases own : batch.scope = scope
      · simp [CompletionBatch.count, keptCount, own]
      · simp [CompletionBatch.count, keptCount, own]

/-! ## What the steps exchange -/

variable {id : ι} {shared shared' : Shared ι} {pc pc' : Pc ι}

omit [DecidableEq ι] in
theorem Notifies.frame (taken : Notifies shared pc shared' pc') :
    shared'.admitted = shared.admitted ∧ shared'.retired = shared.retired ∧
      shared'.live = shared.live ∧ shared'.done = shared.done ∧
      shared'.targetWaiters = shared.targetWaiters ∧
      (∀ scope, pc'.holds scope = pc.holds scope) ∧ pc.listens = 0 ∧ pc'.listens = 0 := by
  cases taken <;> exact ⟨rfl, rfl, rfl, rfl, rfl, fun _ => rfl, rfl, rfl⟩

/-- A waiting thread changes only the signal and the number of registered threads. -/
theorem Waits.frame (taken : Waits id shared pc shared' pc') :
    shared'.admitted = shared.admitted ∧ shared'.retired = shared.retired ∧
      shared'.live = shared.live ∧ shared'.done = shared.done ∧
      shared'.signal.notified = shared.signal.notified ∧
      ∀ scope, pc.holds scope = 0 ∧ pc'.holds scope = 0 := by
  have checks (wait : Wait) (observed active : Nat) (done : Bool) (scope : ScopeId) :
      (wait.checked observed active done : Pc ι).holds scope = 0 := by
    rw [Wait.checked]
    split <;> rfl
  cases taken with
  | drained | loadDone =>
      exact ⟨rfl, rfl, rfl, rfl, rfl, fun scope => ⟨rfl, checks _ _ _ _ scope⟩⟩
  | _ => exact ⟨rfl, rfl, rfl, rfl, rfl, fun scope => ⟨rfl, rfl⟩⟩

/-- Tasks move from a carrier's list over its batch to the retired ones. -/
theorem Completes.exchange (taken : Completes shared pc shared' pc') :
    shared'.admitted = shared.admitted ∧ shared'.targetWaiters = shared.targetWaiters ∧
      pc.listens = 0 ∧ pc'.listens = 0 ∧
      ∀ scope, shared'.retired scope + liveCount scope shared'.live + pc'.holds scope =
        shared.retired scope + liveCount scope shared.live + pc.holds scope := by
  cases taken with
  | complete _ record _ member isEarlier =>
      refine ⟨rfl, rfl, rfl, rfl, fun scope => ?_⟩
      have erased := liveCount_erase scope member
      have added := earlier_count isEarlier scope record.id
      simp only [Pc.holds, TaskRecord.count] at *
      omega
  | discard _ _ member =>
      refine ⟨rfl, rfl, rfl, rfl, fun scope => ?_⟩
      have erased := liveCount_erase scope member
      simp only [Pc.holds, TaskRecord.count, CompletionBatch.count, List.length_singleton] at *
      omega
  | flush batch =>
      refine ⟨rfl, rfl, rfl, rfl, fun scope => ?_⟩
      simp [Pc.holds, keptCount]
  | full scope earlier task | queue scope earlier task | publish scope =>
      refine ⟨rfl, rfl, rfl, rfl, fun scope => ?_⟩
      simp [Pc.holds, keptCount]
  | retire kept batch =>
      refine ⟨rfl, rfl, rfl, rfl, fun scope => ?_⟩
      by_cases own : scope = batch.scope
      · subst own
        simp only [Pc.holds, CompletionBatch.count, Function.update_self, if_true]
        omega
      · simp only [Pc.holds, CompletionBatch.count, Function.update_of_ne own,
          if_neg (Ne.symm own)]
        omega
  | notify taken =>
      obtain ⟨admitted, retired, live, -, targets, holds, before, after⟩ := taken.frame
      refine ⟨admitted, targets, before, after, fun scope => ?_⟩
      rw [retired, live, holds]
  | _ => exact ⟨rfl, rfl, rfl, rfl, fun scope => rfl⟩

omit [DecidableEq ι] in
theorem Submits.frame (taken : Submits shared pc shared' pc') :
    shared'.retired = shared.retired ∧ shared'.targetWaiters = shared.targetWaiters ∧
      pc.listens = 0 ∧ pc'.listens = 0 := by
  cases taken with
  | notify taken =>
      obtain ⟨-, retired, -, -, targets, -, before, after⟩ := taken.frame
      exact ⟨retired, targets, before, after⟩
  | _ => exact ⟨rfl, rfl, rfl, rfl⟩

omit [DecidableEq ι] in
/-- A client admits a task, hands it over or takes the admission back. -/
theorem Submits.exchange (taken : Submits shared pc shared' pc') (scope : ScopeId)
    (enough : pc.holds scope ≤ shared.admitted scope) :
    shared'.admitted scope + liveCount scope shared.live + pc.holds scope =
      shared.admitted scope + liveCount scope shared'.live + pc'.holds scope := by
  cases taken with
  | submit owner =>
      by_cases own : scope = owner
      · subst own
        simp only [Pc.holds, keptCount, TaskRecord.count, Function.update_self, if_true,
          Option.elim_none]
        omega
      · simp [Pc.holds, keptCount, TaskRecord.count, Function.update_of_ne own, Ne.symm own]
  | accept task =>
      simp only [Pc.holds, keptCount, liveCount_append, Option.elim_none]
      omega
  | release task =>
      by_cases own : scope = task.scope
      · subst own
        simp only [Pc.holds, keptCount, TaskRecord.count, Function.update_self, if_true,
          Option.elim_none] at enough ⊢
        omega
      · simp [Pc.holds, keptCount, TaskRecord.count, Function.update_of_ne own, Ne.symm own]
  | notify taken =>
      obtain ⟨admitted, -, live, -, -, holds, -⟩ := taken.frame
      rw [admitted, live, holds]
  | reject | start => rfl

end VThread.Await
