import VThread.Scope.Failed

/-!
# Runs without failures

A run with its failures taken out is a run, in which no eviction reclaims a failed task.  So what
does not depend on failures holds in every run, whatever an eviction reclaims.
-/

namespace VThread.Scope

open VThread.Lib VThread.Carrier

variable {ι : Type}

/-! ## Taking failures out -/

/-- A task that ended has completed. -/
def TaskStatus.erase : TaskStatus → TaskStatus
  | .active => .active
  | _ => .completed

def TaskRecord.erase (record : TaskRecord ι) : TaskRecord ι :=
  { record with status := record.status.erase, failure := none, panic := false }

def ScopeState.erase (scope : ScopeState) : ScopeState := { scope with failedTasks := [] }

def Shared.erase (shared : Shared ι) : Shared ι :=
  { shared with
    scopes := shared.scopes.map .erase
    tasks := fun id => (shared.tasks id).erase }

def CompletionUpdate.erase (update : CompletionUpdate) : CompletionUpdate :=
  { update with status := update.status.erase }

def Phase.erase : Phase → Phase
  | .idle => .idle
  | .prepared update deferred => .prepared update.erase deferred
  | .completed update deferred => .completed update.erase deferred
  | .publishing own => .publishing (own.map .erase)
  | .extended own => .extended (own.map .erase)

def Completer.erase (completer : Completer) : Completer :=
  ⟨completer.completions.map .erase, completer.phase.erase⟩

def World.erase (world : World ι) : World ι :=
  ⟨world.shared.erase, fun carrier => (world.completers carrier).erase⟩

@[simp] theorem TaskStatus.erase_terminal (status : TaskStatus) :
    status.erase.isTerminal = status.isTerminal := by
  cases status <;> rfl

@[simp] theorem TaskStatus.erase_failed (status : TaskStatus) : status.erase.failed = false := by
  cases status <;> rfl

@[simp] theorem TaskStatus.erase_active {status : TaskStatus} :
    status.erase = .active ↔ status = .active := by
  cases status <;> decide

/-- A record that ends without its failures has completed. -/
theorem TaskRecord.erase_finish (record : TaskRecord ι) (failure : Option TaskFailure) :
    record.erase.finish none = (record.finish failure).erase := by
  unfold TaskRecord.finish TaskRecord.erase
  dsimp only
  cases failure with
  | some reason => rfl
  | none => cases record.panic <;> rfl

/-- No failed completion is left. -/
theorem failedIds_erase (batch : List CompletionUpdate) : failedIds (batch.map .erase) = [] := by
  have passed : (batch.map CompletionUpdate.erase).filter (·.status.failed) = [] := by
    apply List.filter_eq_nil_iff.mpr
    intro update member
    obtain ⟨original, -, rfl⟩ := List.mem_map.mp member
    simp [CompletionUpdate.erase]
  unfold failedIds
  rw [passed]
  rfl

theorem Completer.unretired_erase (completer : Completer) :
    completer.erase.unretired = completer.unretired.map .erase := by
  unfold Completer.unretired Completer.erase
  cases completer.phase with
  | publishing own => cases own <;> rfl
  | extended own => cases own <;> rfl
  | idle | prepared | completed => rfl

theorem Completer.batch_erase (completer : Completer) (own : Option CompletionUpdate) :
    completer.erase.batch (own.map .erase) = (completer.batch own).map .erase := by
  cases own <;> rfl

/-! ## Steps -/

/-- A change of a scope commutes with the erasure. -/
theorem modify_erase {change change' : ScopeState → ScopeState}
    (commutes : ∀ scope, (change scope).erase = change' scope.erase) (id : Nat)
    (scopes : List ScopeState) :
    (modify id change scopes).map .erase = modify id change' (scopes.map .erase) := by
  unfold modify
  rw [List.map_map, List.map_map]
  apply List.map_congr_left
  intro scope _
  simp only [Function.comp]
  have same : scope.erase.id = scope.id := rfl
  rw [same]
  split
  · exact commutes scope
  · rfl

/-- An update of a table commutes with an erasure. -/
theorem update_erase {κ α : Type} [DecidableEq κ] (erase : α → α) (table : κ → α) (place : κ)
    (value : α) : (fun other => erase (Function.update table place value other)) =
      Function.update (fun other => erase (table other)) place (erase value) :=
  Function.comp_update erase table place value

namespace Shared

variable (shared : Shared ι)

theorem setScope_erase {change change' : ScopeState → ScopeState} (id : Nat)
    (commutes : ∀ scope, (change scope).erase = change' scope.erase) :
    (shared.setScope id change).erase = shared.erase.setScope id change' := by
  unfold setScope erase
  dsimp only
  rw [modify_erase commutes]

theorem setTask_erase (id : Nat) (record : TaskRecord ι) :
    (shared.setTask id record).erase = shared.erase.setTask id record.erase := by
  unfold setTask erase
  dsimp only
  rw [update_erase]

theorem editTask_erase {change change' : TaskRecord ι → TaskRecord ι} (id : Nat)
    (commutes : ∀ record, (change record).erase = change' record.erase) :
    (shared.editTask id change).erase = shared.erase.editTask id change' := by
  unfold editTask
  rw [setTask_erase, commutes]
  rfl

theorem find_erase (id : Nat) : shared.erase.find id = (shared.find id).map .erase := by
  unfold find erase
  dsimp only
  rw [List.find?_map]
  rfl

theorem reclaimable_erase : shared.erase.reclaimable = shared.reclaimable := by
  funext id
  simp [reclaimable, erase, TaskRecord.erase]

theorem evictScopes_erase (remove : Nat → Bool) (scopes : List ScopeState) (reclaimed : List Nat) :
    evictScopes remove reclaimed (scopes.map .erase) =
      ((evictScopes remove reclaimed scopes).1,
        (evictScopes remove reclaimed scopes).2.map .erase) := by
  induction scopes generalizing reclaimed with
  | nil => rfl
  | cons scope rest ih =>
      have tail := ih (reclaimed ++ scope.records.filter remove)
      simp only [List.map_cons, evictScopes, ScopeState.erase, List.filter_nil] at tail ⊢
      rw [tail]

theorem evict_erase : shared.evict.erase = shared.erase.evict := by
  unfold evict
  rw [reclaimable_erase]
  have scopes : shared.erase.scopes = shared.scopes.map .erase := rfl
  rw [scopes, evictScopes_erase]
  by_cases full : shared.maxVthreads ≤ shared.recordCount
  · have full' : shared.erase.maxVthreads ≤ shared.erase.recordCount := full
    rw [if_pos full, if_pos full']
    rfl
  · have full' : ¬ shared.erase.maxVthreads ≤ shared.erase.recordCount := full
    rw [if_neg full, if_neg full']

theorem admissible_erase (request : Request ι) :
    shared.erase.admissible request = shared.admissible request := by
  unfold admissible
  rw [find_erase]
  cases shared.find request.scope with
  | none => rfl
  | some scope => rfl

theorem finishScope_erase (id : Nat) :
    (shared.finishScope id).erase = shared.erase.finishScope id := by
  unfold finishScope
  rw [find_erase]
  unfold erase
  dsimp only
  rw [List.filter_map]
  cases shared.find id <;> rfl

theorem beginOwned_erase : shared.beginOwned.erase = shared.erase.beginOwned := by
  unfold beginOwned erase
  dsimp only
  rw [List.map_append]
  rfl

variable [DecidableEq ι]

theorem admitTask_erase (scope : Nat) (owner : ι) :
    (shared.admitTask scope owner).erase = shared.erase.admitTask scope owner := by
  have admitted : (modify scope (fun state => { state with
      records := state.records ++ [shared.nextTask]
      admitted := state.admitted + 1
      active := state.active ++ [shared.nextTask] }) shared.scopes).map .erase =
        modify scope (fun state => { state with
          records := state.records ++ [shared.nextTask]
          admitted := state.admitted + 1
          active := state.active ++ [shared.nextTask] }) (shared.scopes.map .erase) :=
    modify_erase (by intro _; rfl) _ _
  unfold admitTask erase
  dsimp only
  rw [admitted, update_erase]
  rfl

theorem reserve_erase (request : Request ι) :
    (shared.reserve request).1.erase = (shared.erase.reserve request).1 := by
  unfold reserve
  rw [admissible_erase]
  cases shared.admissible request with
  | error error => rfl
  | ok _ =>
      dsimp only
      rw [← evict_erase]
      have same : shared.evict.erase.maxVthreads = shared.evict.maxVthreads ∧
          shared.evict.erase.recordCount = shared.evict.recordCount ∧
          shared.evict.erase.nextTask = shared.evict.nextTask := ⟨rfl, rfl, rfl⟩
      rw [same.1, same.2.1, same.2.2]
      split
      · rfl
      · cases request.owner with
        | none => rfl
        | some owner =>
            dsimp only
            split
            · rfl
            · exact admitTask_erase _ _ _

theorem releaseReservation_erase (id : Nat) :
    (shared.releaseReservation id).erase = shared.erase.releaseReservation id := by
  have released : (modify (shared.tasks id).scope (fun state => { state with
      records := state.records.erase id
      admitted := state.admitted - 1
      active := state.active.erase id }) shared.scopes).map .erase =
        modify (shared.tasks id).scope (fun state => { state with
          records := state.records.erase id
          admitted := state.admitted - 1
          active := state.active.erase id }) (shared.scopes.map .erase) :=
    modify_erase (by intro _; rfl) _ _
  unfold releaseReservation erase
  dsimp only
  rw [released, update_erase]
  rfl

end Shared

namespace World

/-- A change of the registry commutes with the erasure of the whole. -/
theorem commuted {shared erased : Shared ι} {completers : ι → Completer}
    (same : shared.erase = erased) :
    some (⟨erased, fun carrier => (completers carrier).erase⟩ : World ι) =
      some (World.erase ⟨shared, completers⟩) := by
  rw [← same]
  rfl

variable [DecidableEq ι] {world world' : World ι}

theorem erase_set (shared : Shared ι) (completers : ι → Completer) (carrier : ι)
    (completer : Completer) :
    erase ⟨shared, Function.update completers carrier completer⟩ =
      ⟨shared.erase, Function.update (fun other => (completers other).erase) carrier
        completer.erase⟩ := by
  unfold erase
  dsimp only
  rw [update_erase]

theorem complete_erase {carrier : ι} (taken : world.complete carrier = some world') :
    world.erase.complete carrier = some world'.erase := by
  unfold complete at taken ⊢
  dsimp only at taken
  split at taken
  · rename_i update deferred phase
    cases taken
    have erased : (world.erase.completers carrier).phase = .prepared update.erase deferred :=
      congrArg Phase.erase phase
    dsimp only
    rw [erased]
    simp only [setCompleter, erase_set]
    have edited : (world.shared.editTask update.id fun record => { record with
        done := true }).erase = world.shared.erase.editTask update.id fun record => { record with
          done := true } := Shared.editTask_erase _ _ (by intro _; rfl)
    rw [edited]
    rfl
  · cases taken

theorem flush_erase {carrier : ι} (taken : world.flush carrier = some world') :
    world.erase.flush carrier = some world'.erase := by
  unfold flush at taken ⊢
  dsimp only at taken
  split at taken
  · rename_i ready
    cases taken
    have erased : (world.erase.completers carrier).phase = .idle :=
      congrArg Phase.erase ready.1
    have busy : (world.erase.completers carrier).completions ≠ [] := fun none =>
      ready.2 (List.map_eq_nil_iff.mp none)
    dsimp only
    rw [if_pos ⟨erased, busy⟩]
    simp only [setCompleter, erase_set]
    rfl
  · cases taken

theorem queue_erase {carrier : ι} {flush : Bool} (taken : world.queue carrier flush = some world') :
    world.erase.queue carrier flush = some world'.erase := by
  unfold queue at taken ⊢
  dsimp only at taken
  split at taken
  · rename_i update phase
    have erased : (world.erase.completers carrier).phase = .completed update.erase true :=
      congrArg Phase.erase phase
    dsimp only
    rw [erased]
    dsimp only
    split at taken
    · rename_i scopes
      have scopes' : ∀ queued ∈ (world.erase.completers carrier).completions,
          queued.scope = update.erase.scope := by
        intro queued member
        obtain ⟨original, kept, rfl⟩ := List.mem_map.mp member
        exact scopes original kept
      have appended : (world.erase.completers carrier).completions ++ [update.erase] =
          ((world.completers carrier).completions ++ [update]).map .erase := by
        rw [List.map_append]
        rfl
      rw [if_pos scopes', appended, List.length_map]
      split at taken
      · rename_i full
        cases taken
        rw [if_pos full]
        simp only [setCompleter, erase_set]
        rfl
      · rename_i room
        cases taken
        rw [if_neg room]
        simp only [setCompleter, erase_set]
        rfl
    · cases taken
  · rename_i update phase
    cases taken
    have erased : (world.erase.completers carrier).phase = .completed update.erase false :=
      congrArg Phase.erase phase
    dsimp only
    rw [erased]
    simp only [setCompleter, erase_set]
    rfl
  · cases taken

theorem extend_erase {carrier : ι} (taken : world.extend carrier = some world') :
    world.erase.extend carrier = some world'.erase := by
  unfold extend at taken ⊢
  dsimp only at taken
  split at taken
  · rename_i own phase
    have erased : (world.erase.completers carrier).phase = .publishing (own.map .erase) :=
      congrArg Phase.erase phase
    split at taken
    · cases taken
    · rename_i first rest batch
      cases taken
      have batch' : (world.erase.completers carrier).batch (own.map .erase) =
          first.erase :: rest.map .erase := by
        have mapped := Completer.batch_erase (world.completers carrier) own
        rw [batch] at mapped
        exact mapped
      dsimp only
      rw [erased]
      dsimp only
      rw [batch']
      have silent := failedIds_erase (first :: rest)
      rw [List.map_cons] at silent
      have extended : (world.shared.setScope first.scope fun scope => { scope with
          failedTasks := scope.failedTasks ++ failedIds (first :: rest) }).erase =
            world.shared.erase.setScope first.scope fun scope => { scope with
              failedTasks := scope.failedTasks ++ [] } :=
        Shared.setScope_erase _ _ (by intro _; rfl)
      simp only [setCompleter, erase_set, silent, extended]
      rfl
  · cases taken

theorem retire_erase {carrier : ι} (taken : world.retire carrier = some world') :
    world.erase.retire carrier = some world'.erase := by
  unfold retire at taken ⊢
  dsimp only at taken
  split at taken
  · rename_i own phase
    have erased : (world.erase.completers carrier).phase = .extended (own.map .erase) :=
      congrArg Phase.erase phase
    split at taken
    · cases taken
    · rename_i first rest batch
      cases taken
      have batch' : (world.erase.completers carrier).batch (own.map .erase) =
          first.erase :: rest.map .erase := by
        have mapped := Completer.batch_erase (world.completers carrier) own
        rw [batch] at mapped
        exact mapped
      have ids : ((first :: rest).map CompletionUpdate.erase).map (·.id) =
          (first :: rest).map (·.id) := by
        rw [List.map_map]
        rfl
      dsimp only
      rw [erased]
      dsimp only
      rw [batch']
      rw [List.map_cons] at ids
      have retired : (world.shared.setScope first.scope fun scope => { scope with
          retired := scope.retired + (rest.length + 1)
          active := scope.active.filter (· ∉ (first :: rest).map (·.id)) }).erase =
            world.shared.erase.setScope first.scope fun scope => { scope with
              retired := scope.retired + (rest.length + 1)
              active := scope.active.filter (· ∉ (first :: rest).map (·.id)) } :=
        Shared.setScope_erase _ _ (by intro _; rfl)
      simp only [setCompleter, erase_set, ids, List.length_cons, List.length_map, retired]
      cases own <;> rfl
  · cases taken

/-! ## Runs -/

/-- A completion begins without its failure. -/
theorem prepare_erase (sound : Sound world.erase) {carrier : ι} {id : Nat}
    {failure : Option TaskFailure} (taken : world.prepare carrier id failure = some world') :
    Sound world'.erase := by
  unfold prepare at taken
  dsimp only at taken
  split at taken
  · rename_i guarded
    obtain ⟨below, accepted, -, idle⟩ := guarded
    split at taken
    · cases taken
      exact sound
    · rename_i isLive
      cases taken
      have isActive : (world.erase.shared.tasks id).status = .active := by
        have active : (world.shared.tasks id).status = .active := by
          cases status : (world.shared.tasks id).status with
          | active => rfl
          | completed | panicked | aborted => exact absurd (by rw [status]; rfl) isLive
        exact TaskStatus.erase_active.mpr active
      have finished : (world.erase.shared.tasks id).finish none =
          ((world.shared.tasks id).finish failure).erase := TaskRecord.erase_finish _ failure
      have terminal : ((world.erase.shared.tasks id).finish none).status.isTerminal = true := by
        rw [finished]
        unfold TaskRecord.finish
        dsimp only [TaskRecord.erase]
        split
        · rfl
        · split <;> rfl
      have resting : (world.erase.completers carrier).phase = .idle := congrArg Phase.erase idle
      have registered := @Registered.finish _ _ sound.registered id none accepted
      have credits := @Credits.prepare _ _ _ _ sound.credits sound.registered carrier id none
        failure.isNone below accepted isActive resting terminal
      rw [finished] at registered credits
      constructor
      · simp only [setCompleter, erase_set, Shared.setTask_erase]
        exact registered
      · simp only [setCompleter, erase_set, Shared.setTask_erase]
        exact credits
  · cases taken

/-- What does not depend on failures is kept by every step. -/
theorem step_erase (sound : Sound world.erase) {choice : Choice ι}
    (taken : world.step choice = some world') : Sound world'.erase := by
  have unindexed : ∀ choice : Choice ι, indexed choice world.erase = true := by
    intro choice
    cases choice with
    | reserve => simp [indexed, erase, Shared.erase, TaskRecord.erase]
    | _ => rfl
  have commuting (commutes : world.erase.step choice = some world'.erase) : Sound world'.erase :=
    sound.step (unindexed choice) commutes
  cases choice with
  | beginOwned =>
      cases taken
      apply commuting
      exact commuted world.shared.beginOwned_erase
  | closeScope | abortScope =>
      cases taken
      apply commuting
      exact commuted (Shared.setScope_erase _ _ (by intro _; rfl))
  | stop =>
      cases taken
      exact commuting rfl
  | finishScope id =>
      apply commuting
      unfold step at taken ⊢
      dsimp only at taken ⊢
      have found : world.erase.shared.find id = (world.shared.find id).map .erase :=
        world.shared.find_erase id
      rw [found]
      cases home : world.shared.find id with
      | none =>
          rw [home] at taken
          cases taken
      | some scope =>
          rw [home] at taken
          dsimp only at taken
          split at taken
          · rename_i drained
            cases taken
            dsimp only [Option.map_some]
            rw [if_pos (by exact drained)]
            exact commuted (world.shared.finishScope_erase id)
          · cases taken
  | reserve request =>
      cases taken
      apply commuting
      exact commuted (world.shared.reserve_erase request)
  | accept id =>
      apply commuting
      unfold step at taken ⊢
      dsimp only at taken
      split at taken
      · rename_i reserved
        cases taken
        dsimp only
        rw [if_pos (by exact reserved)]
        exact commuted (Shared.editTask_erase _ _ (by intro _; rfl))
      · cases taken
  | release id =>
      apply commuting
      unfold step at taken ⊢
      dsimp only at taken
      split at taken
      · rename_i reserved
        cases taken
        dsimp only
        rw [if_pos (by exact reserved)]
        exact commuted (world.shared.releaseReservation_erase id)
      · cases taken
  | observe id =>
      cases taken
      apply commuting
      exact commuted (Shared.editTask_erase _ _ (by intro _; rfl))
  | panic id =>
      cases taken
      have same : (World.mk (world.shared.editTask id fun record => { record with panic := true })
          world.completers).erase = world.erase := by
        have unchanged : (world.shared.editTask id fun record =>
            { record with panic := true }).erase = world.shared.erase.editTask id fun record =>
              record := Shared.editTask_erase _ _ (by intro _; rfl)
        unfold erase
        rw [unchanged, Shared.editTask, Shared.setTask, Function.update_eq_self]
      rw [same]
      exact sound
  | prepare => exact prepare_erase sound taken
  | complete => exact commuting (complete_erase taken)
  | queue => exact commuting (queue_erase taken)
  | flush => exact commuting (flush_erase taken)
  | extend => exact commuting (extend_erase taken)
  | retire => exact commuting (retire_erase taken)

end World

/-! ## What the run without failures says of the run -/

variable {world : World ι}

namespace Sound

/-- The admissions of a scope are its retirements and its active tasks. -/
theorem erased_balance (sound : Sound world.erase) {scope : ScopeState}
    (member : scope ∈ world.shared.scopes) :
    scope.admitted = scope.retired + scope.active.length :=
  sound.registered.balance scope.erase (List.mem_map_of_mem member)

theorem erased_distinct (sound : Sound world.erase) : (world.shared.scopes.map (·.id)).Nodup := by
  have distinct := sound.registered.distinct
  have ids : world.erase.shared.scopes.map (·.id) = world.shared.scopes.map (·.id) := by
    unfold World.erase Shared.erase
    dsimp only
    rw [List.map_map]
    rfl
  rw [ids] at distinct
  exact distinct

theorem erased_records (sound : Sound world.erase) {scope : ScopeState}
    (member : scope ∈ world.shared.scopes) {id : Nat} (listed : id ∈ scope.records) :
    id < world.shared.nextTask ∧ (world.shared.tasks id).scope = scope.id :=
  (sound.registered.records scope.erase (List.mem_map_of_mem member)).2 id listed

/-- A completion is of a terminal task that its scope still counts. -/
theorem erased_held (sound : Sound world.erase) {carrier : ι} {update : CompletionUpdate}
    (member : update ∈ (world.completers carrier).unretired) :
    (world.shared.tasks update.id).status.isTerminal = true ∧ update.status.isTerminal = true ∧
      update.id < world.shared.nextTask ∧
      ∃ scope ∈ world.shared.scopes, scope.id = update.scope ∧ update.id ∈ scope.active := by
  have erased : update.erase ∈ (world.erase.completers carrier).unretired := by
    have same := Completer.unretired_erase (world.completers carrier)
    exact same ▸ List.mem_map_of_mem member
  obtain ⟨status, terminal, below, scope', member', own, isListed⟩ :=
    sound.credits.held carrier _ erased
  obtain ⟨scope, kept, rfl⟩ := List.mem_map.mp member'
  have ended : update.status.isTerminal = true := by
    rw [← TaskStatus.erase_terminal]
    exact terminal
  refine ⟨?_, ended, below, scope, kept, own, isListed⟩
  rw [← TaskStatus.erase_terminal]
  exact (congrArg TaskStatus.isTerminal status).trans terminal

/-- The completions of a carrier are of different tasks. -/
theorem erased_ids (sound : Sound world.erase) (carrier : ι) :
    ((world.completers carrier).unretired.map (·.id)).Nodup := by
  have distinct := sound.credits.distinct carrier
  have same := Completer.unretired_erase (world.completers carrier)
  have ids : (world.erase.completers carrier).unretired.map (·.id) =
      (world.completers carrier).unretired.map (·.id) := by
    unfold World.erase
    dsimp only
    rw [same, List.map_map]
    rfl
  rw [ids] at distinct
  exact distinct

theorem erased_apart (sound : Sound world.erase) {carrier other : ι} (differ : carrier ≠ other)
    {update held : CompletionUpdate} (member : update ∈ (world.completers carrier).unretired)
    (isHeld : held ∈ (world.completers other).unretired) : update.id ≠ held.id := by
  have erased : ∀ place, ∀ item ∈ (world.completers place).unretired,
      item.erase ∈ (world.erase.completers place).unretired := by
    intro place item kept
    exact Completer.unretired_erase (world.completers place) ▸ List.mem_map_of_mem kept
  exact sound.credits.apart carrier other differ _ (erased carrier update member) held.erase
    (erased other held isHeld)

theorem erased_together (sound : Sound world.erase) {carrier : ι} {update other : CompletionUpdate}
    (member : update ∈ (world.completers carrier).completions)
    (others : other ∈ (world.completers carrier).completions) : update.scope = other.scope :=
  sound.credits.together carrier update.erase (List.mem_map_of_mem member) other.erase
    (List.mem_map_of_mem others)

/-- A drained scope has no completion on its way. -/
theorem erased_drained (sound : Sound world.erase) {scope : ScopeState}
    (member : scope ∈ world.shared.scopes) (drained : scope.admitted = scope.retired)
    {carrier : ι} {update : CompletionUpdate}
    (held : update ∈ (world.completers carrier).unretired) : update.scope ≠ scope.id := by
  intro own
  obtain ⟨-, -, -, home, kept, same, isListed⟩ := sound.erased_held held
  have isHome := eq_of_id sound.erased_distinct kept member (same.trans own)
  have balance := sound.erased_balance member
  have idle : scope.active = [] := List.length_eq_zero_iff.mp (by omega)
  rw [isHome, idle] at isListed
  cases isListed

end Sound

/-- An eviction does not depend on failures. -/
theorem Sound.evict_erase (sound : Sound world.erase) :
    Sound (World.mk world.shared.evict world.completers).erase := by
  have same : (World.mk world.shared.evict world.completers).erase =
      ⟨world.shared.erase.evict, world.erase.completers⟩ := by
    rw [← world.shared.evict_erase]
    rfl
  rw [same]
  refine ⟨sound.registered.evict, sound.credits.evict ?_⟩
  intro _ scope _ id _ _ failed
  have passed : (world.erase.shared.tasks id).status.failed = false :=
    TaskStatus.erase_failed (world.shared.tasks id).status
  rw [passed] at failed
  cases failed

end VThread.Scope
