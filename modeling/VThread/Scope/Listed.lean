import VThread.Scope.Erased

/-!
# Failures that no join has seen

Whatever an eviction reclaims, a task that failed and was not observed keeps its record, and its
id is in the index of its scope or in a completion that is on its way there.
-/

namespace VThread.Scope

open VThread.Lib VThread.Carrier

variable {ι : Type} {world : World ι}

/-- The scope of a request stays through the eviction. -/
theorem Shared.evict_home {shared : Shared ι} {request : Request ι}
    (passes : shared.admissible request = .ok ()) :
    ∃ home ∈ shared.evict.scopes, home.id = request.scope := by
  obtain ⟨scope, found⟩ := admissible_find passes
  obtain ⟨member, own⟩ := find_mem found
  unfold evict
  split
  · obtain ⟨home, kept, evicted⟩ := forall₂_mem (evictScopes_evicts shared.reclaimable _ []) member
    exact ⟨home, kept, evicted.id_eq.trans own⟩
  · exact ⟨scope, member, own⟩

/-! ## The invariant -/

/-- A task of a scope that failed and was not observed. -/
structure Unseen (shared : Shared ι) (scope id : Nat) : Prop where
  below : id < shared.nextTask
  home : (shared.tasks id).scope = scope
  failed : (shared.tasks id).status.failed = true
  unobserved : (shared.tasks id).outcomeObserved = false

/-- A record that failed tells why. -/
structure TaskRecord.Explained (record : TaskRecord ι) : Prop where
  panicked : record.status = .panicked → record.failure = none ∧ record.panic = true
  aborted : record.status = .aborted → record.failure.isSome = true

theorem TaskRecord.explained_finish (record : TaskRecord ι) (failure : Option TaskFailure) :
    (record.finish failure).Explained := by
  unfold TaskRecord.finish
  cases failure with
  | some reason => exact ⟨by simp, by simp⟩
  | none =>
      cases record.panic with
      | false => exact ⟨by simp, by simp⟩
      | true => exact ⟨fun _ => ⟨rfl, rfl⟩, by simp⟩

/-- What holds of the indexes of failed tasks in every run. -/
structure Listed (world : World ι) : Prop where
  homes : ∀ id < world.shared.nextTask, (world.shared.tasks id).scope < world.shared.nextScope
  /-- Task ids only grow, so the records of a scope are in order. -/
  sorted : ∀ scope ∈ world.shared.scopes, scope.records.Pairwise (· < ·)
  entries : ∀ scope ∈ world.shared.scopes, scope.failedTasks.Nodup ∧
    ∀ id ∈ scope.failedTasks, id < world.shared.nextTask ∧
      (world.shared.tasks id).scope = scope.id ∧ (world.shared.tasks id).status.failed = true
  free : ∀ scope ∈ world.shared.scopes, ∀ id ∈ scope.failedTasks, ∀ carrier,
    ∀ update ∈ (world.completers carrier).unindexed, update.id ≠ id
  agrees : ∀ carrier, ∀ update ∈ (world.completers carrier).unretired,
    (world.shared.tasks update.id).status = update.status ∧
      (world.shared.tasks update.id).scope = update.scope
  kept : ∀ scope ∈ world.shared.scopes, ∀ id < world.shared.nextTask,
    (world.shared.tasks id).scope = scope.id → (world.shared.tasks id).stage ≠ .released →
      (world.shared.tasks id).outcomeObserved = false → id ∈ scope.records
  listed : ∀ scope ∈ world.shared.scopes, ∀ id, Unseen world.shared scope.id id →
    id ∈ scope.failedTasks ∨ ∃ carrier, ∃ update ∈ (world.completers carrier).unindexed,
      update.id = id
  /-- A released task was never started. -/
  unstarted : ∀ id < world.shared.nextTask, (world.shared.tasks id).stage ≠ .accepted →
    (world.shared.tasks id).status = .active
  explained : ∀ id, (world.shared.tasks id).Explained

/-- A scope after a step that neither admits a task of it nor publishes a completion. -/
structure Thinned (tasks : Nat → TaskRecord ι) (scope scope' : ScopeState) : Prop where
  id_eq : scope'.id = scope.id
  records : scope'.records.Sublist scope.records
  failedTasks : scope'.failedTasks.Sublist scope.failedTasks
  keeps : ∀ id ∈ scope.records, (tasks id).outcomeObserved = false →
    (tasks id).stage ≠ .released → id ∈ scope'.records
  lists : ∀ id ∈ scope.failedTasks, (tasks id).outcomeObserved = false → id ∈ scope'.failedTasks

/-- What a step may do to a record that it does not end. -/
structure Advances (record record' : TaskRecord ι) : Prop where
  scope : record'.scope = record.scope
  status : record'.status = record.status
  failure : record'.failure = record.failure
  panic : record.panic = true → record'.panic = true
  observed : record'.outcomeObserved = false → record.outcomeObserved = false
  released : record'.stage ≠ .released → record.stage ≠ .released
  accepted : record'.stage ≠ .accepted → record.stage ≠ .accepted

theorem Advances.refl (record : TaskRecord ι) : Advances record record :=
  ⟨rfl, rfl, rfl, id, id, id, id⟩

theorem Thinned.refl (tasks : Nat → TaskRecord ι) (scope : ScopeState) :
    Thinned tasks scope scope :=
  ⟨rfl, .refl _, .refl _, fun _ member _ _ => member, fun _ member _ => member⟩

namespace Listed

/-- The registry changes without a new task or completion. -/
theorem move (listed : Listed world) {shared : Shared ι}
    (nextTask : shared.nextTask = world.shared.nextTask)
    (nextScope : world.shared.nextScope ≤ shared.nextScope)
    (tasks : ∀ id, Advances (world.shared.tasks id) (shared.tasks id))
    (scopes : ∀ scope' ∈ shared.scopes,
      (∃ scope ∈ world.shared.scopes, Thinned shared.tasks scope scope') ∨
        scope'.records = [] ∧ scope'.failedTasks = [] ∧ world.shared.nextScope ≤ scope'.id) :
    Listed ⟨shared, world.completers⟩ where
  homes id below := by
    have below : id < world.shared.nextTask := nextTask ▸ below
    rw [(tasks id).scope]
    exact (listed.homes id below).trans_le nextScope
  sorted scope' member := by
    rcases scopes scope' member with ⟨scope, kept, thinned⟩ | ⟨records, -, -⟩
    · exact (listed.sorted scope kept).sublist thinned.records
    · rw [records]
      exact .nil
  entries scope' member := by
    rcases scopes scope' member with ⟨scope, kept, thinned⟩ | ⟨-, failedTasks, -⟩
    · obtain ⟨nodup, known⟩ := listed.entries scope kept
      refine ⟨nodup.sublist thinned.failedTasks, fun id isListed => ?_⟩
      obtain ⟨below, home, failed⟩ := known id (thinned.failedTasks.subset isListed)
      refine ⟨nextTask ▸ below, ?_, ?_⟩
      · rw [(tasks id).scope, thinned.id_eq]
        exact home
      · rw [(tasks id).status]
        exact failed
    · rw [failedTasks]
      exact ⟨List.nodup_nil, by simp⟩
  free scope' member id isListed := by
    rcases scopes scope' member with ⟨scope, kept, thinned⟩ | ⟨-, failedTasks, -⟩
    · exact listed.free scope kept id (thinned.failedTasks.subset isListed)
    · rw [failedTasks] at isListed
      cases isListed
  agrees carrier update member := by
    have advances := tasks update.id
    rw [advances.status, advances.scope]
    exact listed.agrees carrier update member
  kept scope' member id below home released unobserved := by
    have below : id < world.shared.nextTask := nextTask ▸ below
    have advances := tasks id
    have home' : (world.shared.tasks id).scope = scope'.id := advances.scope ▸ home
    rcases scopes scope' member with ⟨scope, kept, thinned⟩ | ⟨-, -, new⟩
    · exact thinned.keeps id (listed.kept scope kept id below (home'.trans thinned.id_eq)
        (advances.released released) (advances.observed unobserved)) unobserved released
    · have bounded := listed.homes id below
      omega
  listed scope' member id unseen := by
    have below : id < world.shared.nextTask := nextTask ▸ unseen.below
    have advances := tasks id
    have home : (world.shared.tasks id).scope = scope'.id := advances.scope ▸ unseen.home
    rcases scopes scope' member with ⟨scope, kept, thinned⟩ | ⟨-, -, new⟩
    · have before : Unseen world.shared scope.id id := ⟨below, home.trans thinned.id_eq,
        advances.status ▸ unseen.failed, advances.observed unseen.unobserved⟩
      rcases listed.listed scope kept id before with isListed | pending
      · exact .inl (thinned.lists id isListed unseen.unobserved)
      · exact .inr pending
    · have bounded := listed.homes id below
      omega
  unstarted id below notAccepted := by
    have below : id < world.shared.nextTask := nextTask ▸ below
    have advances := tasks id
    rw [advances.status]
    exact listed.unstarted id below (advances.accepted notAccepted)
  explained id := by
    have advances := tasks id
    refine ⟨fun isPanicked => ?_, fun isAborted => ?_⟩
    · obtain ⟨failure, panic⟩ := (listed.explained id).panicked (advances.status ▸ isPanicked)
      exact ⟨advances.failure.trans failure, advances.panic panic⟩
    · rw [advances.failure]
      exact (listed.explained id).aborted (advances.status ▸ isAborted)

/-- Only a scope changes, in nothing that is listed. -/
theorem setPolicy (listed : Listed world) (id : Nat) {change : ScopeState → ScopeState}
    (same : ∀ scope, (change scope).id = scope.id ∧ (change scope).records = scope.records ∧
      (change scope).failedTasks = scope.failedTasks) :
    Listed ⟨world.shared.setScope id change, world.completers⟩ := by
  refine listed.move rfl le_rfl (fun _ => .refl _) fun scope' changed => .inl ?_
  rcases of_mem_modify changed with ⟨scope, member, -, rfl⟩ | ⟨member, -⟩
  · obtain ⟨isSame, records, failedTasks⟩ := same scope
    refine ⟨scope, member, isSame, records ▸ .refl _, failedTasks ▸ .refl _, ?_, ?_⟩
    · intro task recorded _ _
      exact records ▸ recorded
    · intro task isListed _
      exact failedTasks ▸ isListed
  · exact ⟨scope', member, .refl _ _⟩

/-- Only a record changes. -/
theorem editTask (listed : Listed world) (id : Nat) {change : TaskRecord ι → TaskRecord ι}
    (advances : Advances (world.shared.tasks id) (change (world.shared.tasks id))) :
    Listed ⟨world.shared.editTask id change, world.completers⟩ := by
  refine listed.move rfl le_rfl ?_ fun scope member => .inl ⟨scope, member, .refl _ _⟩
  intro other
  by_cases equal : other = id
  · have edited : (world.shared.editTask id change).tasks id = change (world.shared.tasks id) :=
      Function.update_self _ _ _
    rw [equal, edited]
    exact advances
  · have same : (world.shared.editTask id change).tasks other = world.shared.tasks other :=
      Function.update_of_ne equal _ _
    rw [same]
    exact .refl _

/-- An eviction leaves the ids of tasks that it does not take. -/
theorem evictScopes_spares {remove : Nat → Bool} (scopes : List ScopeState) (reclaimed : List Nat)
    (removed : ∀ id ∈ reclaimed, remove id = true) :
    List.Forall₂ (fun scope scope' => scope'.id = scope.id ∧
        scope'.records = scope.records.filter (!remove ·) ∧
        scope'.failedTasks.Sublist scope.failedTasks ∧
        ∀ id ∈ scope.failedTasks, remove id = false → id ∈ scope'.failedTasks)
      scopes (evictScopes remove reclaimed scopes).2 := by
  induction scopes generalizing reclaimed with
  | nil => exact .nil
  | cons scope rest ih =>
      have removed' : ∀ id ∈ reclaimed ++ scope.records.filter remove, remove id = true := by
        intro id member
        rcases List.mem_append.mp member with member | member
        · exact removed id member
        · exact (List.mem_filter.mp member).2
      refine .cons ⟨rfl, rfl, List.filter_sublist, ?_⟩ (ih _ removed')
      intro id isListed spared
      refine List.mem_filter.mpr ⟨isListed, decide_eq_true fun member => ?_⟩
      rw [removed' id member] at spared
      cases spared

theorem evict (listed : Listed world) : Listed ⟨world.shared.evict, world.completers⟩ := by
  unfold Shared.evict
  split
  · refine listed.move rfl le_rfl (fun _ => .refl _) fun scope' member => .inl ?_
    have spares := @evictScopes_spares world.shared.reclaimable world.shared.scopes [] (by simp)
    obtain ⟨scope, kept, same, records, failedTasks, lists⟩ := forall₂_mem_right spares member
    refine ⟨scope, kept, same, ?_, failedTasks, ?_, ?_⟩
    · rw [records]
      exact List.filter_sublist
    · intro id recorded unobserved _
      have stays : world.shared.reclaimable id = false := by
        have unobserved' : (world.shared.tasks id).outcomeObserved = false := unobserved
        rw [Shared.reclaimable, unobserved', Bool.and_false]
      rw [records]
      exact List.mem_filter.mpr ⟨recorded, by simp [stays]⟩
    · intro id isListed unobserved
      have unobserved' : (world.shared.tasks id).outcomeObserved = false := unobserved
      exact lists id isListed (by rw [Shared.reclaimable, unobserved', Bool.and_false])
  · exact listed

variable [DecidableEq ι]

theorem admitTask (listed : Listed world) (sound : Sound world.erase) {scope : ScopeState}
    (member : scope ∈ world.shared.scopes) (owner : ι) :
    Listed ⟨world.shared.admitTask scope.id owner, world.completers⟩ := by
  have older : ∀ id, id ≠ world.shared.nextTask →
      (world.shared.admitTask scope.id owner).tasks id = world.shared.tasks id :=
    fun id differs => Function.update_of_ne differs _ _
  have newest : (world.shared.admitTask scope.id owner).tasks world.shared.nextTask =
      ⟨scope.id, owner, .active, none, false, false, false, .reserved⟩ := Function.update_self _ _ _
  have below : ∀ other ∈ world.shared.scopes, ∀ id ∈ other.records, id < world.shared.nextTask :=
    fun other others id recorded => (sound.erased_records others recorded).1
  -- Every scope afterwards is one before, with the new task if it is the home of it.
  have before : ∀ scope' ∈ (world.shared.admitTask scope.id owner).scopes,
      ∃ old ∈ world.shared.scopes, scope'.id = old.id ∧ scope'.failedTasks = old.failedTasks ∧
        (old.id = scope.id ∧ scope'.records = old.records ++ [world.shared.nextTask] ∨
          old.id ≠ scope.id ∧ scope'.records = old.records) := by
    intro scope' changed
    rcases of_mem_modify changed with ⟨old, kept, own, rfl⟩ | ⟨kept, differs⟩
    · exact ⟨old, kept, rfl, rfl, .inl ⟨own, rfl⟩⟩
    · exact ⟨scope', kept, rfl, rfl, .inr ⟨differs, rfl⟩⟩
  refine ⟨?_, ?_, ?_, ?_, ?_, ?_, ?_, ?_, ?_⟩
  · intro id known
    rcases Nat.lt_succ_iff_lt_or_eq.mp known with known | rfl
    · dsimp only
      rw [older id known.ne]
      exact listed.homes id known
    · dsimp only
      rw [newest]
      exact sound.registered.fresh scope.erase (List.mem_map_of_mem member)
  · intro scope' changed
    obtain ⟨old, kept, -, -, ⟨-, records⟩ | ⟨-, records⟩⟩ := before scope' changed
    · rw [records]
      refine List.pairwise_append.mpr ⟨listed.sorted old kept, List.pairwise_singleton _ _, ?_⟩
      intro id recorded new isNew
      rw [List.mem_singleton.mp isNew]
      exact below old kept id recorded
    · rw [records]
      exact listed.sorted old kept
  · intro scope' changed
    obtain ⟨old, kept, same, failedTasks, -⟩ := before scope' changed
    obtain ⟨nodup, known⟩ := listed.entries old kept
    rw [failedTasks, same]
    refine ⟨nodup, fun id isListed => ?_⟩
    obtain ⟨known, home, failed⟩ := known id isListed
    dsimp only
    rw [older id known.ne]
    exact ⟨Nat.lt_succ_of_lt known, home, failed⟩
  · intro scope' changed id isListed
    obtain ⟨old, kept, -, failedTasks, -⟩ := before scope' changed
    exact listed.free old kept id (failedTasks ▸ isListed)
  · intro carrier update held
    obtain ⟨-, -, known, -⟩ := sound.erased_held held
    dsimp only
    rw [older update.id known.ne]
    exact listed.agrees carrier update held
  · intro scope' changed id known home released unobserved
    obtain ⟨old, kept, same, -, records⟩ := before scope' changed
    dsimp only at home released unobserved
    rcases Nat.lt_succ_iff_lt_or_eq.mp known with known | rfl
    · rw [older id known.ne] at home released unobserved
      have recorded := listed.kept old kept id known (home.trans same) released unobserved
      rcases records with ⟨-, records⟩ | ⟨-, records⟩
      · rw [records]
        exact List.mem_append_left _ recorded
      · rw [records]
        exact recorded
    · rw [newest] at home
      rcases records with ⟨-, records⟩ | ⟨differs, -⟩
      · rw [records]
        exact List.mem_append_right _ (List.mem_singleton_self _)
      · exact absurd (home.trans same).symm differs
  · intro scope' changed id unseen
    obtain ⟨old, kept, same, failedTasks, -⟩ := before scope' changed
    have differs : id ≠ world.shared.nextTask := by
      rintro rfl
      have failed := unseen.failed
      dsimp only at failed
      rw [newest] at failed
      cases failed
    have known : id < world.shared.nextTask :=
      lt_of_le_of_ne (Nat.lt_succ_iff.mp unseen.below) differs
    have sameRecord := older id differs
    have unseen' : Unseen world.shared old.id id := ⟨known, sameRecord ▸ unseen.home.trans same,
      sameRecord ▸ unseen.failed, sameRecord ▸ unseen.unobserved⟩
    rw [failedTasks]
    exact listed.listed old kept id unseen'
  · intro id known notAccepted
    rcases Nat.lt_succ_iff_lt_or_eq.mp known with known | rfl
    · dsimp only at notAccepted ⊢
      rw [older id known.ne] at notAccepted ⊢
      exact listed.unstarted id known notAccepted
    · dsimp only
      rw [newest]
  · intro id
    by_cases equal : id = world.shared.nextTask
    · dsimp only
      rw [equal, newest]
      exact ⟨by simp, by simp⟩
    · dsimp only
      rw [older id equal]
      exact listed.explained id

/-- An admission, whether it succeeds or not. -/
theorem reserve (listed : Listed world) (sound : Sound world.erase) (request : Request ι) :
    Listed ⟨(world.shared.reserve request).1, world.completers⟩ := by
  unfold Shared.reserve
  cases passes : world.shared.admissible request with
  | error error => exact listed
  | ok _ =>
      have evicted : Sound (World.mk world.shared.evict world.completers).erase := sound.evict_erase
      dsimp only
      split
      · exact listed.evict
      · split
        · exact listed.evict
        · rename_i owner _
          split
          · exact listed.evict
          · obtain ⟨home, member, same⟩ := world.shared.evict_home passes
            rw [← same]
            exact listed.evict.admitTask evicted member owner

/-- A reserved task is taken back. -/
theorem release (listed : Listed world) {id : Nat}
    (isReserved : (world.shared.tasks id).stage = .reserved) :
    Listed ⟨world.shared.releaseReservation id, world.completers⟩ := by
  have released : (world.shared.releaseReservation id).tasks id =
      { world.shared.tasks id with stage := .released } := Function.update_self _ _ _
  refine listed.move rfl le_rfl ?_ fun scope' changed => .inl ?_
  · intro other
    by_cases equal : other = id
    · rw [equal, released]
      refine ⟨rfl, rfl, rfl, fun panics => panics, fun unobserved => unobserved, ?_, ?_⟩
      · intro kept
        exact absurd rfl kept
      · intro _
        rw [isReserved]
        decide
    · have same : (world.shared.releaseReservation id).tasks other = world.shared.tasks other :=
        Function.update_of_ne equal _ _
      rw [same]
      exact .refl _
  · rcases of_mem_modify changed with ⟨scope, member, -, rfl⟩ | ⟨member, -⟩
    · refine ⟨scope, member, rfl, List.erase_sublist, .refl _, ?_, fun _ isListed _ => isListed⟩
      intro other recorded _ kept
      have differs : other ≠ id := by
        rintro rfl
        rw [released] at kept
        exact kept rfl
      exact (List.mem_erase_of_ne differs).mpr recorded
    · exact ⟨scope', member, .refl _ _⟩

/-! ## Steps of a carrier -/

theorem completers_self (world : World ι) (carrier : ι) (completer : Completer) :
    (world.setCompleter carrier completer).completers carrier = completer :=
  Function.update_self _ _ _

theorem completers_other (world : World ι) {carrier other : ι} (differs : other ≠ carrier)
    (completer : Completer) :
    (world.setCompleter carrier completer).completers other = world.completers other :=
  Function.update_of_ne differs _ _

/-- A carrier goes on with the completions it has. -/
theorem exchange (listed : Listed world) {carrier : ι} {completer : Completer}
    (unindexed : ∀ update, update ∈ completer.unindexed ↔
      update ∈ (world.completers carrier).unindexed)
    (unretired : ∀ update ∈ completer.unretired,
      update ∈ (world.completers carrier).unretired) :
    Listed (world.setCompleter carrier completer) where
  homes := listed.homes
  sorted := listed.sorted
  entries := listed.entries
  free scope member id isListed other update held := by
    by_cases own : other = carrier
    · rw [own, completers_self] at held
      exact listed.free scope member id isListed carrier update ((unindexed update).mp held)
    · rw [completers_other world own] at held
      exact listed.free scope member id isListed other update held
  agrees other update held := by
    by_cases own : other = carrier
    · rw [own, completers_self] at held
      exact listed.agrees carrier update (unretired update held)
    · rw [completers_other world own] at held
      exact listed.agrees other update held
  kept := listed.kept
  listed scope member id unseen := by
    rcases listed.listed scope member id unseen with isListed | ⟨other, update, held, own⟩
    · exact .inl isListed
    · refine .inr ⟨other, update, ?_, own⟩
      by_cases isCarrier : other = carrier
      · rw [isCarrier, completers_self]
        exact (unindexed update).mpr (isCarrier ▸ held)
      · rw [completers_other world isCarrier]
        exact held
  unstarted := listed.unstarted
  explained := listed.explained

/-- What `prepare` does to a live task. -/
structure Prepares (world world' : World ι) (carrier : ι) (id : Nat)
    (failure : Option TaskFailure) : Prop where
  accepted : (world.shared.tasks id).stage = .accepted
  live : (world.shared.tasks id).status.isTerminal = false
  scopes : world'.shared.scopes = world.shared.scopes
  nextTask : world'.shared.nextTask = world.shared.nextTask
  nextScope : world'.shared.nextScope = world.shared.nextScope
  finished : world'.shared.tasks id = (world.shared.tasks id).finish failure
  others : ∀ other ≠ id, world'.shared.tasks other = world.shared.tasks other
  elsewhere : ∀ holder ≠ carrier, world'.completers holder = world.completers holder
  unindexed : (world'.completers carrier).unindexed =
    ⟨id, (world'.shared.tasks id).scope, (world'.shared.tasks id).status⟩ ::
      (world.completers carrier).unindexed
  unretired : (world'.completers carrier).unretired =
    ⟨id, (world'.shared.tasks id).scope, (world'.shared.tasks id).status⟩ ::
      (world.completers carrier).unretired

theorem prepare_cases {carrier : ι} {id : Nat} {failure : Option TaskFailure} {world' : World ι}
    (taken : world.prepare carrier id failure = some world') :
    world' = world ∨ Prepares world world' carrier id failure := by
  unfold World.prepare at taken
  dsimp only at taken
  split at taken
  · rename_i guarded
    obtain ⟨-, accepted, -, idle⟩ := guarded
    split at taken
    · cases taken
      exact .inl rfl
    · rename_i isLive
      cases taken
      have finished : (world.shared.setTask id ((world.shared.tasks id).finish failure)).tasks id =
          (world.shared.tasks id).finish failure := Function.update_self _ _ _
      refine .inr ⟨accepted, Bool.eq_false_of_not_eq_true isLive, rfl, rfl, rfl, finished,
        fun _ differs => Function.update_of_ne differs _ _,
        fun _ differs => completers_other world differs _, ?_, ?_⟩
      · dsimp only
        rw [completers_self, finished]
        simp only [Completer.unindexed, idle]
      · dsimp only
        rw [completers_self, finished]
        simp only [Completer.unretired, idle]
  · cases taken

namespace Prepares

variable {world' : World ι} {carrier : ι} {id : Nat} {failure : Option TaskFailure}

omit [DecidableEq ι] in
theorem home (prepares : Prepares world world' carrier id failure) (other : Nat) :
    (world'.shared.tasks other).scope = (world.shared.tasks other).scope := by
  by_cases equal : other = id
  · rw [equal, prepares.finished]
    rfl
  · rw [prepares.others other equal]

omit [DecidableEq ι] in
/-- The task was not terminal before. -/
theorem ne_of_terminal (prepares : Prepares world world' carrier id failure) {other : Nat}
    (terminal : (world.shared.tasks other).status.isTerminal = true) : other ≠ id := by
  rintro rfl
  rw [prepares.live] at terminal
  cases terminal

omit [DecidableEq ι] in
theorem ne_of_failed (prepares : Prepares world world' carrier id failure) {other : Nat}
    (failed : (world.shared.tasks other).status.failed = true) : other ≠ id := by
  apply prepares.ne_of_terminal
  cases status : (world.shared.tasks other).status with
  | active | completed =>
      rw [status] at failed
      cases failed
  | panicked | aborted => rfl

/-- A completion afterwards is the new one, or one from before. -/
theorem of_unindexed (prepares : Prepares world world' carrier id failure) {holder : ι}
    {update : CompletionUpdate} (held : update ∈ (world'.completers holder).unindexed) :
    update.id = id ∨ update ∈ (world.completers holder).unindexed := by
  by_cases own : holder = carrier
  · rw [own, prepares.unindexed] at held
    rw [own]
    rcases List.mem_cons.mp held with rfl | held
    · exact .inl rfl
    · exact .inr held
  · rw [prepares.elsewhere holder own] at held
    exact .inr held

theorem of_unretired (prepares : Prepares world world' carrier id failure) {holder : ι}
    {update : CompletionUpdate} (held : update ∈ (world'.completers holder).unretired) :
    update = ⟨id, (world'.shared.tasks id).scope, (world'.shared.tasks id).status⟩ ∨
      update ∈ (world.completers holder).unretired := by
  by_cases own : holder = carrier
  · rw [own, prepares.unretired] at held
    rw [own]
    exact List.mem_cons.mp held
  · rw [prepares.elsewhere holder own] at held
    exact .inr held

theorem unindexed_mem (prepares : Prepares world world' carrier id failure) {holder : ι}
    {update : CompletionUpdate} (held : update ∈ (world.completers holder).unindexed) :
    update ∈ (world'.completers holder).unindexed := by
  by_cases own : holder = carrier
  · rw [own, prepares.unindexed]
    exact List.mem_cons_of_mem _ (own ▸ held)
  · rw [prepares.elsewhere holder own]
    exact held

end Prepares

/-- A record becomes terminal and its completion begins. -/
theorem prepare (listed : Listed world) (sound : Sound world.erase) {carrier : ι} {id : Nat}
    {failure : Option TaskFailure} {world' : World ι}
    (prepares : Prepares world world' carrier id failure) : Listed world' where
  homes other known := by
    rw [prepares.nextTask] at known
    rw [prepares.home other, prepares.nextScope]
    exact listed.homes other known
  sorted := by
    rw [prepares.scopes]
    exact listed.sorted
  entries scope member := by
    rw [prepares.scopes] at member
    obtain ⟨nodup, known⟩ := listed.entries scope member
    refine ⟨nodup, fun other isListed => ?_⟩
    have entry := known other isListed
    rw [prepares.others other (prepares.ne_of_failed entry.2.2), prepares.nextTask]
    exact entry
  free scope member other isListed holder update held := by
    rw [prepares.scopes] at member
    have failed := ((listed.entries scope member).2 other isListed).2.2
    rcases prepares.of_unindexed held with new | held
    · exact new ▸ (prepares.ne_of_failed failed).symm
    · exact listed.free scope member other isListed holder update held
  agrees holder update held := by
    rcases prepares.of_unretired held with rfl | held
    · exact ⟨rfl, rfl⟩
    · rw [prepares.others update.id (prepares.ne_of_terminal (sound.erased_held held).1)]
      exact listed.agrees holder update held
  kept scope member other known home released unobserved := by
    rw [prepares.scopes] at member
    rw [prepares.nextTask] at known
    rw [prepares.home other] at home
    by_cases equal : other = id
    · rw [equal, prepares.finished] at unobserved
      apply listed.kept scope member other known home
      · rw [equal, prepares.accepted]
        decide
      · rw [equal]
        exact unobserved
    · rw [prepares.others other equal] at released unobserved
      exact listed.kept scope member other known home released unobserved
  listed scope member other unseen := by
    rw [prepares.scopes] at member
    by_cases equal : other = id
    · -- The new completion will list it.
      refine .inr ⟨carrier, ⟨id, (world'.shared.tasks id).scope, (world'.shared.tasks id).status⟩,
        ?_, equal.symm⟩
      rw [prepares.unindexed]
      exact List.mem_cons_self
    · have same := prepares.others other equal
      have before : Unseen world.shared scope.id other := ⟨prepares.nextTask ▸ unseen.below,
        same ▸ unseen.home, same ▸ unseen.failed, same ▸ unseen.unobserved⟩
      rcases listed.listed scope member other before with isListed | ⟨holder, update, held, own⟩
      · exact .inl isListed
      · exact .inr ⟨holder, update, prepares.unindexed_mem held, own⟩
  unstarted other known notAccepted := by
    rw [prepares.nextTask] at known
    by_cases equal : other = id
    · rw [equal, prepares.finished] at notAccepted
      exact absurd prepares.accepted notAccepted
    · rw [prepares.others other equal] at notAccepted ⊢
      exact listed.unstarted other known notAccepted
  explained other := by
    by_cases equal : other = id
    · rw [equal, prepares.finished]
      exact TaskRecord.explained_finish _ _
    · rw [prepares.others other equal]
      exact listed.explained other

/-- What `extend` does with a batch of a scope. -/
structure Extends (world world' : World ι) (carrier : ι) (batch : List CompletionUpdate)
    (home : Nat) : Prop where
  tasks : world'.shared.tasks = world.shared.tasks
  nextTask : world'.shared.nextTask = world.shared.nextTask
  nextScope : world'.shared.nextScope = world.shared.nextScope
  elsewhere : ∀ holder ≠ carrier, world'.completers holder = world.completers holder
  unindexed : (world.completers carrier).unindexed =
    batch ++ (world'.completers carrier).unindexed
  unretired : (world'.completers carrier).unretired = (world.completers carrier).unretired
  held : ∀ update ∈ batch, update ∈ (world.completers carrier).unretired
  together : ∀ update ∈ batch, update.scope = home
  apart : ∀ update ∈ batch, ∀ later ∈ (world'.completers carrier).unindexed, later.id ≠ update.id
  distinct : (batch.map (·.id)).Nodup
  /-- A scope afterwards is one before, with the failed tasks of the batch if it is the home. -/
  scopes : ∀ scope' ∈ world'.shared.scopes, ∃ scope ∈ world.shared.scopes,
    scope'.id = scope.id ∧ scope'.records = scope.records ∧
      (scope.id = home ∧ scope'.failedTasks = scope.failedTasks ++ failedIds batch ∨
        scope.id ≠ home ∧ scope'.failedTasks = scope.failedTasks)

theorem extend_cases (sound : Sound world.erase) {carrier : ι} {world' : World ι}
    (taken : world.extend carrier = some world') :
    ∃ batch home, Extends world world' carrier batch home := by
  unfold World.extend at taken
  dsimp only at taken
  split at taken
  · rename_i own phase
    split at taken
    · cases taken
    · rename_i first rest batch
      cases taken
      have unindexed : (world.completers carrier).unindexed = (first :: rest) ++
          ({ world.completers carrier with phase := .extended own } : Completer).unindexed := by
        rw [← batch]
        cases own <;> simp [Completer.unindexed, Completer.batch, phase]
      have unretired : ({ world.completers carrier with phase := .extended own } :
          Completer).unretired = (world.completers carrier).unretired := by
        cases own <;> simp [Completer.unretired, phase]
      have same : (world.completers carrier).unindexed = (world.completers carrier).unretired := by
        cases own <;> simp [Completer.unindexed, Completer.unretired, phase]
      have ids := sound.erased_ids carrier
      rw [← same, unindexed, List.map_append, List.nodup_append] at ids
      refine ⟨first :: rest, first.scope, ?_⟩
      constructor
      case tasks | nextTask | nextScope => rfl
      case elsewhere => exact fun _ differs => completers_other world differs _
      case unindexed =>
        dsimp only
        rw [completers_self]
        exact unindexed
      case unretired =>
        dsimp only
        rw [completers_self]
        exact unretired
      case held =>
        intro update member
        rw [← same, unindexed]
        exact List.mem_append_left _ member
      case together =>
        intro update member
        cases own with
        | some own =>
            obtain ⟨rfl, rfl⟩ := List.cons.inj batch
            rw [List.mem_singleton.mp member]
        | none =>
            have completions : (world.completers carrier).completions = first :: rest := batch
            exact sound.erased_together (completions ▸ member) (completions ▸ List.mem_cons_self)
      case apart =>
        intro update member later isLater
        dsimp only at isLater
        rw [completers_self] at isLater
        exact (ids.2.2 _ (List.mem_map_of_mem member) _ (List.mem_map_of_mem isLater)).symm
      case distinct => exact ids.1
      case scopes =>
        intro scope' changed
        rcases of_mem_modify changed with ⟨scope, kept, own, rfl⟩ | ⟨kept, differs⟩
        · exact ⟨scope, kept, rfl, rfl, .inl ⟨own, rfl⟩⟩
        · exact ⟨scope', kept, rfl, rfl, .inr ⟨differs, rfl⟩⟩
  · cases taken

theorem mem_failedIds {batch : List CompletionUpdate} {id : Nat} : id ∈ failedIds batch ↔
    ∃ update ∈ batch, update.id = id ∧ update.status.failed = true := by
  unfold failedIds
  rw [List.mem_map]
  constructor
  · rintro ⟨update, failed, own⟩
    obtain ⟨member, failed⟩ := List.mem_filter.mp failed
    exact ⟨update, member, own, failed⟩
  · rintro ⟨update, member, own, failed⟩
    exact ⟨update, List.mem_filter.mpr ⟨member, failed⟩, own⟩

namespace Extends

variable {world' : World ι} {carrier : ι} {batch : List CompletionUpdate} {home : Nat}

theorem of_unindexed (extend : Extends world world' carrier batch home) {holder : ι}
    {update : CompletionUpdate} (held : update ∈ (world'.completers holder).unindexed) :
    update ∈ (world.completers holder).unindexed := by
  by_cases own : holder = carrier
  · rw [own, extend.unindexed]
    exact List.mem_append_right _ (own ▸ held)
  · rw [← extend.elsewhere holder own]
    exact held

theorem of_unretired (extend : Extends world world' carrier batch home) {holder : ι}
    {update : CompletionUpdate} (held : update ∈ (world'.completers holder).unretired) :
    update ∈ (world.completers holder).unretired := by
  by_cases own : holder = carrier
  · rw [own, ← extend.unretired]
    exact own ▸ held
  · rw [← extend.elsewhere holder own]
    exact held

/-- A completion is indexed by the step, or is as before. -/
theorem unindexed_cases (extend : Extends world world' carrier batch home) {holder : ι}
    {update : CompletionUpdate} (held : update ∈ (world.completers holder).unindexed) :
    update ∈ batch ∨ update ∈ (world'.completers holder).unindexed := by
  by_cases own : holder = carrier
  · rw [own, extend.unindexed] at held
    rw [own]
    exact List.mem_append.mp held
  · rw [extend.elsewhere holder own]
    exact .inr held

/-- A completion of the batch is in no other place. -/
theorem batch_apart (extend : Extends world world' carrier batch home) (sound : Sound world.erase)
    {published : CompletionUpdate} (inBatch : published ∈ batch) {holder : ι}
    {update : CompletionUpdate} (held : update ∈ (world'.completers holder).unindexed) :
    update.id ≠ published.id := by
  by_cases own : holder = carrier
  · exact extend.apart published inBatch update (own ▸ held)
  · exact sound.erased_apart own (Completer.unretired_of_unindexed (extend.of_unindexed held))
      (extend.held published inBatch)

end Extends

/-- A carrier extends the index of a scope by its batch. -/
theorem extend (listed : Listed world) (sound : Sound world.erase) {carrier : ι} {world' : World ι}
    {batch : List CompletionUpdate} {home : Nat}
    (extended : Extends world world' carrier batch home) : Listed world' where
  homes := by
    rw [extended.nextTask, extended.nextScope, extended.tasks]
    exact listed.homes
  sorted scope' changed := by
    obtain ⟨scope, kept, -, records, -⟩ := extended.scopes scope' changed
    rw [records]
    exact listed.sorted scope kept
  entries scope' changed := by
    obtain ⟨scope, kept, sameId, -, grown⟩ := extended.scopes scope' changed
    obtain ⟨nodup, known⟩ := listed.entries scope kept
    rw [sameId, extended.nextTask, extended.tasks]
    rcases grown with ⟨isHome, failedTasks⟩ | ⟨-, failedTasks⟩
    · rw [failedTasks]
      constructor
      · apply List.nodup_append.mpr
        refine ⟨nodup, extended.distinct.sublist (List.filter_sublist.map _), ?_⟩
        rintro id isListed other added rfl
        obtain ⟨update, inBatch, own, -⟩ := mem_failedIds.mp added
        refine listed.free scope kept id isListed carrier update ?_ own
        rw [extended.unindexed]
        exact List.mem_append_left _ inBatch
      · intro id isListed
        rcases List.mem_append.mp isListed with isListed | added
        · exact known id isListed
        · obtain ⟨update, inBatch, rfl, failed⟩ := mem_failedIds.mp added
          obtain ⟨-, -, below, -⟩ := sound.erased_held (extended.held update inBatch)
          obtain ⟨status, own⟩ := listed.agrees carrier update (extended.held update inBatch)
          refine ⟨below, ?_, status ▸ failed⟩
          exact own.trans ((extended.together update inBatch).trans isHome.symm)
    · rw [failedTasks]
      exact ⟨nodup, known⟩
  free scope' changed id isListed holder update held := by
    obtain ⟨scope, kept, -, -, grown⟩ := extended.scopes scope' changed
    have before := extended.of_unindexed held
    rcases grown with ⟨-, failedTasks⟩ | ⟨-, failedTasks⟩ <;> rw [failedTasks] at isListed
    · rcases List.mem_append.mp isListed with isListed | added
      · exact listed.free scope kept id isListed holder update before
      · obtain ⟨published, inBatch, rfl, -⟩ := mem_failedIds.mp added
        exact extended.batch_apart sound inBatch held
    · exact listed.free scope kept id isListed holder update before
  agrees holder update held := by
    rw [extended.tasks]
    exact listed.agrees holder update (extended.of_unretired held)
  kept scope' changed id := by
    obtain ⟨scope, kept, sameId, records, -⟩ := extended.scopes scope' changed
    rw [sameId, records, extended.nextTask, extended.tasks]
    exact listed.kept scope kept id
  listed scope' changed id unseen := by
    obtain ⟨scope, kept, sameId, -, grown⟩ := extended.scopes scope' changed
    have before : Unseen world.shared scope.id id := by
      obtain ⟨below, own, failed, unobserved⟩ := unseen
      rw [extended.nextTask] at below
      rw [extended.tasks] at own failed unobserved
      exact ⟨below, own.trans sameId, failed, unobserved⟩
    have stays : id ∈ scope.failedTasks → id ∈ scope'.failedTasks := by
      intro isListed
      rcases grown with ⟨-, failedTasks⟩ | ⟨-, failedTasks⟩ <;> rw [failedTasks]
      · exact List.mem_append_left _ isListed
      · exact isListed
    rcases listed.listed scope kept id before with isListed | ⟨holder, update, held, rfl⟩
    · exact .inl (stays isListed)
    · rcases extended.unindexed_cases held with inBatch | held
      · -- The batch has brought it into the index of its home.
        obtain ⟨status, own⟩ := listed.agrees carrier update (extended.held update inBatch)
        have isHome : scope.id = home :=
          before.home.symm.trans (own.trans (extended.together update inBatch))
        have added := mem_failedIds.mpr ⟨update, inBatch, rfl, status ▸ before.failed⟩
        rcases grown with ⟨-, failedTasks⟩ | ⟨differs, -⟩
        · rw [failedTasks]
          exact .inl (List.mem_append_right _ added)
        · exact absurd isHome differs
      · exact .inr ⟨holder, update, held, rfl⟩
  unstarted := by
    rw [extended.nextTask, extended.tasks]
    exact listed.unstarted
  explained := by
    rw [extended.tasks]
    exact listed.explained

/-- A carrier retires its batch. -/
theorem retire (listed : Listed world) {carrier : ι} {world' : World ι}
    (taken : world.retire carrier = some world') : Listed world' := by
  unfold World.retire at taken
  dsimp only at taken
  split at taken
  · rename_i own phase
    split at taken
    · cases taken
    · rename_i first rest batch
      cases taken
      refine (listed.setPolicy first.scope (by intro _; exact ⟨rfl, rfl, rfl⟩)).exchange ?_ ?_
      · intro update
        cases own <;> simp [Completer.unindexed, phase]
      · intro update
        cases own with
        | some own => simp +contextual [Completer.unretired, phase]
        | none => simp [Completer.unretired]
  · cases taken

/-- What is listed is kept by every step. -/
theorem step (listed : Listed world) (sound : Sound world.erase) {choice : Choice ι}
    {world' : World ι} (taken : world.step choice = some world') : Listed world' := by
  cases choice with
  | beginOwned =>
      cases taken
      refine listed.move rfl (Nat.le_succ _) (fun _ => .refl _) fun scope member => ?_
      rcases List.mem_append.mp member with kept | new
      · exact .inl ⟨scope, kept, .refl _ _⟩
      · rw [List.mem_singleton.mp new]
        exact .inr ⟨rfl, rfl, le_rfl⟩
  | closeScope id =>
      cases taken
      exact listed.setPolicy id fun _ => ⟨rfl, rfl, rfl⟩
  | abortScope id reason =>
      cases taken
      exact listed.setPolicy id fun _ => ⟨rfl, rfl, rfl⟩
  | stop =>
      cases taken
      exact listed.move rfl le_rfl (fun _ => .refl _) fun scope member =>
        .inl ⟨scope, member, .refl _ _⟩
  | finishScope id =>
      unfold World.step at taken
      dsimp only at taken
      split at taken
      · cases taken
      · split at taken
        · cases taken
          exact listed.move rfl le_rfl (fun _ => .refl _) fun scope member =>
            .inl ⟨scope, (List.mem_filter.mp member).1, .refl _ _⟩
        · cases taken
  | reserve request =>
      cases taken
      exact listed.reserve sound request
  | accept id =>
      unfold World.step at taken
      dsimp only at taken
      split at taken
      · rename_i reserved
        cases taken
        refine listed.editTask id ⟨rfl, rfl, rfl, fun panics => panics,
          fun unobserved => unobserved, ?_, ?_⟩
        · intro _
          rw [reserved.2]
          decide
        · intro notAccepted
          exact absurd rfl notAccepted
      · cases taken
  | release id =>
      unfold World.step at taken
      dsimp only at taken
      split at taken
      · rename_i reserved
        cases taken
        exact listed.release reserved.2
      · cases taken
  | observe id =>
      cases taken
      refine listed.editTask id ⟨rfl, rfl, rfl, fun panics => panics, ?_, fun kept => kept,
        fun kept => kept⟩
      intro unobserved
      cases unobserved
  | panic id =>
      cases taken
      exact listed.editTask id ⟨rfl, rfl, rfl, fun _ => rfl, fun kept => kept, fun kept => kept,
        fun kept => kept⟩
  | prepare =>
      rcases prepare_cases taken with rfl | prepares
      · exact listed
      · exact listed.prepare sound prepares
  | complete carrier =>
      change world.complete carrier = some world' at taken
      unfold World.complete at taken
      dsimp only at taken
      split at taken
      · rename_i update deferred phase
        cases taken
        have edited : Listed ⟨world.shared.editTask update.id fun record =>
            { record with done := true }, world.completers⟩ :=
          listed.editTask update.id ⟨rfl, rfl, rfl, fun kept => kept, fun kept => kept,
            fun kept => kept, fun kept => kept⟩
        refine edited.exchange ?_ ?_
        · intro other
          simp [Completer.unindexed, phase]
        · intro other
          simp [Completer.unretired, phase]
      · cases taken
  | queue carrier flush =>
      change world.queue carrier flush = some world' at taken
      unfold World.queue at taken
      dsimp only at taken
      split at taken
      · rename_i update phase
        split at taken
        · split at taken
          · cases taken
            refine listed.exchange ?_ ?_
            · intro other
              simp [Completer.unindexed, phase, or_comm]
            · intro other
              simp [Completer.unretired, phase, or_comm]
          · cases taken
            refine listed.exchange ?_ ?_
            · intro other
              simp [Completer.unindexed, phase, or_comm]
            · intro other
              simp [Completer.unretired, phase, or_comm]
        · cases taken
      · rename_i update phase
        cases taken
        refine listed.exchange ?_ ?_
        · intro other
          simp [Completer.unindexed, phase]
        · intro other
          simp [Completer.unretired, phase]
      · cases taken
  | flush carrier =>
      change world.flush carrier = some world' at taken
      unfold World.flush at taken
      dsimp only at taken
      split at taken
      · rename_i ready
        cases taken
        refine listed.exchange ?_ ?_
        · intro other
          simp [Completer.unindexed, ready.1]
        · intro other
          simp [Completer.unretired, ready.1]
      · cases taken
  | extend =>
      obtain ⟨batch, home, extended⟩ := extend_cases sound taken
      exact listed.extend sound extended
  | retire => exact listed.retire taken

end Listed

end VThread.Scope
