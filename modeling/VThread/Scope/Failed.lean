import Mathlib.Algebra.Order.BigOperators.Group.List
import Mathlib.Algebra.Order.Group.Nat
import VThread.Scope.Registered

/-!
# The index of failed tasks

The index of a scope refers to retained records as long as no eviction reclaims the record of
a failed task before its completion has reached the index.
-/

namespace VThread.Scope

open VThread.Lib VThread.Carrier

variable {ι : Type}

/-- What holds of the completions that carriers have not yet published. -/
structure Credits (shared : Shared ι) (completers : ι → Completer) : Prop where
  held : ∀ carrier, ∀ update ∈ (completers carrier).unretired,
    (shared.tasks update.id).status = update.status ∧ update.status.isTerminal = true ∧
      update.id < shared.nextTask ∧
        ∃ scope ∈ shared.scopes, scope.id = update.scope ∧ update.id ∈ scope.active
  distinct : ∀ carrier, ((completers carrier).unretired.map (·.id)).Nodup
  apart : ∀ carrier other, carrier ≠ other → ∀ update ∈ (completers carrier).unretired,
    ∀ held ∈ (completers other).unretired, update.id ≠ held.id
  together : ∀ carrier, ∀ update ∈ (completers carrier).completions,
    ∀ other ∈ (completers carrier).completions, update.scope = other.scope
  /-- An id is in an index only after its completion. -/
  free : ∀ scope ∈ shared.scopes, ∀ id ∈ scope.failedTasks, ∀ carrier,
    ∀ update ∈ (completers carrier).unindexed, update.id ≠ id
  /-- The record of a failed task stays until its completion. -/
  queued : ∀ carrier, ∀ update ∈ (completers carrier).unindexed, update.status.failed = true →
    ∃ scope ∈ shared.scopes, scope.id = update.scope ∧ update.id ∈ scope.records

theorem Completer.unretired_of_unindexed {completer : Completer} {update : CompletionUpdate}
    (member : update ∈ completer.unindexed) : update ∈ completer.unretired := by
  unfold Completer.unindexed at member
  unfold Completer.unretired
  split at member
  case h_6 => exact List.mem_cons_of_mem _ member
  case h_7 => cases member
  all_goals exact member

namespace Credits

variable {shared shared' : Shared ι} {completers : ι → Completer}

theorem new [Inhabited ι] (maxVthreads : Nat) :
    Credits (.new maxVthreads : Shared ι) fun _ => ⟨[], .idle⟩ where
  held := by simp [Completer.unretired]
  distinct := by simp [Completer.unretired]
  apart := by simp [Completer.unretired]
  together := by simp
  free := by simp [Shared.new]
  queued := by simp [Completer.unindexed]

/-- A change of the registry that keeps what the completions refer to. -/
theorem move (credits : Credits shared completers)
    (terminal : ∀ id < shared.nextTask, (shared.tasks id).status.isTerminal = true →
      (shared'.tasks id).status = (shared.tasks id).status)
    (nextTask : shared.nextTask ≤ shared'.nextTask)
    (active : ∀ scope ∈ shared.scopes, ∀ carrier, ∀ update ∈ (completers carrier).unretired,
      scope.id = update.scope → update.id ∈ scope.active →
        ∃ scope' ∈ shared'.scopes, scope'.id = scope.id ∧ update.id ∈ scope'.active)
    (indexed : ∀ scope' ∈ shared'.scopes, ∀ id ∈ scope'.failedTasks,
      ∃ scope ∈ shared.scopes, id ∈ scope.failedTasks)
    (records : ∀ scope ∈ shared.scopes, ∀ carrier, ∀ update ∈ (completers carrier).unindexed,
      update.status.failed = true → scope.id = update.scope → update.id ∈ scope.records →
        ∃ scope' ∈ shared'.scopes, scope'.id = scope.id ∧ update.id ∈ scope'.records) :
    Credits shared' completers where
  held carrier update member := by
    obtain ⟨status, ended, below, scope, kept, own, isListed⟩ := credits.held carrier update member
    obtain ⟨scope', kept', same, isListed'⟩ := active scope kept carrier update member own isListed
    exact ⟨(terminal update.id below (status ▸ ended)).trans status, ended,
      below.trans_le nextTask, scope', kept', same.trans own, isListed'⟩
  distinct := credits.distinct
  apart := credits.apart
  together := credits.together
  free scope' member id listed := by
    obtain ⟨scope, kept, listed⟩ := indexed scope' member id listed
    exact credits.free scope kept id listed
  queued carrier update member isFailed := by
    obtain ⟨scope, kept, own, recorded⟩ := credits.queued carrier update member isFailed
    obtain ⟨scope', kept', same, recorded'⟩ :=
      records scope kept carrier update member isFailed own recorded
    exact ⟨scope', kept', same.trans own, recorded'⟩

/-- The registry stays as it is, but for its scopes' policies. -/
theorem setScope (credits : Credits shared completers) (id : Nat)
    {change : ScopeState → ScopeState}
    (same : ∀ scope, (change scope).id = scope.id ∧ (change scope).records = scope.records ∧
      (change scope).active = scope.active ∧ (change scope).failedTasks = scope.failedTasks) :
    Credits (shared.setScope id change) completers := by
  refine credits.move (fun _ _ _ => rfl) le_rfl ?_ ?_ ?_
  · intro scope member _ _ _ _ listed
    obtain ⟨_, changed, ⟨-, rfl⟩ | ⟨-, rfl⟩⟩ := @exists_mem_modify id change _ _ member
    · exact ⟨_, changed, (same scope).1, (same scope).2.2.1 ▸ listed⟩
    · exact ⟨_, changed, rfl, listed⟩
  · intro scope' changed task listed
    rcases of_mem_modify changed with ⟨scope, member, -, rfl⟩ | ⟨member, -⟩
    · exact ⟨scope, member, (same scope).2.2.2 ▸ listed⟩
    · exact ⟨scope', member, listed⟩
  · intro scope member _ _ _ _ _ recorded
    obtain ⟨_, changed, ⟨-, rfl⟩ | ⟨-, rfl⟩⟩ := @exists_mem_modify id change _ _ member
    · exact ⟨_, changed, (same scope).1, (same scope).2.1 ▸ recorded⟩
    · exact ⟨_, changed, rfl, recorded⟩

/-- Records change, but terminal ones stay terminal. -/
theorem retask (credits : Credits shared completers) {tasks : Nat → TaskRecord ι}
    (terminal : ∀ id < shared.nextTask, (shared.tasks id).status.isTerminal = true →
      (tasks id).status = (shared.tasks id).status) : Credits { shared with tasks } completers :=
  credits.move terminal le_rfl (fun scope member _ _ _ _ listed => ⟨scope, member, rfl, listed⟩)
    (fun scope member _ listed => ⟨scope, member, listed⟩)
    fun scope member _ _ _ _ _ recorded => ⟨scope, member, rfl, recorded⟩

theorem beginOwned (credits : Credits shared completers) :
    Credits shared.beginOwned completers := by
  refine credits.move (fun _ _ _ => rfl) le_rfl ?_ ?_ ?_
  · intro scope member _ _ _ _ listed
    exact ⟨scope, List.mem_append_left _ member, rfl, listed⟩
  · intro scope member id listed
    rcases List.mem_append.mp member with kept | new
    · exact ⟨scope, kept, listed⟩
    · rw [List.mem_singleton.mp new] at listed
      cases listed
  · intro scope member _ _ _ _ _ recorded
    exact ⟨scope, List.mem_append_left _ member, rfl, recorded⟩

/-- No completion refers to a scope without active tasks. -/
theorem finishScope (credits : Credits shared completers) (registered : Registered shared)
    {id : Nat} {home : ScopeState} (found : shared.find id = some home)
    (drained : home.admitted = home.retired) : Credits (shared.finishScope id) completers := by
  obtain ⟨homeMember, ownId⟩ := Shared.find_mem found
  have idle : home.active = [] := by
    have balance := registered.balance home homeMember
    exact List.length_eq_zero_iff.mp (by omega)
  -- The scope of a completion is another one.
  have differs : ∀ carrier, ∀ update ∈ (completers carrier).unretired, ∀ scope ∈ shared.scopes,
      scope.id = update.scope → scope ∈ (shared.finishScope id).scopes := by
    intro carrier update held scope member own
    refine List.mem_filter.mpr ⟨member, decide_eq_true fun equal => ?_⟩
    obtain ⟨-, -, -, other, others, same, isListed⟩ := credits.held carrier update held
    have isHome : other = home := registered.scope_eq others homeMember
      (same.trans (own.symm.trans (equal.trans ownId.symm)))
    rw [isHome, idle] at isListed
    cases isListed
  refine credits.move (fun _ _ _ => rfl) le_rfl ?_ ?_ ?_
  · intro scope member carrier update held own listed
    exact ⟨scope, differs carrier update held scope member own, rfl, listed⟩
  · intro scope member task listed
    exact ⟨scope, (List.mem_filter.mp member).1, listed⟩
  · intro scope member carrier update held _ own recorded
    exact ⟨scope, differs carrier update (Completer.unretired_of_unindexed held) scope member own,
      rfl, recorded⟩

/-- An eviction that reclaims no failed task missing in its index. -/
theorem evict (credits : Credits shared completers)
    (indexed : shared.maxVthreads ≤ shared.recordCount → ∀ scope ∈ shared.scopes,
      ∀ id ∈ scope.records, shared.reclaimable id = true →
        (shared.tasks id).status.failed = true → id ∈ scope.failedTasks) :
    Credits shared.evict completers := by
  unfold Shared.evict
  split
  · rename_i full
    have evicts := evictScopes_evicts shared.reclaimable shared.scopes []
    refine credits.move (fun _ _ _ => rfl) le_rfl ?_ ?_ ?_
    · intro scope member _ _ _ _ listed
      obtain ⟨scope', member', evicted⟩ := forall₂_mem evicts member
      exact ⟨scope', member', evicted.id_eq, evicted.active ▸ listed⟩
    · intro scope' member id listed
      obtain ⟨scope, kept, evicted⟩ := forall₂_mem_right evicts member
      obtain ⟨reclaimed, failedTasks, -⟩ := evicted.failedTasks
      rw [failedTasks] at listed
      exact ⟨scope, kept, (List.mem_filter.mp listed).1⟩
    · intro scope member carrier update held isFailed own recorded
      obtain ⟨scope', member', evicted⟩ := forall₂_mem evicts member
      refine ⟨scope', member', evicted.id_eq, ?_⟩
      rw [evicted.records]
      refine List.mem_filter.mpr ⟨recorded, ?_⟩
      cases removed : shared.reclaimable update.id with
      | false => rfl
      | true =>
          have listed := indexed full scope member update.id recorded removed
            ((credits.held carrier update (Completer.unretired_of_unindexed held)).1 ▸ isFailed)
          exact absurd rfl (credits.free scope member update.id listed carrier update held)
  · exact credits

/-- The completions of a batch are of one scope, which is still there. -/
theorem batch_scope (credits : Credits shared completers) {carrier : ι}
    {own : Option CompletionUpdate} {first : CompletionUpdate} {rest : List CompletionUpdate}
    (batch : (completers carrier).batch own = first :: rest)
    (held : ∀ update ∈ first :: rest, update ∈ (completers carrier).unretired) :
    ∃ home ∈ shared.scopes, home.id = first.scope ∧
      (∀ update ∈ first :: rest, update.scope = first.scope) := by
  obtain ⟨-, -, -, home, homeMember, same, -⟩ :=
    credits.held carrier first (held first List.mem_cons_self)
  refine ⟨home, homeMember, same, fun update member => ?_⟩
  cases own with
  | some own =>
      obtain ⟨rfl, rfl⟩ := List.cons.inj batch
      rw [List.mem_singleton.mp member]
  | none =>
      have completions : (completers carrier).completions = first :: rest := batch
      exact credits.together carrier update (completions ▸ member) first
        (completions ▸ List.mem_cons_self)

variable [DecidableEq ι]

theorem admitTask (credits : Credits shared completers) (scope : Nat) (owner : ι) :
    Credits (shared.admitTask scope owner) completers := by
  refine credits.move ?_ (Nat.le_succ _) ?_ ?_ ?_
  · intro id below _
    exact congrArg TaskRecord.status (Function.update_of_ne below.ne _ _)
  · intro other member _ _ _ _ listed
    obtain ⟨_, changed, ⟨-, rfl⟩ | ⟨-, rfl⟩⟩ := @exists_mem_modify scope _ _ _ member
    · exact ⟨_, changed, rfl, List.mem_append_left _ listed⟩
    · exact ⟨_, changed, rfl, listed⟩
  · intro scope' changed id listed
    rcases of_mem_modify changed with ⟨other, member, -, rfl⟩ | ⟨member, -⟩
    · exact ⟨other, member, listed⟩
    · exact ⟨scope', member, listed⟩
  · intro other member _ _ _ _ _ recorded
    obtain ⟨_, changed, ⟨-, rfl⟩ | ⟨-, rfl⟩⟩ := @exists_mem_modify scope _ _ _ member
    · exact ⟨_, changed, rfl, List.mem_append_left _ recorded⟩
    · exact ⟨_, changed, rfl, recorded⟩

/-- A reserved task has no completion. -/
theorem releaseReservation (credits : Credits shared completers) {id : Nat}
    (isActive : (shared.tasks id).status = .active) :
    Credits (shared.releaseReservation id) completers := by
  have differs : ∀ carrier, ∀ update ∈ (completers carrier).unretired, update.id ≠ id := by
    rintro carrier update member rfl
    obtain ⟨status, ended, -⟩ := credits.held carrier update member
    rw [← status, isActive] at ended
    cases ended
  refine credits.move ?_ le_rfl ?_ ?_ ?_
  · intro other _ ended
    refine congrArg TaskRecord.status (Function.update_of_ne ?_ _ _)
    rintro rfl
    rw [isActive] at ended
    cases ended
  · intro scope member carrier update held _ listed
    obtain ⟨_, changed, ⟨-, rfl⟩ | ⟨-, rfl⟩⟩ :=
      @exists_mem_modify (shared.tasks id).scope _ _ _ member
    · exact ⟨_, changed, rfl, (List.mem_erase_of_ne (differs carrier update held)).mpr listed⟩
    · exact ⟨_, changed, rfl, listed⟩
  · intro scope' changed task listed
    rcases of_mem_modify changed with ⟨scope, member, -, rfl⟩ | ⟨member, -⟩
    · exact ⟨scope, member, listed⟩
    · exact ⟨scope', member, listed⟩
  · intro scope member carrier update held _ _ recorded
    have other := differs carrier update (Completer.unretired_of_unindexed held)
    obtain ⟨_, changed, ⟨-, rfl⟩ | ⟨-, rfl⟩⟩ :=
      @exists_mem_modify (shared.tasks id).scope _ _ _ member
    · exact ⟨_, changed, rfl, (List.mem_erase_of_ne other).mpr recorded⟩
    · exact ⟨_, changed, rfl, recorded⟩

/-! ## Steps of a carrier -/

/-- A carrier goes on with the completions it has, or with fewer. -/
theorem exchange (credits : Credits shared completers) {carrier : ι} {completer : Completer}
    (unretired : ∀ update ∈ completer.unretired, update ∈ (completers carrier).unretired)
    (distinct : (completer.unretired.map (·.id)).Nodup)
    (unindexed : ∀ update ∈ completer.unindexed, update ∈ (completers carrier).unindexed)
    (together : ∀ update ∈ completer.completions, ∀ other ∈ completer.completions,
      update.scope = other.scope) :
    Credits shared (Function.update completers carrier completer) where
  held := by
    intro other update member
    by_cases own : other = carrier
    · rw [own, Function.update_self] at member
      exact credits.held carrier update (unretired update member)
    · rw [Function.update_of_ne own] at member
      exact credits.held other update member
  distinct := by
    intro other
    by_cases own : other = carrier
    · rw [own, Function.update_self]
      exact distinct
    · rw [Function.update_of_ne own]
      exact credits.distinct other
  apart := by
    intro first second differ update updateMember held heldMember
    by_cases own : first = carrier
    · rw [own, Function.update_self] at updateMember
      rw [Function.update_of_ne (own ▸ differ.symm)] at heldMember
      exact credits.apart carrier second (own ▸ differ) update (unretired update updateMember) held
        heldMember
    · rw [Function.update_of_ne own] at updateMember
      by_cases ownSecond : second = carrier
      · rw [ownSecond, Function.update_self] at heldMember
        exact credits.apart first carrier own update updateMember held (unretired held heldMember)
      · rw [Function.update_of_ne ownSecond] at heldMember
        exact credits.apart first second differ update updateMember held heldMember
  together := by
    intro other
    by_cases own : other = carrier
    · rw [own, Function.update_self]
      exact together
    · rw [Function.update_of_ne own]
      exact credits.together other
  free := by
    intro scope member id listed other update held
    by_cases own : other = carrier
    · rw [own, Function.update_self] at held
      exact credits.free scope member id listed carrier update (unindexed update held)
    · rw [Function.update_of_ne own] at held
      exact credits.free scope member id listed other update held
  queued := by
    intro other update held isFailed
    by_cases own : other = carrier
    · rw [own, Function.update_self] at held
      exact credits.queued carrier update (unindexed update held) isFailed
    · rw [Function.update_of_ne own] at held
      exact credits.queued other update held isFailed

/-- A record becomes terminal and its completion begins. -/
theorem prepare (credits : Credits shared completers) (registered : Registered shared)
    {carrier : ι} {id : Nat} {failure : Option TaskFailure} {deferred : Bool}
    (below : id < shared.nextTask) (accepted : (shared.tasks id).stage = .accepted)
    (isActive : (shared.tasks id).status = .active)
    (idle : (completers carrier).phase = .idle)
    (terminal : ((shared.tasks id).finish failure).status.isTerminal = true) :
    Credits (shared.setTask id ((shared.tasks id).finish failure))
      (Function.update completers carrier { completers carrier with
        phase := .prepared ⟨id, (shared.tasks id).scope, ((shared.tasks id).finish failure).status⟩
          deferred }) := by
  obtain ⟨home, homeMember, own, isListed, recorded⟩ := registered.live id below isActive
    (by rw [accepted]; decide)
  have fresh : ∀ other, ∀ update ∈ (completers other).unretired, update.id ≠ id := by
    rintro other update member rfl
    obtain ⟨status, ended, -⟩ := credits.held other update member
    rw [← status, isActive] at ended
    cases ended
  have unretired : (completers carrier).unretired = (completers carrier).completions := by
    simp only [Completer.unretired, idle]
  have unindexed : (completers carrier).unindexed = (completers carrier).completions := by
    simp only [Completer.unindexed, idle]
  have moved : Credits (shared.setTask id ((shared.tasks id).finish failure)) completers := by
    refine credits.retask fun other _ ended => ?_
    refine congrArg TaskRecord.status (Function.update_of_ne ?_ _ _)
    rintro rfl
    rw [isActive] at ended
    cases ended
  have finished : (shared.setTask id ((shared.tasks id).finish failure)).tasks id =
      (shared.tasks id).finish failure := Function.update_self _ _ _
  refine ⟨?_, ?_, ?_, ?_, ?_, ?_⟩
  · intro other update member
    by_cases same : other = carrier
    · rw [same, Function.update_self] at member
      rcases List.mem_cons.mp member with rfl | member
      · exact ⟨congrArg TaskRecord.status finished, terminal, below, home, homeMember, own,
          isListed⟩
      · exact moved.held carrier update (unretired ▸ member)
    · rw [Function.update_of_ne same] at member
      exact moved.held other update member
  · intro other
    by_cases same : other = carrier
    · rw [same, Function.update_self]
      refine List.nodup_cons.mpr ⟨?_, unretired ▸ credits.distinct carrier⟩
      intro listed
      obtain ⟨update, member, equal⟩ := List.mem_map.mp listed
      exact fresh carrier update (unretired ▸ member) equal
    · rw [Function.update_of_ne same]
      exact credits.distinct other
  · -- One of two completions of one id would be new, and its carrier has only one.
    have origin : ∀ other, ∀ update ∈ (Function.update completers carrier { completers carrier with
        phase := .prepared ⟨id, (shared.tasks id).scope, ((shared.tasks id).finish failure).status⟩
          deferred } other).unretired,
        update ∈ (completers other).unretired ∨ other = carrier ∧ update.id = id := by
      intro other update member
      by_cases same : other = carrier
      · rw [same, Function.update_self] at member
        rcases List.mem_cons.mp member with rfl | member
        · exact .inr ⟨same, rfl⟩
        · rw [same]
          exact .inl (unretired ▸ member)
      · rw [Function.update_of_ne same] at member
        exact .inl member
    intro first second differ update updateMember held heldMember
    rcases origin first update updateMember with old | ⟨isCarrier, isNew⟩
    · rcases origin second held heldMember with oldHeld | ⟨-, heldNew⟩
      · exact credits.apart first second differ update old held oldHeld
      · rw [heldNew]
        exact fresh first update old
    · rcases origin second held heldMember with oldHeld | ⟨isCarrier', -⟩
      · rw [isNew]
        exact (fresh second held oldHeld).symm
      · exact absurd (isCarrier.trans isCarrier'.symm) differ
  · intro other
    by_cases same : other = carrier
    · rw [same, Function.update_self]
      exact credits.together carrier
    · rw [Function.update_of_ne same]
      exact credits.together other
  · intro scope member task listed other update held
    by_cases same : other = carrier
    · rw [same, Function.update_self] at held
      rcases List.mem_cons.mp held with rfl | held
      · rintro rfl
        have ended := ((registered.indexed scope member).2 _ listed).2
        rw [isActive] at ended
        cases ended
      · exact moved.free scope member task listed carrier update (unindexed ▸ held)
    · rw [Function.update_of_ne same] at held
      exact moved.free scope member task listed other update held
  · intro other update held isFailed
    by_cases same : other = carrier
    · rw [same, Function.update_self] at held
      rcases List.mem_cons.mp held with rfl | held
      · exact ⟨home, homeMember, own, recorded⟩
      · exact moved.queued carrier update (unindexed ▸ held) isFailed
    · rw [Function.update_of_ne same] at held
      exact moved.queued other update held isFailed

/-- A carrier extends the index of a scope by a batch. -/
theorem extend (credits : Credits shared completers) {carrier : ι} {completer : Completer}
    {home : ScopeState} {batch : List CompletionUpdate}
    (unindexed : (completers carrier).unindexed = batch ++ completer.unindexed)
    (unretired : completer.unretired = (completers carrier).unretired)
    (same : (completers carrier).unindexed = (completers carrier).unretired)
    (completions : completer.completions = (completers carrier).completions) :
    Credits (shared.setScope home.id fun scope => { scope with
        failedTasks := scope.failedTasks ++ failedIds batch })
      (Function.update completers carrier completer) := by
  have exchanged : Credits shared (Function.update completers carrier completer) := by
    refine credits.exchange (fun update member => unretired ▸ member) ?_ ?_ ?_
    · rw [unretired]
      exact credits.distinct carrier
    · intro update member
      rw [unindexed]
      exact List.mem_append_right _ member
    · rw [completions]
      exact credits.together carrier
  refine ⟨?_, exchanged.distinct, exchanged.apart, exchanged.together, ?_, ?_⟩
  · intro other update member
    obtain ⟨status, ended, below, scope, kept, own, isListed⟩ := exchanged.held other update member
    obtain ⟨_, changed, ⟨-, rfl⟩ | ⟨-, rfl⟩⟩ := @exists_mem_modify home.id _ _ _ kept
    · exact ⟨status, ended, below, _, changed, own, isListed⟩
    · exact ⟨status, ended, below, _, changed, own, isListed⟩
  · intro scope' changed id listed other update held
    rcases of_mem_modify changed with ⟨scope, member, -, rfl⟩ | ⟨member, -⟩
    · rcases List.mem_append.mp listed with listed | added
      · exact exchanged.free scope member id listed other update held
      · -- A completion of the batch is in no other place.
        obtain ⟨published, isFailed, rfl⟩ := List.mem_map.mp added
        have inBatch := (List.mem_filter.mp isFailed).1
        have wasHeld : published ∈ (completers carrier).unretired := by
          rw [← same, unindexed]
          exact List.mem_append_left _ inBatch
        by_cases own : other = carrier
        · rw [own, Function.update_self] at held
          have nodup := credits.distinct carrier
          rw [← same, unindexed, List.map_append, List.nodup_append] at nodup
          exact (nodup.2.2 _ (List.mem_map_of_mem inBatch) _ (List.mem_map_of_mem held)).symm
        · rw [Function.update_of_ne own] at held
          exact credits.apart other carrier own update (Completer.unretired_of_unindexed held)
            published wasHeld
    · exact exchanged.free scope' member id listed other update held
  · intro other update held isFailed
    obtain ⟨scope, kept, own, recorded⟩ := exchanged.queued other update held isFailed
    obtain ⟨_, changed, ⟨-, rfl⟩ | ⟨-, rfl⟩⟩ := @exists_mem_modify home.id _ _ _ kept
    · exact ⟨_, changed, own, recorded⟩
    · exact ⟨_, changed, own, recorded⟩

/-- A carrier retires a batch. -/
theorem retire (credits : Credits shared completers) {carrier : ι} {completer : Completer}
    {home : ScopeState} {batch : List CompletionUpdate}
    (unretired : (completers carrier).unretired = batch ++ completer.unretired)
    (unindexed : completer.unindexed = (completers carrier).unindexed)
    (completions : ∀ update ∈ completer.completions,
      update ∈ (completers carrier).completions) :
    Credits (shared.setScope home.id fun scope => { scope with
        retired := scope.retired + batch.length
        active := scope.active.filter (· ∉ batch.map (·.id)) })
      (Function.update completers carrier completer) := by
  have nodup := credits.distinct carrier
  rw [unretired, List.map_append, List.nodup_append] at nodup
  have exchanged : Credits shared (Function.update completers carrier completer) := by
    refine credits.exchange ?_ nodup.2.1 ?_ ?_
    · intro update member
      rw [unretired]
      exact List.mem_append_right _ member
    · intro update member
      exact unindexed ▸ member
    · intro update member other others
      exact credits.together carrier update (completions update member) other
        (completions other others)
  refine ⟨?_, exchanged.distinct, exchanged.apart, exchanged.together, ?_, ?_⟩
  · intro other update member
    have outside : update.id ∉ batch.map (·.id) := by
      intro listed
      obtain ⟨published, inBatch, equal⟩ := List.mem_map.mp listed
      have wasHeld : published ∈ (completers carrier).unretired := by
        rw [unretired]
        exact List.mem_append_left _ inBatch
      by_cases own : other = carrier
      · rw [own, Function.update_self] at member
        exact nodup.2.2 _ (List.mem_map_of_mem inBatch) _ (List.mem_map_of_mem member) equal
      · rw [Function.update_of_ne own] at member
        exact credits.apart other carrier own update member published wasHeld equal.symm
    obtain ⟨status, ended, below, scope, kept, own, isListed⟩ := exchanged.held other update member
    obtain ⟨_, changed, ⟨-, rfl⟩ | ⟨-, rfl⟩⟩ := @exists_mem_modify home.id _ _ _ kept
    · exact ⟨status, ended, below, _, changed, own,
        List.mem_filter.mpr ⟨isListed, decide_eq_true outside⟩⟩
    · exact ⟨status, ended, below, _, changed, own, isListed⟩
  · intro scope' changed id listed
    rcases of_mem_modify changed with ⟨scope, member, -, rfl⟩ | ⟨member, -⟩
    · exact exchanged.free scope member id listed
    · exact exchanged.free scope' member id listed
  · intro other update held isFailed
    obtain ⟨scope, kept, own, recorded⟩ := exchanged.queued other update held isFailed
    obtain ⟨_, changed, ⟨-, rfl⟩ | ⟨-, rfl⟩⟩ := @exists_mem_modify home.id _ _ _ kept
    · exact ⟨_, changed, own, recorded⟩
    · exact ⟨_, changed, own, recorded⟩

end Credits

/-! ## Runs -/

/-- The invariant of guarded runs. -/
structure Sound (world : World ι) : Prop where
  registered : Registered world.shared
  credits : Credits world.shared world.completers

namespace Sound

variable {world world' : World ι}

theorem editTask (sound : Sound world) (id : Nat) {change : TaskRecord ι → TaskRecord ι}
    (same : (change (world.shared.tasks id)).scope = (world.shared.tasks id).scope ∧
      (change (world.shared.tasks id)).status = (world.shared.tasks id).status)
    (stage : (change (world.shared.tasks id)).stage = (world.shared.tasks id).stage ∨
      (world.shared.tasks id).stage = .reserved ∧
        (change (world.shared.tasks id)).stage = .accepted) :
    Sound { world with shared := world.shared.editTask id change } := by
  have others : ∀ other ≠ id, (world.shared.editTask id change).tasks other =
      world.shared.tasks other := fun other differs => Function.update_of_ne differs _ _
  have edited : (world.shared.editTask id change).tasks id = change (world.shared.tasks id) :=
    Function.update_self _ _ _
  have status : ∀ other, ((world.shared.editTask id change).tasks other).status =
      (world.shared.tasks other).status := by
    intro other
    by_cases equal : other = id
    · rw [equal, edited]
      exact same.2
    · rw [others other equal]
  refine ⟨sound.registered.retask ?_ status ?_ ?_,
    sound.credits.retask fun other _ _ => status other⟩
  · intro other
    by_cases equal : other = id
    · rw [equal]
      exact (congrArg TaskRecord.scope edited).trans same.1
    · exact congrArg TaskRecord.scope (others other equal)
  · intro other kept
    by_cases equal : other = id
    · rw [equal] at kept ⊢
      rcases stage with stage | ⟨reserved, -⟩
      · rw [← stage, ← edited]
        exact kept
      · rw [reserved]
        decide
    · rw [← others other equal]
      exact kept
  · intro other reserved
    by_cases equal : other = id
    · rw [equal] at reserved ⊢
      rcases stage with stage | ⟨reserved', -⟩
      · rw [← stage, ← edited]
        exact reserved
      · exact reserved'
    · rw [← others other equal]
      exact reserved

variable [DecidableEq ι]

/-- An admission, whether it succeeds or not. -/
theorem reserve (sound : Sound world) {request : Request ι}
    (guarded : indexed (.reserve request) world = true) :
    Sound { world with shared := (world.shared.reserve request).1 } := by
  unfold Shared.reserve
  cases passes : world.shared.admissible request with
  | error error => exact sound
  | ok _ =>
      obtain ⟨home, found⟩ := Shared.admissible_find passes
      have complete : world.shared.maxVthreads ≤ world.shared.recordCount →
          ∀ scope ∈ world.shared.scopes, ∀ id ∈ scope.records,
            world.shared.reclaimable id = true → (world.shared.tasks id).status.failed = true →
              id ∈ scope.failedTasks := by
        intro full scope member id recorded reclaimable isFailed
        have below : ¬ world.shared.recordCount < world.shared.maxVthreads := Nat.not_lt.mpr full
        simp only [indexed, passes, Except.toBool, below, Bool.or_eq_true, beq_iff_eq,
          decide_false, Bool.false_eq_true, or_false, Bool.true_eq_false, false_or,
          List.all_eq_true, Bool.not_eq_true', List.contains_iff_mem] at guarded
        rcases guarded scope member id recorded with (kept | passed) | listed
        · rw [reclaimable] at kept
          cases kept
        · rw [isFailed] at passed
          cases passed
        · exact listed
      have evicted : Sound { world with shared := world.shared.evict } :=
        ⟨sound.registered.evict, sound.credits.evict complete⟩
      dsimp only
      split
      · exact evicted
      · rename_i room
        split
        · exact evicted
        · rename_i owner _
          split
          · exact evicted
          · -- The scope of the request is still there.
            obtain ⟨member, own⟩ := Shared.find_mem found
            obtain ⟨home', member', same⟩ : ∃ home' ∈ world.shared.evict.scopes,
                home'.id = request.scope := by
              unfold Shared.evict
              split
              · obtain ⟨home', member', evicted⟩ :=
                  forall₂_mem (evictScopes_evicts world.shared.reclaimable _ []) member
                exact ⟨home', member', evicted.id_eq.trans own⟩
              · exact ⟨home, member, own⟩
            rw [← same]
            exact ⟨evicted.registered.admitTask member' (Nat.lt_of_not_le room) owner,
              evicted.credits.admitTask _ owner⟩

theorem prepare (sound : Sound world) {carrier : ι} {id : Nat} {failure : Option TaskFailure}
    (taken : world.prepare carrier id failure = some world') : Sound world' := by
  unfold World.prepare at taken
  dsimp only at taken
  split at taken
  · rename_i guarded
    obtain ⟨below, accepted, -, idle⟩ := guarded
    split at taken
    · cases taken
      exact sound
    · rename_i isLive
      cases taken
      have isActive : (world.shared.tasks id).status = .active := by
        cases status : (world.shared.tasks id).status with
        | active => rfl
        | completed | panicked | aborted => exact absurd (by rw [status]; rfl) isLive
      have terminal : ((world.shared.tasks id).finish failure).status.isTerminal = true := by
        unfold TaskRecord.finish
        dsimp only
        split
        · rfl
        · split <;> rfl
      exact ⟨sound.registered.finish failure accepted,
        sound.credits.prepare sound.registered below accepted isActive idle terminal⟩
  · cases taken

theorem complete (sound : Sound world) {carrier : ι}
    (taken : world.complete carrier = some world') : Sound world' := by
  unfold World.complete at taken
  dsimp only at taken
  split at taken
  · rename_i update deferred phase
    cases taken
    have edited := @editTask _ _ sound update.id (fun record => { record with done := true })
      ⟨rfl, rfl⟩ (.inl rfl)
    refine ⟨edited.registered, edited.credits.exchange ?_ ?_ ?_ (sound.credits.together carrier)⟩
    · simp [Completer.unretired, phase]
    · have distinct := sound.credits.distinct carrier
      simp only [Completer.unretired, phase] at distinct
      exact distinct
    · simp [Completer.unindexed, phase]
  · cases taken

theorem queue (sound : Sound world) {carrier : ι} {flush : Bool}
    (taken : world.queue carrier flush = some world') : Sound world' := by
  have distinct := sound.credits.distinct carrier
  unfold World.queue at taken
  dsimp only at taken
  split at taken
  · rename_i update phase
    split at taken
    · rename_i scopes
      simp only [Completer.unretired, phase] at distinct
      have rotated : (((world.completers carrier).completions ++ [update]).map (·.id)).Nodup :=
        ((List.perm_append_singleton _ _).map _).nodup_iff.mpr distinct
      have together : ∀ first ∈ (world.completers carrier).completions ++ [update],
          ∀ second ∈ (world.completers carrier).completions ++ [update],
            first.scope = second.scope := by
        have toUpdate : ∀ queued ∈ (world.completers carrier).completions ++ [update],
            queued.scope = update.scope := by
          intro queued member
          rcases List.mem_append.mp member with member | member
          · exact scopes queued member
          · rw [List.mem_singleton.mp member]
        intro first firstMember second secondMember
        exact (toUpdate first firstMember).trans (toUpdate second secondMember).symm
      split at taken
      · cases taken
        refine ⟨sound.registered, sound.credits.exchange ?_ rotated ?_ together⟩
        · simp [Completer.unretired, phase, or_comm]
        · simp [Completer.unindexed, phase, or_comm]
      · cases taken
        refine ⟨sound.registered, sound.credits.exchange ?_ rotated ?_ together⟩
        · simp [Completer.unretired, phase, or_comm]
        · simp [Completer.unindexed, phase, or_comm]
    · cases taken
  · rename_i update phase
    cases taken
    refine ⟨sound.registered, sound.credits.exchange ?_ ?_ ?_ (sound.credits.together carrier)⟩
    · simp [Completer.unretired, phase]
    · simp only [Completer.unretired, phase] at distinct
      exact distinct
    · simp [Completer.unindexed, phase]
  · cases taken

theorem flush (sound : Sound world) {carrier : ι}
    (taken : world.flush carrier = some world') : Sound world' := by
  have distinct := sound.credits.distinct carrier
  unfold World.flush at taken
  dsimp only at taken
  split at taken
  · rename_i ready
    cases taken
    simp only [Completer.unretired, ready.1] at distinct
    refine ⟨sound.registered, sound.credits.exchange ?_ distinct ?_
      (sound.credits.together carrier)⟩
    · simp [Completer.unretired, ready.1]
    · simp [Completer.unindexed, ready.1]
  · cases taken

theorem extend (sound : Sound world) {carrier : ι}
    (taken : world.extend carrier = some world') : Sound world' := by
  unfold World.extend at taken
  dsimp only at taken
  split at taken
  · rename_i own phase
    split at taken
    · cases taken
    · rename_i first rest batch
      cases taken
      have unindexed : (world.completers carrier).unindexed = (first :: rest) ++
          ({ world.completers carrier with phase := .extended own } : Completer).unindexed := by
        rw [← batch]
        cases own <;> simp [Completer.unindexed, Completer.batch, phase]
      have unretired : ({ world.completers carrier with phase := .extended own } :
          Completer).unretired = (world.completers carrier).unretired := by
        cases own <;> simp [Completer.unretired, phase]
      have same : (world.completers carrier).unindexed = (world.completers carrier).unretired := by
        cases own <;> simp [Completer.unindexed, Completer.unretired, phase]
      have held : ∀ update ∈ first :: rest, update ∈ (world.completers carrier).unretired := by
        intro update member
        rw [← same, unindexed]
        exact List.mem_append_left _ member
      obtain ⟨home, homeMember, isHome, scopes⟩ := sound.credits.batch_scope batch held
      have distinct := sound.credits.distinct carrier
      rw [← same, unindexed, List.map_append, List.nodup_append] at distinct
      refine ⟨?_, ?_⟩
      · rw [← isHome]
        refine sound.registered.extend homeMember
          (distinct.1.sublist (List.filter_sublist.map _)) ?_ ?_
        · intro id added listed
          obtain ⟨update, member, rfl⟩ := List.mem_map.mp added
          exact sound.credits.free home homeMember update.id listed carrier update
            (unindexed ▸ List.mem_append_left _ (List.mem_filter.mp member).1) rfl
        · intro id added
          obtain ⟨update, member, rfl⟩ := List.mem_map.mp added
          obtain ⟨inBatch, isFailed⟩ := List.mem_filter.mp member
          obtain ⟨scope, kept, equal, recorded⟩ := sound.credits.queued carrier update
            (unindexed ▸ List.mem_append_left _ inBatch) isFailed
          obtain ⟨status, ended, -⟩ := sound.credits.held carrier update (held update inBatch)
          rw [sound.registered.scope_eq kept homeMember
            (equal.trans ((scopes update inBatch).trans isHome.symm))] at recorded
          exact ⟨recorded, status ▸ ended⟩
      · rw [← isHome]
        exact sound.credits.extend unindexed unretired same rfl
  · cases taken

theorem retire (sound : Sound world) {carrier : ι}
    (taken : world.retire carrier = some world') : Sound world' := by
  unfold World.retire at taken
  dsimp only at taken
  split at taken
  · rename_i own phase
    split at taken
    · cases taken
    · rename_i first rest batch
      cases taken
      have unretired : (world.completers carrier).unretired = (first :: rest) ++
          (⟨if own.isSome then (world.completers carrier).completions else [], .idle⟩ :
            Completer).unretired := by
        rw [← batch]
        cases own <;> simp [Completer.unretired, Completer.batch, phase]
      have unindexed : (⟨if own.isSome then (world.completers carrier).completions else [], .idle⟩ :
          Completer).unindexed = (world.completers carrier).unindexed := by
        cases own <;> simp [Completer.unindexed, phase]
      have held : ∀ update ∈ first :: rest, update ∈ (world.completers carrier).unretired := by
        intro update member
        rw [unretired]
        exact List.mem_append_left _ member
      obtain ⟨home, homeMember, isHome, scopes⟩ := sound.credits.batch_scope batch held
      have distinct := sound.credits.distinct carrier
      rw [unretired, List.map_append, List.nodup_append] at distinct
      refine ⟨?_, ?_⟩
      · rw [← isHome]
        have retired := sound.registered.retire homeMember distinct.1 ?_
        · rw [List.length_map] at retired
          exact retired
        · intro id listed
          obtain ⟨update, inBatch, rfl⟩ := List.mem_map.mp listed
          obtain ⟨status, ended, -, scope, kept, equal, isListed⟩ :=
            sound.credits.held carrier update (held update inBatch)
          rw [sound.registered.scope_eq kept homeMember
            (equal.trans ((scopes update inBatch).trans isHome.symm))] at isListed
          exact ⟨isListed, status ▸ ended⟩
      · rw [← isHome]
        refine sound.credits.retire unretired unindexed ?_
        cases own <;> simp
  · cases taken

/-- Every guarded step keeps the invariant. -/
theorem step (sound : Sound world) {choice : Choice ι} (guarded : indexed choice world = true)
    (taken : world.step choice = some world') : Sound world' := by
  cases choice with
  | beginOwned =>
      cases taken
      exact ⟨sound.registered.beginOwned, sound.credits.beginOwned⟩
  | closeScope id =>
      cases taken
      exact ⟨sound.registered.setPolicy id fun _ => ⟨rfl, rfl, rfl, rfl, rfl, rfl⟩,
        sound.credits.setScope id fun _ => ⟨rfl, rfl, rfl, rfl⟩⟩
  | abortScope id reason =>
      cases taken
      exact ⟨sound.registered.setPolicy id fun _ => ⟨rfl, rfl, rfl, rfl, rfl, rfl⟩,
        sound.credits.setScope id fun _ => ⟨rfl, rfl, rfl, rfl⟩⟩
  | stop =>
      cases taken
      obtain ⟨registered, credits⟩ := sound
      exact ⟨{ registered with }, { credits with }⟩
  | finishScope id =>
      unfold World.step at taken
      dsimp only at taken
      split at taken
      · cases taken
      · rename_i home found
        split at taken
        · rename_i drained
          cases taken
          exact ⟨sound.registered.finishScope found drained,
            sound.credits.finishScope sound.registered found drained⟩
        · cases taken
  | reserve =>
      cases taken
      exact sound.reserve guarded
  | accept id =>
      unfold World.step at taken
      dsimp only at taken
      split at taken
      · rename_i reserved
        cases taken
        exact sound.editTask id ⟨rfl, rfl⟩ (.inr ⟨reserved.2, rfl⟩)
      · cases taken
  | release id =>
      unfold World.step at taken
      dsimp only at taken
      split at taken
      · rename_i reserved
        cases taken
        exact ⟨sound.registered.releaseReservation reserved.1 reserved.2,
          sound.credits.releaseReservation
            (sound.registered.reserved id reserved.1 reserved.2)⟩
      · cases taken
  | observe id =>
      cases taken
      exact sound.editTask id ⟨rfl, rfl⟩ (.inl rfl)
  | panic id =>
      cases taken
      exact sound.editTask id ⟨rfl, rfl⟩ (.inl rfl)
  | prepare => exact sound.prepare taken
  | complete => exact sound.complete taken
  | queue => exact sound.queue taken
  | flush => exact sound.flush taken
  | extend => exact sound.extend taken
  | retire => exact sound.retire taken

end Sound

/-- While no eviction reclaims a failed task that is missing in its index, the index of every
scope is bounded. -/
theorem failed_bounded [DecidableEq ι] [Inhabited ι] {maxVthreads : Nat} {world : World ι}
    (reachable : ((completionMachine ι maxVthreads).guarded
      fun choice world => indexed choice world = true).Reachable world) :
    FailedBounded world := by
  have sound : Sound world := by
    apply reachable.induct
    · rintro _ rfl
      exact ⟨.new maxVthreads, .new maxVthreads⟩
    · rintro before after - sound ⟨choice, guarded, taken⟩
      exact sound.step guarded taken
  intro _ scope member
  obtain ⟨nodup, known⟩ := sound.registered.indexed scope member
  refine ⟨nodup, fun id listed => (known id listed).1, ?_⟩
  calc scope.failedTasks.length
      ≤ scope.records.length :=
        (nodup.subperm fun id listed => (known id listed).1).length_le
    _ ≤ (world.shared.scopes.map (·.records.length)).sum :=
        List.single_le_sum (fun _ _ => Nat.zero_le _) _ (List.mem_map_of_mem member)
    _ = world.shared.recordCount := sound.registered.counted
    _ ≤ world.shared.maxVthreads := sound.registered.bounded

/-- A task panics and is indexed and joined.  An admission at the limit reclaims it, and the
task admitted panics as well. -/
theorem failed_bounded_one : ∃ world : World Unit,
    world.shared.scopes.map (fun scope => (scope.records, scope.failedTasks)) = [([1], [1])] ∧
      FailedBounded world := by
  refine ⟨_, ?_, failed_bounded (@Machine.run_reachable _ _ (completionMachine Unit 1) indexed
    [.beginOwned, .reserve ⟨0, false, true, true, some ()⟩, .accept 0, .panic 0,
      .prepare () 0 none, .complete (), .queue () true, .extend (), .retire (), .observe 0,
      .reserve ⟨0, false, true, true, some ()⟩, .accept 1, .panic 1, .prepare () 1 none,
      .complete (), .queue () true, .extend (), .retire ()]
    _ _ (.initial rfl) rfl)⟩
  rfl

/-- A task panics, is joined and reclaimed, and only then its id reaches the index. -/
theorem failed_leaks : ∃ world : World Unit,
    (completionMachine Unit 1).system.Reachable world ∧ ¬ FailedBounded world := by
  refine ⟨_, Machine.guarded_reachable (@Machine.run_reachable _ _ (completionMachine Unit 1)
    (fun _ _ => true)
    [.beginOwned, .reserve ⟨0, false, true, true, some ()⟩, .accept 0, .panic 0,
      .prepare () 0 none, .complete (), .observe 0,
      .reserve ⟨0, false, true, true, some ()⟩, .accept 1, .queue () true, .extend (),
      .retire ()] _ _ (.initial rfl) rfl), ?_⟩
  intro bounded
  have indexed := bounded (fun _ => ⟨rfl, rfl⟩) _ List.mem_cons_self
  exact absurd (indexed.2.1 0 List.mem_cons_self) (by decide)

end VThread.Scope
