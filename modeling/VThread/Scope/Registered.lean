import VThread.Scope.Completions

/-!
# The registry in order

What holds of the scopes, their records and their counters, and that every change to them keeps
it.
-/

namespace VThread.Scope

open VThread.Lib VThread.Carrier

variable {ι : Type}

/-- What holds of the scopes and their records. -/
structure Registered (shared : Shared ι) : Prop where
  distinct : (shared.scopes.map (·.id)).Nodup
  fresh : ∀ scope ∈ shared.scopes, scope.id < shared.nextScope
  records : ∀ scope ∈ shared.scopes, scope.records.Nodup ∧
    ∀ id ∈ scope.records, id < shared.nextTask ∧ (shared.tasks id).scope = scope.id
  counted : (shared.scopes.map (·.records.length)).sum = shared.recordCount
  bounded : shared.recordCount ≤ shared.maxVthreads
  balance : ∀ scope ∈ shared.scopes, scope.admitted = scope.retired + scope.active.length
  active : ∀ scope ∈ shared.scopes, scope.active.Nodup ∧
    ∀ id ∈ scope.active, id < shared.nextTask ∧ (shared.tasks id).scope = scope.id
  live : ∀ id < shared.nextTask, (shared.tasks id).status = .active →
    (shared.tasks id).stage ≠ .released → ∃ scope ∈ shared.scopes,
      scope.id = (shared.tasks id).scope ∧ id ∈ scope.active ∧ id ∈ scope.records
  reserved : ∀ id < shared.nextTask, (shared.tasks id).stage = .reserved →
    (shared.tasks id).status = .active
  indexed : ∀ scope ∈ shared.scopes, scope.failedTasks.Nodup ∧
    ∀ id ∈ scope.failedTasks, id ∈ scope.records ∧ (shared.tasks id).status.isTerminal = true

namespace Registered

variable {shared : Shared ι}

theorem new [Inhabited ι] (maxVthreads : Nat) : Registered (.new maxVthreads : Shared ι) where
  distinct := List.nodup_nil
  fresh := by simp [Shared.new]
  records := by simp [Shared.new]
  counted := rfl
  bounded := Nat.zero_le _
  balance := by simp [Shared.new]
  active := by simp [Shared.new]
  live := by simp [Shared.new]
  reserved := by simp [Shared.new]
  indexed := by simp [Shared.new]

/-- The scope of a live task. -/
theorem scope_eq (registered : Registered shared) {first second : ScopeState}
    (firstMember : first ∈ shared.scopes) (secondMember : second ∈ shared.scopes)
    (same : first.id = second.id) : first = second :=
  eq_of_id registered.distinct firstMember secondMember same

/-- Records keep their scope and status, and none comes back to an earlier stage. -/
theorem retask (registered : Registered shared) {tasks : Nat → TaskRecord ι}
    (scope : ∀ id, (tasks id).scope = (shared.tasks id).scope)
    (status : ∀ id, (tasks id).status = (shared.tasks id).status)
    (released : ∀ id, (tasks id).stage ≠ .released → (shared.tasks id).stage ≠ .released)
    (reserved : ∀ id, (tasks id).stage = .reserved → (shared.tasks id).stage = .reserved) :
    Registered { shared with tasks } where
  distinct := registered.distinct
  fresh := registered.fresh
  records := by simpa only [scope] using registered.records
  counted := registered.counted
  bounded := registered.bounded
  balance := registered.balance
  active := by simpa only [scope] using registered.active
  live id below isActive kept := by
    rw [status] at isActive
    simpa only [scope] using registered.live id below isActive (released id kept)
  reserved id below isReserved := by
    rw [status]
    exact registered.reserved id below (reserved id isReserved)
  indexed := by simpa only [status] using registered.indexed

/-- A scope changes, but keeps its id and its records. -/
theorem setScope (registered : Registered shared) (id : Nat) {change : ScopeState → ScopeState}
    (same : ∀ scope, (change scope).id = scope.id)
    (records : ∀ scope, (change scope).records = scope.records)
    (balance : ∀ scope ∈ shared.scopes, scope.id = id →
      (change scope).admitted = (change scope).retired + (change scope).active.length)
    (active : ∀ scope ∈ shared.scopes, scope.id = id →
      (change scope).active.Nodup ∧ ∀ task ∈ (change scope).active, task ∈ scope.active)
    (live : ∀ scope ∈ shared.scopes, scope.id = id → ∀ task ∈ scope.active,
      (shared.tasks task).status = .active → task ∈ (change scope).active)
    (indexed : ∀ scope ∈ shared.scopes, scope.id = id → (change scope).failedTasks.Nodup ∧
      ∀ task ∈ (change scope).failedTasks, task ∈ scope.records ∧
        (shared.tasks task).status.isTerminal = true) :
    Registered (shared.setScope id change) where
  distinct := by
    rw [Shared.setScope, modify_ids same]
    exact registered.distinct
  fresh scope' changed := by
    rcases of_mem_modify changed with ⟨scope, member, -, rfl⟩ | ⟨member, -⟩
    · rw [same]
      exact registered.fresh scope member
    · exact registered.fresh scope' member
  records scope' changed := by
    rcases of_mem_modify changed with ⟨scope, member, -, rfl⟩ | ⟨member, -⟩
    · rw [records, same]
      exact registered.records scope member
    · exact registered.records scope' member
  counted := by
    have lengths : (modify id change shared.scopes).map (·.records.length) =
        shared.scopes.map (·.records.length) := by
      unfold modify
      rw [List.map_map]
      apply List.map_congr_left
      intro scope _
      simp only [Function.comp]
      split
      · rw [records]
      · rfl
    rw [Shared.setScope, lengths]
    exact registered.counted
  bounded := registered.bounded
  balance scope' changed := by
    rcases of_mem_modify changed with ⟨scope, member, own, rfl⟩ | ⟨member, -⟩
    · exact balance scope member own
    · exact registered.balance scope' member
  active scope' changed := by
    rcases of_mem_modify changed with ⟨scope, member, own, rfl⟩ | ⟨member, -⟩
    · obtain ⟨nodup, kept⟩ := active scope member own
      rw [same]
      exact ⟨nodup, fun task listed => (registered.active scope member).2 task (kept task listed)⟩
    · exact registered.active scope' member
  live task below isActive kept := by
    obtain ⟨scope, member, home, isListed, recorded⟩ := registered.live task below isActive kept
    obtain ⟨scope', changed, ⟨own, rfl⟩ | ⟨-, rfl⟩⟩ := @exists_mem_modify id change _ _ member
    · refine ⟨_, changed, (same scope).trans home, live scope member own task isListed isActive, ?_⟩
      rw [records]
      exact recorded
    · exact ⟨_, changed, home, isListed, recorded⟩
  reserved := registered.reserved
  indexed scope' changed := by
    rcases of_mem_modify changed with ⟨scope, member, own, rfl⟩ | ⟨member, -⟩
    · rw [records]
      exact indexed scope member own
    · exact registered.indexed scope' member

/-- A scope changes in nothing that is counted. -/
theorem setPolicy (registered : Registered shared) (id : Nat) {change : ScopeState → ScopeState}
    (same : ∀ scope, (change scope).id = scope.id ∧ (change scope).records = scope.records ∧
      (change scope).admitted = scope.admitted ∧ (change scope).retired = scope.retired ∧
      (change scope).active = scope.active ∧ (change scope).failedTasks = scope.failedTasks) :
    Registered (shared.setScope id change) := by
  refine registered.setScope id (fun scope => (same scope).1) (fun scope => (same scope).2.1)
    ?_ ?_ ?_ ?_
  · intro scope member _
    obtain ⟨-, -, admitted, retired, active, -⟩ := same scope
    rw [admitted, retired, active]
    exact registered.balance scope member
  · intro scope member _
    obtain ⟨-, -, -, -, active, -⟩ := same scope
    rw [active]
    exact ⟨(registered.active scope member).1, fun _ listed => listed⟩
  · intro scope member _ task listed _
    obtain ⟨-, -, -, -, active, -⟩ := same scope
    rw [active]
    exact listed
  · intro scope member _
    obtain ⟨-, -, -, -, -, failedTasks⟩ := same scope
    rw [failedTasks]
    exact registered.indexed scope member

/-- A scope begins. -/
theorem beginOwned (registered : Registered shared) : Registered shared.beginOwned where
  distinct := by
    rw [Shared.beginOwned, List.map_append, List.nodup_append]
    refine ⟨registered.distinct, by simp, ?_⟩
    intro id member other found
    obtain ⟨scope, kept, rfl⟩ := List.mem_map.mp member
    rw [List.mem_singleton.mp found]
    exact (registered.fresh scope kept).ne
  fresh scope member := by
    rcases List.mem_append.mp member with kept | new
    · exact Nat.lt_succ_of_lt (registered.fresh scope kept)
    · rw [List.mem_singleton.mp new]
      exact Nat.lt_succ_self _
  records scope member := by
    rcases List.mem_append.mp member with kept | new
    · exact registered.records scope kept
    · rw [List.mem_singleton.mp new]
      simp [ScopeState.new]
  counted := by
    simp only [Shared.beginOwned, List.map_append, List.sum_append, ScopeState.new,
      List.map_cons, List.map_nil, List.sum_cons, List.sum_nil, List.length_nil, Nat.add_zero]
    exact registered.counted
  bounded := registered.bounded
  balance scope member := by
    rcases List.mem_append.mp member with kept | new
    · exact registered.balance scope kept
    · rw [List.mem_singleton.mp new]
      rfl
  active scope member := by
    rcases List.mem_append.mp member with kept | new
    · exact registered.active scope kept
    · rw [List.mem_singleton.mp new]
      simp [ScopeState.new]
  live task below isActive kept := by
    obtain ⟨scope, member, found⟩ := registered.live task below isActive kept
    exact ⟨scope, List.mem_append_left _ member, found⟩
  reserved := registered.reserved
  indexed scope member := by
    rcases List.mem_append.mp member with kept | new
    · exact registered.indexed scope kept
    · rw [List.mem_singleton.mp new]
      simp [ScopeState.new]

/-- A scope without active tasks ends. -/
theorem finishScope (registered : Registered shared) {id : Nat} {scope : ScopeState}
    (found : shared.find id = some scope) (drained : scope.admitted = scope.retired) :
    Registered (shared.finishScope id) := by
  obtain ⟨member, own⟩ := Shared.find_mem found
  have idle : scope.active = [] := by
    have balance := registered.balance scope member
    exact List.length_eq_zero_iff.mp (by omega)
  have kept : ∀ other ∈ (shared.finishScope id).scopes, other ∈ shared.scopes :=
    fun other others => (List.mem_filter.mp others).1
  refine ⟨registered.distinct.sublist (List.filter_sublist.map _),
    fun other others => registered.fresh other (kept other others),
    fun other others => registered.records other (kept other others), ?_, ?_,
    fun other others => registered.balance other (kept other others),
    fun other others => registered.active other (kept other others), ?_, registered.reserved,
    fun other others => registered.indexed other (kept other others)⟩
  · have sum := @filter_sum _ (·.records.length) _ registered.distinct member
    have counted := registered.counted
    rw [own] at sum
    simp only [Shared.finishScope, found, Option.map_some, Option.getD_some]
    omega
  · exact (Nat.sub_le _ _).trans registered.bounded
  · intro task below isActive isKept
    obtain ⟨other, others, same, isListed, recorded⟩ := registered.live task below isActive isKept
    refine ⟨other, List.mem_filter.mpr ⟨others, decide_eq_true fun equal => ?_⟩, same, isListed,
      recorded⟩
    rw [registered.scope_eq others member (equal.trans own.symm), idle] at isListed
    cases isListed

/-- An eviction keeps the registry in order. -/
theorem evict (registered : Registered shared) : Registered shared.evict := by
  unfold Shared.evict
  split
  · have evicts := evictScopes_evicts shared.reclaimable shared.scopes []
    have count := evictScopes_count shared.reclaimable shared.scopes []
    have counted := registered.counted
    have before := fun (scope' : ScopeState) member =>
      @forall₂_mem_right _ _ _ _ _ evicts scope' member
    refine ⟨?_, ?_, ?_, ?_, (Nat.sub_le _ _).trans registered.bounded, ?_, ?_, ?_,
      registered.reserved, ?_⟩
    · rw [Evicts.ids evicts]
      exact registered.distinct
    · intro scope' member
      obtain ⟨scope, kept, evicted⟩ := before scope' member
      rw [evicted.id_eq]
      exact registered.fresh scope kept
    · intro scope' member
      obtain ⟨scope, kept, evicted⟩ := before scope' member
      obtain ⟨nodup, known⟩ := registered.records scope kept
      rw [evicted.records, evicted.id_eq]
      exact ⟨nodup.filter _, fun id listed => known id (List.mem_filter.mp listed).1⟩
    · dsimp only
      rw [List.length_nil] at count
      omega
    · intro scope' member
      obtain ⟨scope, kept, evicted⟩ := before scope' member
      rw [evicted.admitted, evicted.retired, evicted.active]
      exact registered.balance scope kept
    · intro scope' member
      obtain ⟨scope, kept, evicted⟩ := before scope' member
      rw [evicted.active, evicted.id_eq]
      exact registered.active scope kept
    · intro task below isActive isKept
      obtain ⟨scope, member, own, isListed, recorded⟩ :=
        registered.live task below isActive isKept
      obtain ⟨scope', member', evicted⟩ := forall₂_mem evicts member
      refine ⟨scope', member', evicted.id_eq.trans own, evicted.active ▸ isListed, ?_⟩
      rw [evicted.records]
      have isLive : (shared.tasks task).status.isTerminal = false := by
        rw [isActive]
        rfl
      exact List.mem_filter.mpr ⟨recorded, by simp [Shared.reclaimable, isLive]⟩
    · intro scope' member
      obtain ⟨scope, kept, evicted⟩ := before scope' member
      obtain ⟨nodup, known⟩ := registered.indexed scope kept
      obtain ⟨reclaimed, failedTasks, covers⟩ := evicted.failedTasks
      rw [failedTasks, evicted.records]
      refine ⟨nodup.filter _, fun id listed => ?_⟩
      obtain ⟨listed, retained⟩ := List.mem_filter.mp listed
      obtain ⟨recorded, terminal⟩ := known id listed
      refine ⟨List.mem_filter.mpr ⟨recorded, ?_⟩, terminal⟩
      cases removed : shared.reclaimable id with
      | false => rfl
      | true => exact absurd (covers id recorded removed) (by simpa using retained)
  · exact registered

/-- A live record becomes terminal. -/
theorem finish (registered : Registered shared) {id : Nat} (failure : Option TaskFailure)
    (accepted : (shared.tasks id).stage = .accepted) :
    Registered (shared.setTask id ((shared.tasks id).finish failure)) := by
  have others : ∀ other ≠ id, (shared.setTask id ((shared.tasks id).finish failure)).tasks other =
      shared.tasks other := fun other differs => Function.update_of_ne differs _ _
  have finished : (shared.setTask id ((shared.tasks id).finish failure)).tasks id =
      (shared.tasks id).finish failure := Function.update_self _ _ _
  have terminal : ((shared.tasks id).finish failure).status.isTerminal = true := by
    unfold TaskRecord.finish
    dsimp only
    split
    · rfl
    · split <;> rfl
  have scope : ∀ other, ((shared.setTask id ((shared.tasks id).finish failure)).tasks other).scope =
      (shared.tasks other).scope := by
    intro other
    by_cases equal : other = id
    · rw [equal, finished]
      rfl
    · rw [others other equal]
  refine ⟨registered.distinct, registered.fresh, ?_, registered.counted, registered.bounded,
    registered.balance, ?_, ?_, ?_, ?_⟩
  · simp only [scope]
    exact registered.records
  · simp only [scope]
    exact registered.active
  · intro task below isActive isKept
    by_cases equal : task = id
    · rw [equal, finished] at isActive
      rw [isActive] at terminal
      cases terminal
    · rw [others task equal] at isActive isKept ⊢
      exact registered.live task below isActive isKept
  · intro task below isReserved
    by_cases equal : task = id
    · rw [equal, finished] at isReserved
      have stage : ((shared.tasks id).finish failure).stage = (shared.tasks id).stage := rfl
      rw [stage, accepted] at isReserved
      cases isReserved
    · rw [others task equal] at isReserved ⊢
      exact registered.reserved task below isReserved
  · intro other member
    obtain ⟨nodup, known⟩ := registered.indexed other member
    refine ⟨nodup, fun task listed => ⟨(known task listed).1, ?_⟩⟩
    by_cases equal : task = id
    · rw [equal, finished]
      exact terminal
    · rw [others task equal]
      exact (known task listed).2

/-- The index of a scope is extended by new ids of its terminal records. -/
theorem extend (registered : Registered shared) {home : ScopeState} {ids : List Nat}
    (member : home ∈ shared.scopes) (nodup : ids.Nodup)
    (new : ∀ id ∈ ids, id ∉ home.failedTasks)
    (known : ∀ id ∈ ids, id ∈ home.records ∧ (shared.tasks id).status.isTerminal = true) :
    Registered (shared.setScope home.id fun scope => { scope with
      failedTasks := scope.failedTasks ++ ids }) := by
  refine registered.setScope home.id (fun _ => rfl) (fun _ => rfl)
    (fun scope member _ => registered.balance scope member)
    (fun scope member _ => ⟨(registered.active scope member).1, fun _ => id⟩)
    (fun _ _ _ _ listed _ => listed) ?_
  intro scope member' own
  rw [registered.scope_eq member' member own]
  obtain ⟨old, oldKnown⟩ := registered.indexed home member
  refine ⟨List.nodup_append.mpr ⟨old, nodup, ?_⟩, ?_⟩
  · rintro id listed other added rfl
    exact new id added listed
  · intro id listed
    exact (List.mem_append.mp listed).elim (oldKnown id) (known id)

/-- Terminal tasks of a scope are retired. -/
theorem retire (registered : Registered shared) {home : ScopeState} {ids : List Nat}
    (member : home ∈ shared.scopes) (nodup : ids.Nodup)
    (known : ∀ id ∈ ids, id ∈ home.active ∧ (shared.tasks id).status.isTerminal = true) :
    Registered (shared.setScope home.id fun scope => { scope with
      retired := scope.retired + ids.length
      active := scope.active.filter (· ∉ ids) }) := by
  refine registered.setScope home.id (fun _ => rfl) (fun _ => rfl) ?_ ?_ ?_
    fun scope member _ => registered.indexed scope member
  · intro scope member' own
    rw [registered.scope_eq member' member own]
    have balance := registered.balance home member
    -- The retired ids are the part of the active ones that is filtered out.
    have parts := @List.length_eq_length_filter_add _ home.active fun id => decide (id ∈ ids)
    have retired : (home.active.filter fun id => decide (id ∈ ids)).length = ids.length := by
      apply List.Perm.length_eq
      rw [List.perm_ext_iff_of_nodup ((registered.active home member).1.filter _) nodup]
      intro id
      rw [List.mem_filter, decide_eq_true_eq]
      exact ⟨And.right, fun listed => ⟨(known id listed).1, listed⟩⟩
    have rest : (home.active.filter fun id => !decide (id ∈ ids)) =
        home.active.filter fun id => decide (id ∉ ids) := by
      simp only [decide_not]
    rw [rest] at parts
    dsimp only
    omega
  · intro scope member' _
    exact ⟨(registered.active scope member').1.filter _,
      fun _ listed => (List.mem_filter.mp listed).1⟩
  · intro scope _ _ task listed isActive
    refine List.mem_filter.mpr ⟨listed, decide_eq_true fun retired => ?_⟩
    have terminal := (known task retired).2
    rw [isActive] at terminal
    cases terminal

variable [DecidableEq ι]

/-- A task is admitted below the limit. -/
theorem admitTask (registered : Registered shared) {scope : ScopeState}
    (member : scope ∈ shared.scopes) (room : shared.recordCount < shared.maxVthreads) (owner : ι) :
    Registered (shared.admitTask scope.id owner) := by
  have older : ∀ id < shared.nextTask,
      (shared.admitTask scope.id owner).tasks id = shared.tasks id :=
    fun id below => Function.update_of_ne below.ne _ _
  have newest : (shared.admitTask scope.id owner).tasks shared.nextTask =
      ⟨scope.id, owner, .active, none, false, false, false, .reserved⟩ := Function.update_self _ _ _
  refine ⟨?_, ?_, ?_, ?_, Nat.succ_le_of_lt room, ?_, ?_, ?_, ?_, ?_⟩
  · have ids : (shared.admitTask scope.id owner).scopes.map (·.id) = shared.scopes.map (·.id) :=
      modify_ids fun _ => rfl
    rw [ids]
    exact registered.distinct
  · intro scope' changed
    rcases of_mem_modify changed with ⟨scope, member, -, rfl⟩ | ⟨member, -⟩
    · exact registered.fresh scope member
    · exact registered.fresh scope' member
  · intro scope' changed
    rcases of_mem_modify changed with ⟨scope, member, own, rfl⟩ | ⟨member, -⟩
    · obtain ⟨nodup, known⟩ := registered.records scope member
      constructor
      · refine List.nodup_append.mpr ⟨nodup, List.nodup_singleton _, ?_⟩
        intro id listed other new
        rw [List.mem_singleton.mp new]
        exact (known id listed).1.ne
      · intro id listed
        rcases List.mem_append.mp listed with listed | new
        · rw [older id (known id listed).1]
          exact ⟨Nat.lt_succ_of_lt (known id listed).1, (known id listed).2⟩
        · rw [List.mem_singleton.mp new, newest]
          exact ⟨Nat.lt_succ_self _, own.symm⟩
    · obtain ⟨nodup, known⟩ := registered.records scope' member
      refine ⟨nodup, fun id listed => ?_⟩
      rw [older id (known id listed).1]
      exact ⟨Nat.lt_succ_of_lt (known id listed).1, (known id listed).2⟩
  · have counted := registered.counted
    have sum := @modify_sum scope.id (fun state => { state with
      records := state.records ++ [shared.nextTask]
      admitted := state.admitted + 1
      active := state.active ++ [shared.nextTask] }) _ (·.records.length) _
      registered.distinct member rfl
    simp only [List.length_append, List.length_singleton] at sum
    simp only [Shared.admitTask]
    omega
  · intro scope' changed
    rcases of_mem_modify changed with ⟨scope, member, -, rfl⟩ | ⟨member, -⟩
    · have balance := registered.balance scope member
      simp only [List.length_append, List.length_singleton]
      omega
    · exact registered.balance scope' member
  · intro scope' changed
    rcases of_mem_modify changed with ⟨scope, member, own, rfl⟩ | ⟨member, -⟩
    · obtain ⟨nodup, known⟩ := registered.active scope member
      constructor
      · refine List.nodup_append.mpr ⟨nodup, List.nodup_singleton _, ?_⟩
        intro id listed other new
        rw [List.mem_singleton.mp new]
        exact (known id listed).1.ne
      · intro id listed
        rcases List.mem_append.mp listed with listed | new
        · rw [older id (known id listed).1]
          exact ⟨Nat.lt_succ_of_lt (known id listed).1, (known id listed).2⟩
        · rw [List.mem_singleton.mp new, newest]
          exact ⟨Nat.lt_succ_self _, own.symm⟩
    · obtain ⟨nodup, known⟩ := registered.active scope' member
      refine ⟨nodup, fun id listed => ?_⟩
      rw [older id (known id listed).1]
      exact ⟨Nat.lt_succ_of_lt (known id listed).1, (known id listed).2⟩
  · intro task below isActive isKept
    rcases Nat.lt_succ_iff_lt_or_eq.mp below with below | rfl
    · rw [older task below] at isActive isKept ⊢
      obtain ⟨other, others, same, isListed, recorded⟩ :=
        registered.live task below isActive isKept
      obtain ⟨other', changed, ⟨-, rfl⟩ | ⟨-, rfl⟩⟩ := @exists_mem_modify scope.id _ _ _ others
      · exact ⟨_, changed, same, List.mem_append_left _ isListed, List.mem_append_left _ recorded⟩
      · exact ⟨_, changed, same, isListed, recorded⟩
    · rw [newest]
      exact ⟨_, change_mem_modify member rfl, rfl,
        List.mem_append_right _ (List.mem_singleton_self _),
        List.mem_append_right _ (List.mem_singleton_self _)⟩
  · intro task below isReserved
    rcases Nat.lt_succ_iff_lt_or_eq.mp below with below | rfl
    · rw [older task below] at isReserved ⊢
      exact registered.reserved task below isReserved
    · rw [newest]
  · intro scope' changed
    have terminal : ∀ other ∈ shared.scopes, ∀ id ∈ other.failedTasks, id ∈ other.records ∧
        ((shared.admitTask scope.id owner).tasks id).status.isTerminal = true := by
      intro other others id listed
      obtain ⟨recorded, terminal⟩ := (registered.indexed other others).2 id listed
      refine ⟨recorded, ?_⟩
      rw [older id ((registered.records other others).2 id recorded).1]
      exact terminal
    rcases of_mem_modify changed with ⟨scope, member, -, rfl⟩ | ⟨member, -⟩
    · refine ⟨(registered.indexed scope member).1, fun id listed => ?_⟩
      exact ⟨List.mem_append_left _ (terminal scope member id listed).1,
        (terminal scope member id listed).2⟩
    · exact ⟨(registered.indexed scope' member).1, terminal scope' member⟩

/-- A reserved task is taken back. -/
theorem releaseReservation (registered : Registered shared) {id : Nat}
    (below : id < shared.nextTask)
    (isReserved : (shared.tasks id).stage = .reserved) :
    Registered (shared.releaseReservation id) := by
  have isActive := registered.reserved id below isReserved
  obtain ⟨home, homeMember, own, isListed, recorded⟩ := registered.live id below isActive
    (by rw [isReserved]; decide)
  have others : ∀ other ≠ id, (shared.releaseReservation id).tasks other = shared.tasks other :=
    fun other differs => Function.update_of_ne differs _ _
  have released : (shared.releaseReservation id).tasks id =
      { shared.tasks id with stage := .released } := Function.update_self _ _ _
  have same : ∀ other, ((shared.releaseReservation id).tasks other).scope =
        (shared.tasks other).scope ∧
      ((shared.releaseReservation id).tasks other).status = (shared.tasks other).status := by
    intro other
    by_cases equal : other = id
    · rw [equal, released]
      exact ⟨rfl, rfl⟩
    · rw [others other equal]
      exact ⟨rfl, rfl⟩
  have ids : (shared.releaseReservation id).scopes.map (·.id) = shared.scopes.map (·.id) :=
    modify_ids fun _ => rfl
  refine ⟨?_, ?_, ?_, ?_, (Nat.sub_le _ _).trans registered.bounded, ?_, ?_, ?_, ?_, ?_⟩
  · rw [ids]
    exact registered.distinct
  · intro scope' changed
    rcases of_mem_modify changed with ⟨scope, member, -, rfl⟩ | ⟨member, -⟩
    · exact registered.fresh scope member
    · exact registered.fresh scope' member
  · intro scope' changed
    rcases of_mem_modify changed with ⟨scope, member, -, rfl⟩ | ⟨member, -⟩
    · obtain ⟨nodup, known⟩ := registered.records scope member
      refine ⟨nodup.erase _, fun other listed => ?_⟩
      rw [(same other).1]
      exact known other (List.mem_of_mem_erase listed)
    · obtain ⟨nodup, known⟩ := registered.records scope' member
      refine ⟨nodup, fun other listed => ?_⟩
      rw [(same other).1]
      exact known other listed
  · have counted := registered.counted
    have sum := @modify_sum (shared.tasks id).scope (fun state => { state with
      records := state.records.erase id
      admitted := state.admitted - 1
      active := state.active.erase id }) _ (·.records.length) _
      registered.distinct homeMember own
    have positive := List.length_pos_of_mem recorded
    simp only [List.length_erase_of_mem recorded] at sum
    simp only [Shared.releaseReservation]
    omega
  · intro scope' changed
    rcases of_mem_modify changed with ⟨scope, member, equal, rfl⟩ | ⟨member, -⟩
    · rw [registered.scope_eq member homeMember (equal.trans own.symm)]
      have balance := registered.balance home homeMember
      have positive := List.length_pos_of_mem isListed
      simp only [List.length_erase_of_mem isListed]
      omega
    · exact registered.balance scope' member
  · intro scope' changed
    rcases of_mem_modify changed with ⟨scope, member, -, rfl⟩ | ⟨member, -⟩
    · obtain ⟨nodup, known⟩ := registered.active scope member
      refine ⟨nodup.erase _, fun other listed => ?_⟩
      rw [(same other).1]
      exact known other (List.mem_of_mem_erase listed)
    · obtain ⟨nodup, known⟩ := registered.active scope' member
      refine ⟨nodup, fun other listed => ?_⟩
      rw [(same other).1]
      exact known other listed
  · intro task taskBelow taskActive taskKept
    have differs : task ≠ id := by
      rintro rfl
      rw [released] at taskKept
      exact taskKept rfl
    rw [others task differs] at taskActive taskKept ⊢
    obtain ⟨scope, member, home', isListed', recorded'⟩ :=
      registered.live task taskBelow taskActive taskKept
    obtain ⟨_, changed, ⟨-, rfl⟩ | ⟨-, rfl⟩⟩ :=
      @exists_mem_modify (shared.tasks id).scope _ _ _ member
    · exact ⟨_, changed, home', (List.mem_erase_of_ne differs).mpr isListed',
        (List.mem_erase_of_ne differs).mpr recorded'⟩
    · exact ⟨_, changed, home', isListed', recorded'⟩
  · intro task taskBelow taskReserved
    rw [(same task).2]
    refine registered.reserved task taskBelow ?_
    by_cases equal : task = id
    · rw [equal]
      exact isReserved
    · rwa [others task equal] at taskReserved
  · intro scope' changed
    rcases of_mem_modify changed with ⟨scope, member, -, rfl⟩ | ⟨member, -⟩
    · obtain ⟨nodup, known⟩ := registered.indexed scope member
      refine ⟨nodup, fun other listed => ?_⟩
      obtain ⟨recorded', terminal⟩ := known other listed
      rw [(same other).2]
      refine ⟨(List.mem_erase_of_ne ?_).mpr recorded', terminal⟩
      rintro rfl
      rw [isActive] at terminal
      cases terminal
    · obtain ⟨nodup, known⟩ := registered.indexed scope' member
      refine ⟨nodup, fun other listed => ?_⟩
      rw [(same other).2]
      exact known other listed

end Registered

end VThread.Scope
