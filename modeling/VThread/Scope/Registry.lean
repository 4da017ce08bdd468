import Mathlib.Algebra.BigOperators.Group.List.Basic
import Mathlib.Logic.Function.Basic
import VThread.Carrier.Inbox

/-!
# The scopes of a runtime

The state behind the lock of the control block: every scope with the records of its tasks, and
the functions that admit a task, take an admission back and end a scope.
-/

namespace VThread.Scope

open VThread.Carrier (TaskFailure)

variable {ι : Type}

/-- The statuses that are not terminal are one. -/
inductive TaskStatus where
  | active
  | completed
  | panicked
  | aborted
  deriving DecidableEq, Repr

def TaskStatus.isTerminal : TaskStatus → Bool
  | .active => false
  | _ => true

/-- A task ended without a result. -/
def TaskStatus.failed : TaskStatus → Bool
  | .panicked => true
  | .aborted => true
  | _ => false

/-- Whether a task is still being admitted, can be found by its carrier, or was taken back. -/
inductive Stage where
  | reserved
  | accepted
  | released
  deriving DecidableEq, Repr

/-- A `TaskRecord`, with its completion. -/
structure TaskRecord (ι : Type) where
  scope : Nat
  carrier : ι
  status : TaskStatus
  failure : Option TaskFailure
  panic : Bool
  outcomeObserved : Bool
  done : Bool
  stage : Stage
  deriving DecidableEq

/-- A `ScopeState`, with its progress and the tasks between their admission and their
retirement. -/
structure ScopeState where
  id : Nat
  admitting : Bool
  admitted : Nat
  retired : Nat
  failedTasks : List Nat
  records : List Nat
  aborting : Option TaskFailure
  active : List Nat
  deriving DecidableEq

def ScopeState.new (id : Nat) : ScopeState := ⟨id, true, 0, 0, [], [], none, []⟩

/-- What is behind the lock, with the cells that it refers to. -/
structure Shared (ι : Type) where
  maxVthreads : Nat
  accepting : Bool
  nextScope : Nat
  nextTask : Nat
  scopes : List ScopeState
  loads : ι → Nat
  recordCount : Nat
  tasks : Nat → TaskRecord ι

/-- What an admission asks for: the carrier of a parent on it, or one chosen by load. -/
structure Request (ι : Type) where
  scope : Nat
  borrowed : Bool
  /-- The name of the task is valid. -/
  named : Bool
  /-- The options of the task pass their check. -/
  permitted : Bool
  /-- The carrier that takes the task, if any does. -/
  owner : Option ι
  deriving DecidableEq

inductive AdmissionError where
  | taskName
  | scopeClosed
  | runtimeStopped
  | policy
  | tasks
  | carrierQueue
  | taskIds
  deriving DecidableEq, Repr

/-- Change one scope. -/
def modify (id : Nat) (change : ScopeState → ScopeState) (scopes : List ScopeState) :
    List ScopeState :=
  scopes.map fun scope => if scope.id = id then change scope else scope

/-- Take the records of observed terminal tasks out of every scope, and their ids out of the
index of failed tasks. -/
def evictScopes (remove : Nat → Bool) : List Nat → List ScopeState → List Nat × List ScopeState
  | reclaimed, [] => (reclaimed, [])
  | reclaimed, scope :: rest =>
      let reclaimed := reclaimed ++ scope.records.filter remove
      let evicted := evictScopes remove reclaimed rest
      (evicted.1, { scope with
        records := scope.records.filter (!remove ·)
        failedTasks := scope.failedTasks.filter (· ∉ reclaimed) } :: evicted.2)

namespace Shared

/-- The runtime before its first scope. -/
def new [Inhabited ι] (maxVthreads : Nat) : Shared ι where
  maxVthreads
  accepting := true
  nextScope := 0
  nextTask := 0
  scopes := []
  loads _ := 0
  recordCount := 0
  tasks _ := ⟨0, default, .active, none, false, false, false, .released⟩

def find (shared : Shared ι) (id : Nat) : Option ScopeState := shared.scopes.find? (·.id = id)

def setTask (shared : Shared ι) (id : Nat) (record : TaskRecord ι) : Shared ι :=
  { shared with tasks := Function.update shared.tasks id record }

def editTask (shared : Shared ι) (id : Nat) (change : TaskRecord ι → TaskRecord ι) : Shared ι :=
  shared.setTask id (change (shared.tasks id))

def setScope (shared : Shared ι) (id : Nat) (change : ScopeState → ScopeState) : Shared ι :=
  { shared with scopes := modify id change shared.scopes }

/-- `begin_owned`, for a scope that is not refused. -/
def beginOwned (shared : Shared ι) : Shared ι :=
  { shared with
    nextScope := shared.nextScope + 1
    scopes := shared.scopes ++ [.new shared.nextScope] }

/-- `finish_scope`. -/
def finishScope (shared : Shared ι) (id : Nat) : Shared ι :=
  { shared with
    scopes := shared.scopes.filter (·.id ≠ id)
    recordCount :=
      shared.recordCount - ((shared.find id).map (·.records.length)).getD 0 }

/-- The record of a task can be reclaimed. -/
def reclaimable (shared : Shared ι) (id : Nat) : Bool :=
  (shared.tasks id).status.isTerminal && (shared.tasks id).outcomeObserved

/-- The eviction of `reserve_with`. -/
def evict (shared : Shared ι) : Shared ι :=
  if shared.maxVthreads ≤ shared.recordCount then
    let evicted := evictScopes shared.reclaimable [] shared.scopes
    { shared with
      scopes := evicted.2
      recordCount := shared.recordCount - evicted.1.length }
  else shared

/-- The checks of `reserve_with` before the eviction. -/
def admissible (shared : Shared ι) (request : Request ι) : Except AdmissionError Unit :=
  if request.named = false then .error .taskName
  else match shared.find request.scope with
    | none => .error .scopeClosed
    | some scope =>
        if request.borrowed = false ∧ scope.admitting = false then .error .scopeClosed
        else if shared.accepting = false ∨ scope.aborting.isSome = true then .error .runtimeStopped
        else if request.permitted = false then .error .policy
        else .ok ()

variable [DecidableEq ι]

/-- The end of `reserve_with`: the next task is admitted. -/
def admitTask (shared : Shared ι) (scope : Nat) (owner : ι) : Shared ι :=
  { shared with
    nextTask := shared.nextTask + 1
    recordCount := shared.recordCount + 1
    loads := Function.update shared.loads owner (shared.loads owner + 1)
    scopes := modify scope (fun state => { state with
      records := state.records ++ [shared.nextTask]
      admitted := state.admitted + 1
      active := state.active ++ [shared.nextTask] }) shared.scopes
    tasks := Function.update shared.tasks shared.nextTask
      ⟨scope, owner, .active, none, false, false, false, .reserved⟩ }

/-- `reserve_with`.  What it has evicted stays evicted when it fails. -/
def reserve (shared : Shared ι) (request : Request ι) : Shared ι × Except AdmissionError Nat :=
  match shared.admissible request with
  | .error error => (shared, .error error)
  | .ok _ =>
      let shared := shared.evict
      if shared.maxVthreads ≤ shared.recordCount then (shared, .error .tasks)
      else match request.owner with
        | none =>
            (shared, .error (if request.borrowed then .runtimeStopped else .carrierQueue))
        | some owner =>
            -- `checked_add`
            if 2 ^ 64 ≤ shared.nextTask + 1 then (shared, .error .taskIds)
            else (shared.admitTask request.scope owner, .ok shared.nextTask)

/-- `release_reservation`. -/
def releaseReservation (shared : Shared ι) (id : Nat) : Shared ι :=
  let record := shared.tasks id
  { shared with
    recordCount := shared.recordCount - 1
    loads := Function.update shared.loads record.carrier (shared.loads record.carrier - 1)
    scopes := modify record.scope (fun state => { state with
      records := state.records.erase id
      admitted := state.admitted - 1
      active := state.active.erase id }) shared.scopes
    tasks := Function.update shared.tasks id { record with stage := .released } }

end Shared

/-! ## Changing a scope -/

section Modify

variable {id : Nat} {change : ScopeState → ScopeState} {scopes : List ScopeState}

/-- A scope of the result was changed or is as it was. -/
theorem of_mem_modify {scope' : ScopeState} (member : scope' ∈ modify id change scopes) :
    (∃ scope ∈ scopes, scope.id = id ∧ change scope = scope') ∨
      (scope' ∈ scopes ∧ scope'.id ≠ id) := by
  obtain ⟨scope, kept, rfl⟩ := List.mem_map.mp member
  by_cases own : scope.id = id
  · rw [if_pos own]
    exact .inl ⟨scope, kept, own, rfl⟩
  · rw [if_neg own]
    exact .inr ⟨kept, own⟩

theorem change_mem_modify {scope : ScopeState} (member : scope ∈ scopes) (own : scope.id = id) :
    change scope ∈ modify id change scopes :=
  List.mem_map.mpr ⟨scope, member, if_pos own⟩

theorem mem_modify_of_ne {scope : ScopeState} (member : scope ∈ scopes) (other : scope.id ≠ id) :
    scope ∈ modify id change scopes :=
  List.mem_map.mpr ⟨scope, member, if_neg other⟩

/-- Every scope has its successor. -/
theorem exists_mem_modify {scope : ScopeState} (member : scope ∈ scopes) :
    ∃ scope' ∈ modify id change scopes,
      (scope.id = id ∧ scope' = change scope) ∨ (scope.id ≠ id ∧ scope' = scope) := by
  by_cases own : scope.id = id
  · exact ⟨_, change_mem_modify member own, .inl ⟨own, rfl⟩⟩
  · exact ⟨_, mem_modify_of_ne member own, .inr ⟨own, rfl⟩⟩

/-- A change keeps the ids of the scopes. -/
theorem modify_ids (same : ∀ scope, (change scope).id = scope.id) :
    (modify id change scopes).map (·.id) = scopes.map (·.id) := by
  unfold modify
  rw [List.map_map]
  apply List.map_congr_left
  intro scope _
  simp only [Function.comp]
  split
  · exact same scope
  · rfl

/-- Two scopes of one id are one. -/
theorem eq_of_id {first second : ScopeState} (distinct : (scopes.map (·.id)).Nodup)
    (firstMember : first ∈ scopes) (secondMember : second ∈ scopes) (same : first.id = second.id) :
    first = second :=
  List.inj_on_of_nodup_map distinct firstMember secondMember same

/-- Where no scope has the id, nothing changes. -/
theorem modify_of_ne (differs : ∀ scope ∈ scopes, scope.id ≠ id) :
    modify id change scopes = scopes := by
  unfold modify
  conv_rhs => rw [← List.map_id scopes]
  apply List.map_congr_left
  intro scope member
  rw [if_neg (differs scope member), id_eq]

/-- What a measure gains in the changed scope, it gains over all scopes. -/
theorem modify_sum {measure : ScopeState → Nat} {scope : ScopeState}
    (distinct : (scopes.map (·.id)).Nodup) (member : scope ∈ scopes) (own : scope.id = id) :
    ((modify id change scopes).map measure).sum + measure scope =
      (scopes.map measure).sum + measure (change scope) := by
  induction scopes with
  | nil => cases member
  | cons head rest ih =>
      rw [List.map_cons, List.nodup_cons] at distinct
      have step : modify id change (head :: rest) =
        (if head.id = id then change head else head) :: modify id change rest := rfl
      rcases List.mem_cons.mp member with rfl | member
      · have others : ∀ other ∈ rest, other.id ≠ id := by
          rintro other otherMember same
          exact distinct.1 (List.mem_map.mpr ⟨other, otherMember, same.trans own.symm⟩)
        rw [step, if_pos own, modify_of_ne others]
        simp only [List.map_cons, List.sum_cons]
        omega
      · have differs : head.id ≠ id := by
          rintro same
          exact distinct.1 (List.mem_map.mpr ⟨scope, member, own.trans same.symm⟩)
        have found := ih distinct.2 member
        rw [step, if_neg differs]
        simp only [List.map_cons, List.sum_cons]
        omega

/-- What a measure loses with a scope, it loses over all scopes. -/
theorem filter_sum {measure : ScopeState → Nat} {scope : ScopeState}
    (distinct : (scopes.map (·.id)).Nodup) (member : scope ∈ scopes) :
    ((scopes.filter (·.id ≠ scope.id)).map measure).sum + measure scope =
      (scopes.map measure).sum := by
  induction scopes with
  | nil => cases member
  | cons head rest ih =>
      rw [List.map_cons, List.nodup_cons] at distinct
      rcases List.mem_cons.mp member with rfl | member
      · have others : ∀ other ∈ rest, decide (other.id ≠ scope.id) = true := by
          intro other otherMember
          refine decide_eq_true fun same => distinct.1 (List.mem_map.mpr ⟨other, otherMember, same⟩)
        rw [List.filter_cons_of_neg (by simp), List.filter_eq_self.mpr others, List.map_cons,
          List.sum_cons]
        exact Nat.add_comm _ _
      · have differs : head.id ≠ scope.id := by
          rintro same
          exact distinct.1 (List.mem_map.mpr ⟨scope, member, same.symm⟩)
        have found := ih distinct.2 member
        rw [List.filter_cons_of_pos (by simpa using differs)]
        simp only [List.map_cons, List.sum_cons]
        omega

end Modify

/-! ## Eviction -/

/-- What an eviction does to one scope. -/
structure Evicts (remove : Nat → Bool) (scope scope' : ScopeState) : Prop where
  id_eq : scope'.id = scope.id
  admitted : scope'.admitted = scope.admitted
  retired : scope'.retired = scope.retired
  active : scope'.active = scope.active
  records : scope'.records = scope.records.filter (!remove ·)
  /-- The index loses the reclaimed ids of the scope, and maybe those of others. -/
  failedTasks : ∃ reclaimed : List Nat,
    scope'.failedTasks = scope.failedTasks.filter (· ∉ reclaimed) ∧
    ∀ id ∈ scope.records, remove id = true → id ∈ reclaimed

theorem evictScopes_evicts (remove : Nat → Bool) (scopes : List ScopeState) (reclaimed : List Nat) :
    List.Forall₂ (Evicts remove) scopes (evictScopes remove reclaimed scopes).2 := by
  induction scopes generalizing reclaimed with
  | nil => exact .nil
  | cons scope rest ih =>
      refine .cons
        ⟨rfl, rfl, rfl, rfl, rfl, reclaimed ++ scope.records.filter remove, rfl, ?_⟩ (ih _)
      intro id member removed
      exact List.mem_append_right _ (List.mem_filter.mpr ⟨member, removed⟩)

/-- The eviction counts what it takes. -/
theorem evictScopes_count (remove : Nat → Bool) (scopes : List ScopeState) (reclaimed : List Nat) :
    (evictScopes remove reclaimed scopes).1.length +
        ((evictScopes remove reclaimed scopes).2.map (·.records.length)).sum =
      reclaimed.length + (scopes.map (·.records.length)).sum := by
  induction scopes generalizing reclaimed with
  | nil => rfl
  | cons scope rest ih =>
      have counts := ih (reclaimed ++ scope.records.filter remove)
      have parts := @List.length_eq_length_filter_add _ scope.records remove
      simp only [evictScopes, List.map_cons, List.sum_cons, List.length_append] at counts ⊢
      omega

theorem Evicts.ids {remove : Nat → Bool} {scopes scopes' : List ScopeState}
    (evicts : List.Forall₂ (Evicts remove) scopes scopes') :
    scopes'.map (·.id) = scopes.map (·.id) := by
  induction evicts with
  | nil => rfl
  | cons evicts _ ih => rw [List.map_cons, List.map_cons, evicts.id_eq, ih]

theorem forall₂_mem {α β : Type} {relation : α → β → Prop} {first : List α} {second : List β}
    (related : List.Forall₂ relation first second) {item : α} (member : item ∈ first) :
    ∃ other ∈ second, relation item other := by
  induction related with
  | nil => cases member
  | cons here _ ih =>
      rcases List.mem_cons.mp member with rfl | member
      · exact ⟨_, List.mem_cons_self, here⟩
      · obtain ⟨other, otherMember, found⟩ := ih member
        exact ⟨other, List.mem_cons_of_mem _ otherMember, found⟩

theorem forall₂_mem_right {α β : Type} {relation : α → β → Prop} {first : List α} {second : List β}
    (related : List.Forall₂ relation first second) {item : β} (member : item ∈ second) :
    ∃ other ∈ first, relation other item :=
  forall₂_mem related.flip member

namespace Shared

variable {shared : Shared ι}

theorem find_mem {id : Nat} {scope : ScopeState} (found : shared.find id = some scope) :
    scope ∈ shared.scopes ∧ scope.id = id :=
  ⟨List.mem_of_find?_eq_some found, by simpa using List.find?_some found⟩

theorem find_of_mem (distinct : (shared.scopes.map (·.id)).Nodup) {scope : ScopeState}
    (member : scope ∈ shared.scopes) : shared.find scope.id = some scope := by
  cases found : shared.find scope.id with
  | none => exact absurd rfl (of_decide_eq_false
      (Bool.eq_false_iff.mpr (List.find?_eq_none.mp found scope member)))
  | some other =>
      obtain ⟨otherMember, same⟩ := find_mem found
      rw [eq_of_id distinct otherMember member same]

/-- How many tasks a scope has admitted. -/
def admittedOf (shared : Shared ι) (id : Nat) : Option Nat := (shared.find id).map (·.admitted)

theorem find_setScope (shared : Shared ι) (id : Nat) {change : ScopeState → ScopeState}
    (same : ∀ scope, (change scope).id = scope.id) :
    (shared.setScope id change).find id = (shared.find id).map change := by
  unfold setScope find modify
  dsimp only
  induction shared.scopes with
  | nil => rfl
  | cons scope rest ih =>
      rw [List.map_cons]
      by_cases own : scope.id = id
      · rw [if_pos own, List.find?_cons_of_pos (by simpa using (same scope).trans own),
          List.find?_cons_of_pos (by simpa using own), Option.map_some]
      · rw [if_neg own, List.find?_cons_of_neg (by simpa using own),
          List.find?_cons_of_neg (by simpa using own)]
        exact ih

/-- A request that passes the checks names a scope. -/
theorem admissible_find {request : Request ι} (passes : shared.admissible request = .ok ()) :
    ∃ scope, shared.find request.scope = some scope := by
  cases found : shared.find request.scope with
  | none =>
      unfold admissible at passes
      rw [found] at passes
      split at passes <;> cases passes
  | some scope => exact ⟨scope, rfl⟩

theorem Evicts.admitted_find {remove : Nat → Bool} {scopes scopes' : List ScopeState}
    (evicts : List.Forall₂ (Evicts remove) scopes scopes') (id : Nat) :
    (scopes'.find? (·.id = id)).map (·.admitted) = (scopes.find? (·.id = id)).map (·.admitted) := by
  induction evicts with
  | nil => rfl
  | @cons scope scope' _ _ here _ ih =>
      by_cases own : scope.id = id
      · rw [List.find?_cons_of_pos (by simpa using here.id_eq.trans own),
          List.find?_cons_of_pos (by simpa using own), Option.map_some, Option.map_some,
          here.admitted]
      · rw [List.find?_cons_of_neg (by simpa [here.id_eq] using own),
          List.find?_cons_of_neg (by simpa using own)]
        exact ih

/-- An eviction changes neither what was admitted nor what comes next. -/
theorem evict_keeps (shared : Shared ι) (id : Nat) :
    shared.evict.admittedOf id = shared.admittedOf id ∧ shared.evict.loads = shared.loads ∧
      shared.evict.nextTask = shared.nextTask ∧ shared.evict.maxVthreads = shared.maxVthreads := by
  unfold evict
  split
  · exact ⟨Evicts.admitted_find (evictScopes_evicts _ _ _) id, rfl, rfl, rfl⟩
  · exact ⟨rfl, rfl, rfl, rfl⟩

variable [DecidableEq ι]

theorem admittedOf_admit (shared : Shared ι) (scope : Nat) (owner : ι) :
    (shared.admitTask scope owner).admittedOf scope = (shared.admittedOf scope).map (· + 1) := by
  have found : (shared.admitTask scope owner).find scope = (shared.find scope).map fun state =>
      { state with
        records := state.records ++ [shared.nextTask]
        admitted := state.admitted + 1
        active := state.active ++ [shared.nextTask] } := find_setScope shared scope fun _ => rfl
  unfold admittedOf
  rw [found, Option.map_map, Option.map_map]
  rfl

theorem admittedOf_release (shared : Shared ι) (id : Nat) :
    (shared.releaseReservation id).admittedOf (shared.tasks id).scope =
      (shared.admittedOf (shared.tasks id).scope).map (· - 1) := by
  have found : (shared.releaseReservation id).find (shared.tasks id).scope =
      (shared.find (shared.tasks id).scope).map fun state => { state with
        records := state.records.erase id
        admitted := state.admitted - 1
        active := state.active.erase id } := find_setScope shared _ fun _ => rfl
  unfold admittedOf
  rw [found, Option.map_map, Option.map_map]
  rfl

/-- What an admission does, whether it fails or not. -/
theorem reserve_cases (shared : Shared ι) (request : Request ι) :
    (∃ error, shared.reserve request = (shared, .error error) ∨
      shared.reserve request = (shared.evict, .error error)) ∨
      ∃ owner, request.owner = some owner ∧
        shared.reserve request =
          (shared.evict.admitTask request.scope owner, .ok shared.nextTask) := by
  unfold reserve
  split
  · exact .inl ⟨_, .inl rfl⟩
  · dsimp only
    split
    · exact .inl ⟨_, .inr rfl⟩
    · split
      · exact .inl ⟨_, .inr rfl⟩
      · rename_i owner chosen
        split
        · exact .inl ⟨_, .inr rfl⟩
        · rw [(evict_keeps shared 0).2.2.1]
          exact .inr ⟨owner, chosen, rfl⟩

/-- An admission that is taken back leaves what the eviction left. -/
theorem release_admit (shared : Shared ι) (scope : Nat) (owner : ι) :
    ((shared.admitTask scope owner).releaseReservation shared.nextTask).recordCount =
        shared.recordCount ∧
      ((shared.admitTask scope owner).releaseReservation shared.nextTask).loads = shared.loads ∧
      ((shared.admitTask scope owner).releaseReservation shared.nextTask).admittedOf scope =
        shared.admittedOf scope := by
  have record : (shared.admitTask scope owner).tasks shared.nextTask =
      ⟨scope, owner, .active, none, false, false, false, .reserved⟩ := Function.update_self _ _ _
  refine ⟨rfl, ?_, ?_⟩
  · have loads : (shared.admitTask scope owner).loads =
        Function.update shared.loads owner (shared.loads owner + 1) := rfl
    unfold releaseReservation
    simp only [record, loads, Function.update_self, Function.update_idem, Nat.add_sub_cancel,
      Function.update_eq_self]
  · have released := admittedOf_release (shared.admitTask scope owner) shared.nextTask
    rw [record] at released
    rw [released, admittedOf_admit, Option.map_map]
    have cancel : ((· - 1) ∘ (· + 1) : Nat → Nat) = id := funext fun _ => Nat.add_sub_cancel ..
    rw [cancel, Option.map_id, id_eq]

end Shared

end VThread.Scope
