import Mathlib.Data.List.Sort
import VThread.Lib.Bisect
import VThread.Scope.Listed

/-!
# The failures of a scope

A scope that has drained reports every failed task of it that was not observed, once and in the
order of their ids.  The failures of its callback, of its policy and of its drain are recorded
beside them, and it returns the value of the callback only if there are none.
-/

namespace VThread.Scope

open VThread.Lib VThread.Carrier

variable {ι : Type}

/-- `Error::TaskAborted` and `Error::TaskPanicked`, without their texts. -/
inductive ChildError where
  | taskAborted (task : Nat) (reason : TaskFailure)
  | taskPanicked (task : Nat)
  deriving DecidableEq, Repr

/-- The error that a record stands for. -/
def TaskRecord.childError (record : TaskRecord ι) (id : Nat) : Option ChildError :=
  match record.failure with
  | some reason => some (.taskAborted id reason)
  | none => if record.panic then some (.taskPanicked id) else none

namespace Shared

/-- A child of the report, if its record is found and unobserved. -/
def child (shared : Shared ι) (scope : ScopeState) (task : Nat) : Option (Nat × ChildError) :=
  match binarySearch scope.records task with
  | none => none
  | some index =>
      let id := scope.records.getD index 0
      let record := shared.tasks id
      if record.outcomeObserved then none else (record.childError id).map fun error => (id, error)

/-- `unobserved`, before its children are counted. -/
def unobserved (shared : Shared ι) (id : Nat) : List (Nat × ChildError) :=
  match shared.find id with
  | none => []
  | some scope =>
      (scope.failedTasks.filterMap (shared.child scope)).mergeSort fun first second =>
        first.1 ≤ second.1

/-- The failed tasks of a scope that were not observed. -/
def unseen (shared : Shared ι) (scope : Nat) : List Nat :=
  (List.range shared.nextTask).filter fun id =>
    decide ((shared.tasks id).scope = scope) && (shared.tasks id).status.failed &&
      !(shared.tasks id).outcomeObserved

theorem mem_unseen {shared : Shared ι} {scope id : Nat} :
    id ∈ shared.unseen scope ↔ Unseen shared scope id := by
  unfold unseen
  rw [List.mem_filter, List.mem_range]
  constructor
  · rintro ⟨below, rest⟩
    simp only [Bool.and_eq_true, decide_eq_true_eq, Bool.not_eq_true'] at rest
    exact ⟨below, rest.1.1, rest.1.2, rest.2⟩
  · intro seen
    refine ⟨seen.below, ?_⟩
    simp [seen.home, seen.failed, seen.unobserved]

theorem unseen_sorted (shared : Shared ι) (scope : Nat) :
    (shared.unseen scope).Pairwise (· < ·) :=
  List.pairwise_lt_range.filter _

end Shared

/-- A record that failed stands for an error. -/
theorem TaskRecord.Explained.childError {record : TaskRecord ι} (explained : record.Explained)
    (failed : record.status.failed = true) (id : Nat) :
    ∃ error, record.childError id = some error := by
  unfold TaskRecord.childError
  cases status : record.status with
  | active | completed =>
      rw [status] at failed
      cases failed
  | panicked =>
      obtain ⟨failure, panic⟩ := explained.panicked status
      rw [failure, panic]
      exact ⟨_, rfl⟩
  | aborted =>
      obtain ⟨reason, failure⟩ := Option.isSome_iff_exists.mp (explained.aborted status)
      rw [failure]
      exact ⟨_, rfl⟩

variable {world : World ι}

namespace Listed

/-- What a listed task adds to the report. -/
theorem child_eq (listed : Listed world) {scope : ScopeState}
    (member : scope ∈ world.shared.scopes) {id : Nat} (isListed : id ∈ scope.failedTasks) :
    ((world.shared.tasks id).outcomeObserved = true ∧ world.shared.child scope id = none) ∨
      ((world.shared.tasks id).outcomeObserved = false ∧ ∃ error,
        (world.shared.tasks id).childError id = some error ∧
          world.shared.child scope id = some (id, error)) := by
  obtain ⟨below, home, failed⟩ := (listed.entries scope member).2 id isListed
  have sorted := listed.sorted scope member
  have read : ∀ index, binarySearch scope.records id = some index →
      scope.records.getD index 0 = id := by
    intro index found
    have here := getElem_of_binarySearch found
    rw [List.getD_eq_getElem?_getD, here]
    rfl
  unfold Shared.child
  cases observed : (world.shared.tasks id).outcomeObserved with
  | true =>
      refine .inl ⟨rfl, ?_⟩
      cases found : binarySearch scope.records id with
      | none => rfl
      | some index =>
          dsimp only
          rw [read index found, if_pos observed]
  | false =>
      have started : (world.shared.tasks id).stage ≠ .released := by
        intro released
        have idle := listed.unstarted id below (by rw [released]; decide)
        rw [idle] at failed
        cases failed
      have recorded := listed.kept scope member id below home started observed
      obtain ⟨index, found, -⟩ := binarySearch_of_mem sorted recorded
      obtain ⟨error, stands⟩ := (listed.explained id).childError failed id
      refine .inr ⟨rfl, error, stands, ?_⟩
      rw [found]
      dsimp only
      rw [read index found, observed, stands]
      rfl

/-- The report, before it is sorted, is of the unobserved ids of the index. -/
theorem children_ids (listed : Listed world) {scope : ScopeState}
    (member : scope ∈ world.shared.scopes) {ids : List Nat}
    (inside : ∀ id ∈ ids, id ∈ scope.failedTasks) :
    (ids.filterMap (world.shared.child scope)).map (·.1) =
      ids.filter fun id => !(world.shared.tasks id).outcomeObserved := by
  induction ids with
  | nil => rfl
  | cons id rest ih =>
      have tail := ih fun other later => inside other (List.mem_cons_of_mem _ later)
      rcases listed.child_eq member (inside id List.mem_cons_self) with
        ⟨observed, none⟩ | ⟨unobserved, error, -, some⟩
      · rw [List.filterMap_cons_none none, List.filter_cons_of_neg (by simp [observed])]
        exact tail
      · rw [List.filterMap_cons_some some, List.filter_cons_of_pos (by simp [unobserved]),
          List.map_cons, tail]

/-- The index of a drained scope has every failed task that was not observed. -/
theorem drained_unseen (listed : Listed world) (sound : Sound world.erase) {scope : ScopeState}
    (member : scope ∈ world.shared.scopes) (drained : scope.admitted = scope.retired) :
    (scope.failedTasks.filter fun id => !(world.shared.tasks id).outcomeObserved).Perm
      (world.shared.unseen scope.id) := by
  have distinct := (world.shared.unseen_sorted scope.id).imp Nat.ne_of_lt
  rw [List.perm_ext_iff_of_nodup ((listed.entries scope member).1.filter _) distinct]
  intro id
  rw [Shared.mem_unseen, List.mem_filter, Bool.not_eq_true']
  constructor
  · rintro ⟨isListed, unobserved⟩
    obtain ⟨below, home, failed⟩ := (listed.entries scope member).2 id isListed
    exact ⟨below, home, failed, unobserved⟩
  · intro seen
    rcases listed.listed scope member id seen with isListed | ⟨carrier, update, held, own⟩
    · exact ⟨isListed, seen.unobserved⟩
    · -- No completion of a drained scope is on its way.
      have retired := Completer.unretired_of_unindexed held
      have home := (listed.agrees carrier update retired).2
      rw [own] at home
      exact absurd (home.symm.trans seen.home) (sound.erased_drained member drained retired)

/-- The report of a drained scope is exact. -/
theorem unobserved_eq (listed : Listed world) (sound : Sound world.erase) {scope : ScopeState}
    (found : world.shared.find scope.id = some scope) (drained : scope.admitted = scope.retired) :
    (world.shared.unobserved scope.id).map (·.1) = world.shared.unseen scope.id ∧
      ∀ entry ∈ world.shared.unobserved scope.id,
        (world.shared.tasks entry.1).childError entry.1 = some entry.2 := by
  obtain ⟨member, -⟩ := Shared.find_mem found
  have report : world.shared.unobserved scope.id =
      (scope.failedTasks.filterMap (world.shared.child scope)).mergeSort fun first second =>
        first.1 ≤ second.1 := by
    unfold Shared.unobserved
    rw [found]
  have perm := List.mergeSort_perm (scope.failedTasks.filterMap (world.shared.child scope))
    fun first second => decide (first.1 ≤ second.1)
  rw [← report] at perm
  constructor
  · have members : ((world.shared.unobserved scope.id).map (·.1)).Perm
        (world.shared.unseen scope.id) := by
      refine (perm.map _).trans ?_
      rw [listed.children_ids member fun _ => id]
      exact listed.drained_unseen sound member drained
    have antisymm : ∀ first second : Nat,
        first ∈ (world.shared.unobserved scope.id).map (·.1) →
          second ∈ world.shared.unseen scope.id → first ≤ second → second ≤ first →
            first = second :=
      fun _ _ _ _ => Nat.le_antisymm
    refine members.eq_of_pairwise antisymm ?_ ?_
    · rw [List.pairwise_map, report]
      have sorted := @List.pairwise_mergeSort _
        (fun first second : Nat × ChildError => decide (first.1 ≤ second.1))
        (by
          intro first second third
          simp only [decide_eq_true_eq]
          exact le_trans)
        (by
          intro first second
          simp only [Bool.or_eq_true, decide_eq_true_eq]
          exact le_total _ _)
        (scope.failedTasks.filterMap (world.shared.child scope))
      exact sorted.imp fun ordered => of_decide_eq_true ordered
    · exact (world.shared.unseen_sorted scope.id).imp le_of_lt
  · intro entry inReport
    obtain ⟨id, isListed, some⟩ := List.mem_filterMap.mp (perm.mem_iff.mp inReport)
    rcases listed.child_eq member isListed with ⟨-, none⟩ | ⟨-, error, stands, isChild⟩
    · rw [none] at some
      cases some
    · rw [isChild] at some
      cases some
      exact stands

end Listed

/-! ## What is recorded and returned -/

variable {ε ω ρ : Type}

/-- The largest `usize`. -/
def usizeMax : Nat := 2 ^ 64 - 1

/-- A `ScopeFailure`. -/
structure ScopeFailure (ε : Type) where
  body : Option ε
  policy : Option ε
  cleanup : Option ε
  child : Option ε
  additionalChildFailures : Nat
  additionalCleanupFailures : Nat
  bodyPanicked : Bool
  deriving DecidableEq, Repr

/-- The error of a scope: the only failure, or all of them. -/
inductive ScopeError (ε : Type) where
  | only (error : ε)
  | scopeFailed (failure : ScopeFailure ε)
  deriving DecidableEq, Repr

/-- A `ScopeRunError`. -/
inductive ScopeRunError (ε ω : Type) where
  | body (error : ω)
  | runtime (error : ScopeError ε)
  | bodyAndRuntime (body : ω) (runtime : ScopeError ε)
  deriving DecidableEq, Repr

namespace ScopeFailure

def empty : ScopeFailure ε := ⟨none, none, none, none, 0, 0, false⟩

/-- The failure that stands for the others. -/
def primary (failure : ScopeFailure ε) : Option ε :=
  failure.body <|> failure.policy <|> failure.cleanup <|> failure.child

def childFailed (failure : ScopeFailure ε) (error : ε) : ScopeFailure ε :=
  match failure.child with
  | none => { failure with child := some error }
  | some _ => { failure with
      additionalChildFailures := min (failure.additionalChildFailures + 1) usizeMax }

def cleanupFailed (failure : ScopeFailure ε) (error : ε) : ScopeFailure ε :=
  match failure.cleanup with
  | none => { failure with cleanup := some error }
  | some _ => { failure with
      additionalCleanupFailures := min (failure.additionalCleanupFailures + 1) usizeMax }

/-- `failure_count`, which never grows past a `usize`. -/
def failureCount (failure : ScopeFailure ε) : Nat :=
  let recorded := ([failure.body, failure.policy, failure.cleanup, failure.child].filter
    (·.isSome)).length
  let recorded := min (recorded + failure.bodyPanicked.toNat) usizeMax
  let recorded := min (recorded + failure.additionalChildFailures) usizeMax
  min (recorded + failure.additionalCleanupFailures) usizeMax

/-- `into_error`.  Where one failure is recorded and none can be taken, the code panics. -/
def intoError (failure : ScopeFailure ε) : Option (ScopeError ε) :=
  if failure.failureCount = 1 then failure.primary.map .only
  else some (.scopeFailed failure)

/-- `err`, of a `Result`. -/
def err {α : Type} (outcome : Except ε α) : Option ε :=
  match outcome with
  | .ok _ => none
  | .error error => some error

/-- `finish`, for a callback with an error of the runtime. -/
def finish (failure : ScopeFailure ε) (body : Except ε ρ) (policy : Except ε Unit) :
    Option (Except (ScopeError ε) ρ) :=
  let failure := { failure with policy := err policy }
  match body with
  | .ok value =>
      if failure.primary.isNone then some (.ok value) else failure.intoError.map .error
  | .error error => ({ failure with body := some error }).intoError.map .error

/-- `finish_generic`, for a callback with an error of its own. -/
def finishGeneric (failure : ScopeFailure ε) (body : Except ω ρ) (policy : Except ε Unit) :
    Option (Except (ScopeRunError ε ω) ρ) :=
  let failure := { failure with policy := err policy }
  match failure.primary, body with
  | none, .ok value => some (.ok value)
  | none, .error error => some (.error (.body error))
  | some _, .ok _ => failure.intoError.map fun error => .error (.runtime error)
  | some _, .error body => failure.intoError.map fun error => .error (.bodyAndRuntime body error)

end ScopeFailure

/-- The part of `with_scope` between the drain of its scope and `finish_scope`. -/
def Shared.failures (shared : Shared ι) (id : Nat) (child : ChildError → ε)
    (drained : Except ε Unit) : ScopeFailure ε :=
  let failures := (shared.unobserved id).foldl
    (fun failures entry => failures.childFailed (child entry.2)) .empty
  match drained with
  | .ok _ => failures
  | .error error => failures.cleanupFailed error

namespace ScopeFailure

/-! ## What a scope comes to -/

/-- The failures of a scope, each before those it stands for. -/
def reasons (body policy cleanup : Option ε) (children : List ε) : List ε :=
  body.toList ++ (policy.toList ++ (cleanup.toList ++ children))

/-- What the failures come to: nothing, the only one as it is, or the record of all. -/
def verdict (failure : ScopeFailure ε) : List ε → Option (ScopeError ε)
  | [] => none
  | [error] => some (.only error)
  | _ => some (.scopeFailed failure)

/-- What a scope returns for its body, if the errors of its body are of the runtime. -/
def returned (failure : ScopeFailure ε) (reasons : List ε) (body : Except ε ρ) :
    Except (ScopeError ε) ρ :=
  match failure.verdict reasons with
  | none => body.mapError .only
  | some error => .error error

/-- What a scope returns for its body, if the errors of its body are its own. -/
def returnedGeneric (failure : ScopeFailure ε) (reasons : List ε) (body : Except ω ρ) :
    Except (ScopeRunError ε ω) ρ :=
  match failure.verdict reasons, body with
  | none, body => body.mapError .body
  | some runtime, .ok _ => .error (.runtime runtime)
  | some runtime, .error body => .error (.bodyAndRuntime body runtime)

/-- What a record has of the failures. -/
structure Recorded (failure : ScopeFailure ε) (body policy cleanup : Option ε) (children : List ε) :
    Prop where
  body : failure.body = body
  policy : failure.policy = policy
  cleanup : failure.cleanup = cleanup
  child : failure.child = children.head?
  additional : failure.additionalChildFailures = min (children.length - 1) usizeMax
  additionalCleanup : failure.additionalCleanupFailures = 0
  bodyPanicked : failure.bodyPanicked = false

theorem Recorded.empty : (empty : ScopeFailure ε).Recorded none none none [] :=
  ⟨rfl, rfl, rfl, rfl, rfl, rfl, rfl⟩

variable {failure : ScopeFailure ε} {body policy cleanup : Option ε} {children : List ε}

theorem Recorded.childFailed (recorded : Recorded failure body policy cleanup children)
    (error : ε) :
    Recorded (failure.childFailed error) body policy cleanup (children ++ [error]) := by
  unfold ScopeFailure.childFailed
  cases children with
  | nil =>
      have child : failure.child = none := recorded.child
      rw [child]
      exact { recorded with child := rfl, additional := recorded.additional }
  | cons first rest =>
      have child : failure.child = some first := recorded.child
      have additional := recorded.additional
      rw [child]
      refine { recorded with child := rfl, additional := ?_ }
      simp only [List.length_cons, List.cons_append, List.length_append, List.length_nil]
        at additional ⊢
      rw [additional]
      omega

/-- The children of a scope are recorded one after the other. -/
theorem Recorded.foldl {entries : List (Nat × ChildError)} (child : ChildError → ε)
    (recorded : Recorded failure body policy cleanup children) :
    Recorded (entries.foldl (fun failures entry => failures.childFailed (child entry.2)) failure)
      body policy cleanup (children ++ entries.map (child ·.2)) := by
  induction entries generalizing failure children with
  | nil =>
      rw [List.map_nil, List.append_nil]
      exact recorded
  | cons entry rest ih =>
      have later := ih (recorded.childFailed (child entry.2))
      rw [List.append_assoc] at later
      exact later

/-- The first failure stands for the others. -/
theorem Recorded.primary_eq (recorded : Recorded failure body policy cleanup children) :
    failure.primary = (reasons body policy cleanup children).head? := by
  unfold primary reasons
  rw [recorded.body, recorded.policy, recorded.cleanup, recorded.child]
  cases body <;> cases policy <;> cases cleanup <;> rfl

theorem Recorded.failureCount_eq (recorded : Recorded failure body policy cleanup children) :
    failure.failureCount = min (reasons body policy cleanup children).length usizeMax := by
  unfold failureCount reasons
  rw [recorded.body, recorded.policy, recorded.cleanup, recorded.child, recorded.additional,
    recorded.additionalCleanup, recorded.bodyPanicked]
  cases body <;> cases policy <;> cases cleanup <;> cases children <;> simp <;> omega

/-- Where there is a failure, the code finds the one that it returns. -/
theorem Recorded.intoError_eq (recorded : Recorded failure body policy cleanup children)
    (some : reasons body policy cleanup children ≠ []) :
    failure.intoError = verdict failure (reasons body policy cleanup children) := by
  have count := recorded.failureCount_eq
  have primary := recorded.primary_eq
  have large : 1 < usizeMax := by decide
  unfold intoError
  rw [count, primary]
  match whole : reasons body policy cleanup children, some with
  | [error], _ => rfl
  | first :: second :: rest, _ =>
      have more : min (first :: second :: rest).length usizeMax ≠ 1 := by
        rw [List.length_cons, List.length_cons]
        omega
      rw [if_neg more]
      rfl

/-- The error of the code is the verdict. -/
theorem Recorded.chosen (recorded : Recorded failure body policy cleanup children)
    (some : reasons body policy cleanup children ≠ []) :
    ∃ error, failure.intoError = .some error ∧
      failure.verdict (reasons body policy cleanup children) = .some error := by
  rw [recorded.intoError_eq some]
  match reasons body policy cleanup children, some with
  | [error], _ => exact ⟨.only error, rfl, rfl⟩
  | _ :: _ :: _, _ => exact ⟨.scopeFailed failure, rfl, rfl⟩

/-- What `finish` returns. -/
theorem Recorded.finish_eq (recorded : Recorded failure none none cleanup children)
    (body : Except ε ρ) (policy : Except ε Unit) :
    failure.finish body policy = some
      (returned { failure with body := err body, policy := err policy }
        (reasons (err body) (err policy) cleanup children) body) := by
  have all : Recorded { failure with body := err body, policy := err policy } (err body)
      (err policy) cleanup children := { recorded with body := rfl, policy := rfl }
  have primary := all.primary_eq
  unfold finish returned
  cases body with
  | ok value =>
      have none : ({ failure with policy := err policy } : ScopeFailure ε) =
          { failure with body := err (.ok value : Except ε ρ), policy := err policy } := by
        unfold err
        rw [← recorded.body]
      dsimp only
      rw [none, primary]
      cases whole : reasons (err (.ok value : Except ε ρ)) (err policy) cleanup children with
      | nil => rfl
      | cons =>
          obtain ⟨error, taken, isError⟩ := all.chosen (whole ▸ List.cons_ne_nil _ _)
          rw [whole] at isError
          rw [taken, isError]
          rfl
  | error error =>
      -- The body itself has failed.
      obtain ⟨chosen, taken, isError⟩ := all.chosen (List.cons_ne_nil _ _)
      rw [isError]
      exact congrArg (Option.map Except.error) taken

/-- What `finish_generic` returns. -/
theorem Recorded.finishGeneric_eq (recorded : Recorded failure none none cleanup children)
    (body : Except ω ρ) (policy : Except ε Unit) :
    failure.finishGeneric body policy = some
      (returnedGeneric { failure with policy := err policy }
        (reasons none (err policy) cleanup children) body) := by
  have all : Recorded { failure with policy := err policy } none (err policy) cleanup children :=
    { recorded with policy := rfl }
  have primary := all.primary_eq
  unfold finishGeneric returnedGeneric
  dsimp only
  rw [primary]
  cases whole : reasons none (err policy) cleanup children with
  | nil => cases body <;> rfl
  | cons =>
      obtain ⟨error, taken, isError⟩ := all.chosen (whole ▸ List.cons_ne_nil _ _)
      rw [whole] at isError
      rw [taken, isError]
      cases body <;> rfl

end ScopeFailure

/-- What a scope records before it returns. -/
theorem failures_recorded (shared : Shared ι) (id : Nat) (child : ChildError → ε)
    (drained : Except ε Unit) :
    (shared.failures id child drained).Recorded none none (ScopeFailure.err drained)
      ((shared.unobserved id).map (child ·.2)) := by
  have children := @ScopeFailure.Recorded.foldl _ _ _ _ _ _ (shared.unobserved id) child .empty
  unfold Shared.failures
  cases drained with
  | ok _ => exact children
  | error error =>
      unfold ScopeFailure.cleanupFailed
      dsimp only
      rw [children.cleanup]
      exact { children with cleanup := rfl }

/-- The errors of a report are of the failed tasks of its scope that were not observed. -/
theorem Listed.unobserved_children {world : World ι} (listed : Listed world)
    (sound : Sound world.erase) {scope : ScopeState}
    (found : world.shared.find scope.id = some scope) (drained : scope.admitted = scope.retired)
    (child : ChildError → ε) :
    ((world.shared.unobserved scope.id).map (child ·.2)).map some =
      (world.shared.unseen scope.id).map
        fun id => ((world.shared.tasks id).childError id).map child := by
  obtain ⟨ids, errors⟩ := listed.unobserved_eq sound found drained
  rw [← ids, List.map_map, List.map_map]
  apply List.map_congr_left
  intro entry member
  dsimp only [Function.comp]
  rw [errors entry member]
  rfl

/-! ## The verdict of a scope -/

/-- In every run the failures that no join has seen are listed, or on their way there. -/
theorem Listed.reachable [DecidableEq ι] [Inhabited ι] {maxVthreads : Nat} {world : World ι}
    (reachable : (completionMachine ι maxVthreads).system.Reachable world) :
    Sound world.erase ∧ Listed world := by
  apply reachable.induct
  · rintro _ rfl
    refine ⟨⟨.new maxVthreads, .new maxVthreads⟩, ?_⟩
    constructor
    case explained =>
      intro id
      exact ⟨by simp [World.new, Shared.new], by simp [World.new, Shared.new]⟩
    all_goals simp [World.new, Shared.new, Completer.unretired]
  · rintro before after - ⟨sound, listed⟩ ⟨choice, taken⟩
    exact ⟨World.step_erase sound taken, listed.step sound taken⟩

open ScopeFailure (err reasons)

/-- The record of a drained scope has its body, its policy, its drain and an error for every failed
task that no join has observed, in the order of their ids.  What the scope returns is the verdict
on it: the outcome of the body if there is none, the only failure as it is, or the record. -/
theorem scope_verdict [DecidableEq ι] [Inhabited ι] {maxVthreads : Nat} {world : World ι}
    (reachable : (completionMachine ι maxVthreads).system.Reachable world) {scope : ScopeState}
    (member : scope ∈ world.shared.scopes) (retired : scope.admitted = scope.retired)
    (child : ChildError → ε) (drained policy : Except ε Unit) :
    ∃ children : List ε,
      children.map some = (world.shared.unseen scope.id).map
        (fun id => ((world.shared.tasks id).childError id).map child) ∧
      (∀ body : Except ε ρ, ∃ failure : ScopeFailure ε,
        failure.Recorded (err body) (err policy) (err drained) children ∧
        (world.shared.failures scope.id child drained).finish body policy =
          some (failure.returned (reasons (err body) (err policy) (err drained) children) body)) ∧
      ∀ body : Except ω ρ, ∃ failure : ScopeFailure ε,
        failure.Recorded none (err policy) (err drained) children ∧
        (world.shared.failures scope.id child drained).finishGeneric body policy =
          some (failure.returnedGeneric (reasons none (err policy) (err drained) children)
            body) := by
  obtain ⟨sound, listed⟩ := Listed.reachable reachable
  have found := Shared.find_of_mem sound.erased_distinct member
  have recorded := failures_recorded world.shared scope.id child drained
  refine ⟨_, listed.unobserved_children sound found retired child, ?_, ?_⟩
  · intro body
    refine ⟨_, ?_, recorded.finish_eq body policy⟩
    exact { recorded with body := rfl, policy := rfl }
  · intro body
    refine ⟨_, ?_, recorded.finishGeneric_eq body policy⟩
    exact { recorded with policy := rfl }

/-- The verdict on a scope whose first task has panicked and whose second was aborted. -/
theorem scope_verdict_two : ∃ world : World Unit, ∃ failure : ScopeFailure ChildError,
    world.shared.unseen 0 = [0, 1] ∧ failure.child = some (.taskPanicked 0) ∧
      failure.additionalChildFailures = 1 ∧
      (world.shared.failures 0 id (.ok ())).finish (.ok 7) (.ok ()) =
        some (.error (.scopeFailed failure) : Except (ScopeError ChildError) Nat) := by
  have reachable := Machine.guarded_reachable (@Machine.run_reachable _ _ (completionMachine Unit 4)
    (fun _ _ => true)
    [.beginOwned, .reserve ⟨0, false, true, true, some ()⟩, .accept 0,
      .reserve ⟨0, false, true, true, some ()⟩, .accept 1, .panic 0, .prepare () 0 none,
      .complete (), .queue () true, .extend (), .retire (), .prepare () 1 (some .scopeClosed),
      .complete (), .queue () true, .extend (), .retire ()] _ _ (.initial rfl) rfl)
  obtain ⟨children, errors, finished, -⟩ :=
    @scope_verdict _ ChildError Unit Nat _ _ _ _ reachable _ List.mem_cons_self rfl id (.ok ())
      (.ok ())
  obtain ⟨failure, recorded, isOk⟩ := finished (.ok 7)
  have both : children = [.taskPanicked 0, .taskAborted 1 .scopeClosed] := by
    apply List.map_injective_iff.mpr (Option.some_injective _)
    rw [errors]
    rfl
  subst both
  exact ⟨_, failure, rfl, recorded.child, recorded.additional, isOk⟩

end VThread.Scope
