import VThread.Policy.Lineage

/-!
# Inherited policy

The deadline of a task is the earliest of its own, its owners' and its spawner's, and its
token is cancelled exactly when one of theirs was.
-/

namespace VThread.Policy

open VThread.Lib VThread.Cancellation

variable {runtime : Runtime}

/-! ## Where a task's policy comes from -/

/-- The deadline of the scope that owns a task. -/
def Runtime.scopeDeadline (runtime : Runtime) (task : Task) : Option Instant :=
  runtime.scopes[task.scope]?.bind (·.options.deadline)

/-- The deadline of the local scope a task was spawned in. -/
def Runtime.groupDeadline (runtime : Runtime) (task : Task) : Option Instant :=
  (task.group.bind fun group => runtime.groups[group]?).bind (·.options.deadline)

/-- The deadline of the task that spawned a task. -/
def Runtime.spawnerDeadline (runtime : Runtime) (task : Task) : Option Instant :=
  (task.parent.bind fun parent => runtime.tasks[parent]?).bind (·.options.deadline)

/-- The tokens that a task's token inherits from. -/
inductive Source (runtime : Runtime) : TaskId → TokenId → Prop where
  | own {id : TaskId} {task : Task} : runtime.tasks[id]? = some task →
      Source runtime id task.options.cancellation
  | runtime {id : TaskId} {task : Task} : runtime.tasks[id]? = some task →
      Source runtime id runtime.cancellation
  | scope {id : TaskId} {task : Task} {scope : Scope} : runtime.tasks[id]? = some task →
      runtime.scopes[task.scope]? = some scope → Source runtime id scope.options.cancellation
  | group {id : TaskId} {task : Task} {group : GroupId} {owner : LocalScope} :
      runtime.tasks[id]? = some task → task.group = some group →
      runtime.groups[group]? = some owner → Source runtime id owner.options.cancellation
  | spawner {id : TaskId} {task : Task} {parent : TaskId} {token : TokenId} :
      runtime.tasks[id]? = some task → task.parent = some parent →
      Source runtime parent token → Source runtime id token

/-- A task spawned another one. -/
def Spawned (runtime : Runtime) (parent id : TaskId) : Prop :=
  ∃ task, runtime.tasks[id]? = some task ∧ task.parent = some parent

/-! ## Deadlines -/

theorem Opened.runner_earlier {group : LocalScope} {task : Task}
    (opened : Opened runtime group task) :
    NoLater group.options.deadline task.options.deadline := by
  rw [opened.deadline]
  exact earliest_noLater (by simp)

/-- A local scope ends no later than the task that runs it. -/
theorem Lineage.group_earlier (lineage : Lineage runtime) {id : GroupId} {group : LocalScope}
    {task : Task} (isGroup : runtime.groups[id]? = some group)
    (isTask : runtime.tasks[group.task]? = some task) :
    NoLater group.options.deadline task.options.deadline := by
  obtain ⟨runner, opened⟩ := lineage.groups id group isGroup
  have same := opened.runner
  rw [isTask] at same
  cases same
  exact opened.runner_earlier

/-- A task ends no later than its scope, by induction on its spawners. -/
theorem Lineage.scope_earlier (lineage : Lineage runtime) (id : TaskId) {task : Task}
    {scope : Scope} (isTask : runtime.tasks[id]? = some task)
    (isScope : runtime.scopes[task.scope]? = some scope) :
    NoLater task.options.deadline scope.options.deadline := by
  induction id using Nat.strong_induction_on generalizing task with
  | _ id ih =>
      obtain ⟨owner, isOwner, born⟩ := lineage.tasks id task isTask
      rw [isScope] at isOwner
      cases isOwner
      cases born with
      | outside _ _ _ deadline
      | sibling _ _ _ _ _ _ _ _ deadline
      | crossed _ _ _ _ _ _ _ _ deadline =>
          rw [deadline]
          exact earliest_noLater (by simp)
      | grouped _ _ _ owner _ _ older isSpawner same isOwner runs _ deadline =>
          subst runs
          have inherited := ih owner.task older isSpawner (same ▸ isScope)
          have first : NoLater task.options.deadline owner.options.deadline := by
            rw [deadline]
            exact earliest_noLater (by simp)
          exact first.trans ((lineage.group_earlier isOwner isSpawner).trans inherited)

/-- The effective deadline is the earliest of the deadlines around the task. -/
theorem Lineage.deadline (lineage : Lineage runtime) {id : TaskId} {task : Task}
    (isTask : runtime.tasks[id]? = some task) : task.options.deadline =
      earliest [task.requested, runtime.scopeDeadline task, runtime.groupDeadline task,
        runtime.spawnerDeadline task] := by
  obtain ⟨scope, isScope, born⟩ := lineage.tasks id task isTask
  have scopes : runtime.scopeDeadline task = scope.options.deadline := by
    rw [Runtime.scopeDeadline, isScope]
    rfl
  rw [scopes]
  cases born with
  | outside noParent noGroup _ deadline =>
      rw [deadline, Runtime.groupDeadline, noGroup, Runtime.spawnerDeadline, noParent]
      refine earliest_congr fun other => ?_
      simp [and_comm]
  | sibling parent spawner isParent noGroup _ isSpawner _ _ deadline
  | crossed _ _ isParent noGroup _ isSpawner _ _ deadline =>
      rw [deadline, Runtime.groupDeadline, noGroup, Runtime.spawnerDeadline, isParent,
        Option.bind_some, isSpawner]
      refine earliest_congr fun other => ?_
      simp [and_comm, and_assoc]
  | grouped _ _ _ owner isParent isGroup _ isSpawner same isOwner runs _ deadline =>
      subst runs
      rw [deadline, Runtime.groupDeadline, isGroup, Option.bind_some, isOwner,
        Runtime.spawnerDeadline, isParent, Option.bind_some, Option.bind_some, isSpawner]
      -- the local scope already respects its runner, and the runner its scope
      have runner := lineage.group_earlier isOwner isSpawner
      have outer := runner.trans (lineage.scope_earlier owner.task isSpawner (same ▸ isScope))
      refine earliest_congr fun other => ?_
      simp only [List.mem_cons, forall_eq_or_imp, Option.bind_some, List.not_mem_nil,
        false_imp_iff, implies_true, and_true]
      constructor
      · rintro ⟨within, asked⟩
        exact ⟨asked, within.trans outer, within, within.trans runner⟩
      · rintro ⟨asked, -, within, -⟩
        exact ⟨within, asked⟩

theorem Lineage.spawner_recorded (lineage : Lineage runtime) {parent id : TaskId} {task : Task}
    (isTask : runtime.tasks[id]? = some task) (isParent : task.parent = some parent) :
    parent < id ∧ ∃ spawner, runtime.tasks[parent]? = some spawner := by
  obtain ⟨scope, -, born⟩ := lineage.tasks id task isTask
  cases born with
  | outside noParent =>
      rw [isParent] at noParent
      cases noParent
  | sibling other spawner isOther _ older isSpawner
  | crossed other spawner isOther _ older isSpawner
  | grouped other spawner _ _ isOther _ older isSpawner =>
      rw [isParent] at isOther
      cases isOther
      exact ⟨older, spawner, isSpawner⟩

theorem Lineage.spawner_earlier (lineage : Lineage runtime) {parent id : TaskId}
    {task spawner : Task} (isTask : runtime.tasks[id]? = some task)
    (isParent : task.parent = some parent) (isSpawner : runtime.tasks[parent]? = some spawner) :
    NoLater task.options.deadline spawner.options.deadline := by
  rw [lineage.deadline isTask]
  refine earliest_noLater ?_
  rw [Runtime.spawnerDeadline, isParent, Option.bind_some, isSpawner]
  simp

/-- A task ends no later than any of its transitive spawners. -/
theorem Lineage.ancestor_earlier (lineage : Lineage runtime) {ancestor id : TaskId}
    {task first : Task} (path : Relation.TransGen (Spawned runtime) ancestor id)
    (isTask : runtime.tasks[id]? = some task) (isFirst : runtime.tasks[ancestor]? = some first) :
    NoLater task.options.deadline first.options.deadline := by
  induction path generalizing task with
  | single link =>
      obtain ⟨found, isFound, isParent⟩ := link
      rw [isTask] at isFound
      cases isFound
      exact lineage.spawner_earlier isTask isParent isFirst
  | tail path link ih =>
      obtain ⟨found, isFound, isParent⟩ := link
      rw [isTask] at isFound
      cases isFound
      obtain ⟨-, spawner, isSpawner⟩ := lineage.spawner_recorded isTask isParent
      exact (lineage.spawner_earlier isTask isParent isSpawner).trans (ih isSpawner)

/-! ## Tokens -/

theorem Below.descends {tokens : Tokens} {token parent : TokenId} {parents : List TokenId}
    (below : Below tokens token parents) (member : parent ∈ parents) :
    tokens.reference.Descends parent token :=
  descends_iff.mpr (.inr ⟨parent, below.parents ▸ member, .refl⟩)

theorem Below.descends_iff {tokens : Tokens} {source token : TokenId} {parents : List TokenId}
    (below : Below tokens token parents) : tokens.reference.Descends source token ↔
      source = token ∨ ∃ parent ∈ parents, tokens.reference.Descends source parent := by
  rw [Policy.descends_iff, below.parents]

/-- A scope is only below the runtime. -/
theorem Lineage.descends_scope (lineage : Lineage runtime) {id : ScopeId} {scope : Scope}
    (isScope : runtime.scopes[id]? = some scope) {source : TokenId} :
    runtime.tokens.reference.Descends source scope.options.cancellation ↔
      source = scope.options.cancellation ∨ source = runtime.cancellation := by
  rw [(lineage.scopes id scope isScope).descends_iff]
  simp [lineage.root.descends_iff]

/-- A local scope is below what the task that runs it is below. -/
theorem Lineage.descends_group (lineage : Lineage runtime) {id : GroupId} {group : LocalScope}
    {task : Task} (isGroup : runtime.groups[id]? = some group)
    (isTask : runtime.tasks[group.task]? = some task) {source : TokenId} :
    runtime.tokens.reference.Descends source group.options.cancellation ↔
      source = group.options.cancellation ∨
        runtime.tokens.reference.Descends source task.options.cancellation := by
  obtain ⟨runner, opened⟩ := lineage.groups id group isGroup
  have same := opened.runner
  rw [isTask] at same
  cases same
  rw [opened.below.descends_iff]
  simp

/-- A task is below its spawner. -/
theorem Lineage.below_spawner (lineage : Lineage runtime) {parent id : TaskId}
    {task spawner : Task} (isTask : runtime.tasks[id]? = some task)
    (isParent : task.parent = some parent) (isSpawner : runtime.tasks[parent]? = some spawner) :
    runtime.tokens.reference.Descends spawner.options.cancellation task.options.cancellation := by
  obtain ⟨scope, -, born⟩ := lineage.tasks id task isTask
  cases born with
  | outside noParent =>
      rw [isParent] at noParent
      cases noParent
  | sibling other found isOther _ _ isFound _ below
  | crossed _ _ isOther _ _ isFound _ below =>
      rw [isParent] at isOther
      cases isOther
      rw [isSpawner] at isFound
      cases isFound
      exact below.descends (by simp)
  | grouped _ _ _ _ isOther _ _ _ _ isOwner runs below =>
      rw [isParent] at isOther
      cases isOther
      subst runs
      have inherits := (lineage.descends_group isOwner isSpawner).mpr (.inr .refl)
      exact inherits.trans (below.descends (by simp))

/-- A task is below its scope, also where only its spawner's token is a parent. -/
theorem Lineage.below_scope (lineage : Lineage runtime) (id : TaskId) {task : Task}
    {scope : Scope} (isTask : runtime.tasks[id]? = some task)
    (isScope : runtime.scopes[task.scope]? = some scope) :
    runtime.tokens.reference.Descends scope.options.cancellation task.options.cancellation := by
  induction id using Nat.strong_induction_on generalizing task with
  | _ id ih =>
      obtain ⟨owner, isOwner, born⟩ := lineage.tasks id task isTask
      rw [isScope] at isOwner
      cases isOwner
      cases born with
      | outside _ _ below => exact below.descends (by simp)
      | sibling parent spawner isParent _ older isSpawner same =>
          have inherited := ih parent older isSpawner (same ▸ isScope)
          exact inherited.trans (lineage.below_spawner isTask isParent isSpawner)
      | crossed _ _ _ _ _ _ _ below => exact below.descends (by simp)
      | grouped parent spawner _ _ isParent _ older isSpawner same =>
          have inherited := ih parent older isSpawner (same ▸ isScope)
          exact inherited.trans (lineage.below_spawner isTask isParent isSpawner)

theorem Lineage.below_group (lineage : Lineage runtime) {id : TaskId} {task : Task}
    {group : GroupId} {owner : LocalScope} (isTask : runtime.tasks[id]? = some task)
    (isGroup : task.group = some group) (isOwner : runtime.groups[group]? = some owner) :
    runtime.tokens.reference.Descends owner.options.cancellation task.options.cancellation := by
  obtain ⟨scope, -, born⟩ := lineage.tasks id task isTask
  cases born with
  | outside _ noGroup | sibling _ _ _ noGroup | crossed _ _ _ noGroup =>
      rw [isGroup] at noGroup
      cases noGroup
  | grouped _ _ _ _ _ isOther _ _ _ isFound _ below =>
      rw [isGroup] at isOther
      cases isOther
      rw [isOwner] at isFound
      cases isFound
      exact below.descends (by simp)

theorem Lineage.descends_of_source (lineage : Lineage runtime) {id : TaskId} {task : Task}
    {token : TokenId} (source : Source runtime id token)
    (isTask : runtime.tasks[id]? = some task) :
    runtime.tokens.reference.Descends token task.options.cancellation := by
  induction source generalizing task with
  | own found =>
      rw [isTask] at found
      cases found
      exact .refl
  | runtime found =>
      obtain ⟨scope, isScope, -⟩ := lineage.tasks _ task isTask
      have inherits := (lineage.descends_scope isScope).mpr (.inr rfl)
      exact inherits.trans (lineage.below_scope _ isTask isScope)
  | scope found isScope =>
      rw [isTask] at found
      cases found
      exact lineage.below_scope _ isTask isScope
  | group found isGroup isOwner =>
      rw [isTask] at found
      cases found
      exact lineage.below_group isTask isGroup isOwner
  | spawner found isParent _ ih =>
      rw [isTask] at found
      cases found
      obtain ⟨-, spawner, isSpawner⟩ := lineage.spawner_recorded isTask isParent
      exact (ih isSpawner).trans (lineage.below_spawner isTask isParent isSpawner)

theorem Lineage.source_of_descends (lineage : Lineage runtime) (id : TaskId) {task : Task}
    {token : TokenId} (isTask : runtime.tasks[id]? = some task)
    (path : runtime.tokens.reference.Descends token task.options.cancellation) :
    Source runtime id token := by
  induction id using Nat.strong_induction_on generalizing task with
  | _ id ih =>
      obtain ⟨scope, isScope, born⟩ := lineage.tasks id task isTask
      have byScope (path : runtime.tokens.reference.Descends token scope.options.cancellation) :
          Source runtime id token := by
        rcases (lineage.descends_scope isScope).mp path with rfl | rfl
        · exact .scope isTask isScope
        · exact .runtime isTask
      cases born with
      | outside _ _ below =>
          rcases below.descends_iff.mp path with rfl | ⟨parent, member, path⟩
          · exact .own isTask
          · rw [List.mem_singleton.mp member] at path
            exact byScope path
      | sibling parent spawner isParent _ older isSpawner _ below =>
          rcases below.descends_iff.mp path with rfl | ⟨above, member, path⟩
          · exact .own isTask
          · rw [List.mem_singleton.mp member] at path
            exact .spawner isTask isParent (ih parent older isSpawner path)
      | crossed parent spawner isParent _ older isSpawner _ below =>
          rcases below.descends_iff.mp path with rfl | ⟨above, member, path⟩
          · exact .own isTask
          · rcases List.mem_pair.mp member with rfl | rfl
            · exact .spawner isTask isParent (ih parent older isSpawner path)
            · exact byScope path
      | grouped _ _ _ owner isParent isGroup older isSpawner _ isOwner runs below =>
          subst runs
          rcases below.descends_iff.mp path with rfl | ⟨above, member, path⟩
          · exact .own isTask
          · rw [List.mem_singleton.mp member, lineage.descends_group isOwner isSpawner] at path
            rcases path with rfl | path
            · exact .group isTask isGroup isOwner
            · exact .spawner isTask isParent (ih owner.task older isSpawner path)

/-! ## Policies -/

/-- A task got the policy of what is around it. -/
structure Inherits (runtime : Runtime) (id : TaskId) (task : Task) : Prop where
  deadline : task.options.deadline =
    earliest [task.requested, runtime.scopeDeadline task, runtime.groupDeadline task,
      runtime.spawnerDeadline task]
  earlier : ∀ (ancestor : TaskId) (first : Task), Relation.TransGen (Spawned runtime) ancestor id →
    runtime.tasks[ancestor]? = some first →
    NoLater task.options.deadline first.options.deadline
  cancelled : task.options.cancellation ∈ runtime.tokens.live →
    ∃ flag, runtime.tokens.graph.isCancelled task.options.cancellation = .ok flag ∧
      (flag = true ↔ ∃ source ∈ runtime.cancelled, Source runtime id source)

/-- In every tree of spawns a task ends no later than its request, its scope, the local scope
it was spawned in and its spawners, and it is cancelled exactly when a token around it was,
whichever tokens are gone. -/
theorem inherited_policy (reachable : runtime.Reachable) {id : TaskId} {task : Task}
    (isTask : runtime.tasks[id]? = some task) : Inherits runtime id task := by
  have lineage := reachable.lineage
  refine ⟨lineage.deadline isTask, fun ancestor first path isFirst =>
    lineage.ancestor_earlier path isTask isFirst, fun live => ?_⟩
  obtain ⟨flag, isFlag, marks⟩ :=
    (World.compressed_graph_matches_reference lineage.tokens).1 _ live
  refine ⟨flag, isFlag, marks.trans ?_⟩
  rw [lineage.marked.flags _ (live_lt lineage.tokens live)]
  refine exists_congr fun source => and_congr_right fun _ => ?_
  exact ⟨lineage.source_of_descends id isTask, fun found =>
    lineage.descends_of_source found isTask⟩

theorem Runtime.run_reachable {actions : List Action} {next : Runtime}
    (reachable : runtime.Reachable) (ran : runtime.run actions = some next) : next.Reachable := by
  induction actions generalizing runtime with
  | nil =>
      cases ran
      exact reachable
  | cons _ _ ih =>
      obtain ⟨middle, taken, ran⟩ := Option.bind_eq_some_iff.mp ran
      exact ih (reachable.step taken) ran

theorem Runtime.start_reachable {actions : List Action} {next : Runtime}
    (ran : (returned Runtime.new).bind (·.run actions) = some next) : next.Reachable := by
  obtain ⟨first, made, ran⟩ := Option.bind_eq_some_iff.mp ran
  exact run_reachable (.new (returned_eq_some.mp made)) ran

/-- A task spawns into its own scope, and the scope is cancelled after the token of the spawner
is gone. -/
def siblingTree : List Action :=
  [.beginOwned (some 9), .spawn 0 none (some 8) 0, .spawn 0 (some 0) none 0, .dropToken 2,
    .cancel 1]

theorem inherited_policy_sibling : ∃ runtime : Runtime, runtime.Reachable ∧ ∃ task,
    runtime.tasks[1]? = some task ∧ task.options = ⟨3, some 8⟩ ∧ Inherits runtime 1 task := by
  have runs : ((returned Runtime.new).bind (·.run siblingTree)).map
      (fun runtime => runtime.tasks[1]?) =
      some (some ⟨0, some 0, ⟨3, some 8⟩, none, none⟩) := by decide +kernel
  obtain ⟨runtime, ran, isTask⟩ := Option.map_eq_some_iff.mp runs
  have reachable := Runtime.start_reachable ran
  exact ⟨runtime, reachable, _, isTask, rfl, inherited_policy reachable isTask⟩

/-- A task opens a local scope in the body of another one, spawns into the inner one and
cancels the outer one. -/
def nestedTree : List Action :=
  [.beginOwned none, .spawn 0 none none 0, .openLocal 0 (some 5), .openLocal 0 none,
    .spawnLocal 1 none 0, .cancel 3]

/-- A local scope takes its policy from the task that runs it, not from the local scopes the
task has open. -/
theorem enclosing_skipped : ∃ runtime : Runtime, runtime.Reachable ∧
    ∃ (task : Task) (inner outer : LocalScope),
    runtime.tasks[1]? = some task ∧ task.group = some 1 ∧
    runtime.groups[1]? = some inner ∧ 0 ∈ inner.enclosing ∧ runtime.groups[0]? = some outer ∧
    ¬ NoLater task.options.deadline outer.options.deadline ∧
    outer.options.cancellation ∈ runtime.cancelled ∧
    task.options.cancellation ∈ runtime.tokens.live ∧
    runtime.tokens.graph.isCancelled task.options.cancellation = .ok false := by
  have runs : ((returned Runtime.new).bind (·.run nestedTree)).map (fun runtime =>
      (runtime.tasks[1]?, runtime.groups, runtime.cancelled, decide (5 ∈ runtime.tokens.live),
        returned (runtime.tokens.graph.isCancelled 5))) =
      some (some ⟨0, some 0, ⟨5, none⟩, none, some 1⟩,
        [⟨⟨3, some 5⟩, 0, some 5, []⟩, ⟨⟨4, none⟩, 0, none, [0]⟩], [3], true, some false) := by
    decide +kernel
  obtain ⟨runtime, ran, view⟩ := Option.map_eq_some_iff.mp runs
  simp only [Prod.mk.injEq] at view
  obtain ⟨isTask, groups, cancelled, live, flag⟩ := view
  refine ⟨runtime, Runtime.start_reachable ran, _, ⟨⟨4, none⟩, 0, none, [0]⟩,
    ⟨⟨3, some 5⟩, 0, some 5, []⟩, isTask, rfl, ?_, by simp, ?_, ?_, ?_, of_decide_eq_true live,
    returned_eq_some.mp flag⟩
  · rw [groups]
    rfl
  · rw [groups]
    rfl
  · intro earlier
    obtain ⟨_, missing, -⟩ := earlier 5 rfl
    cases missing
  · simp [cancelled]

end VThread.Policy
