import VThread.Policy.Deadline

/-!
# The lineage of owners and tasks

The tokens a token was inserted below, for every kind of owner and every way to spawn, and
the flags that follow from the cancellations so far.
-/

namespace VThread.Policy

open VThread.Lib VThread.Cancellation

/-! ## Flags of the reference -/

/-- The flags of the reference are those of the tokens cancelled so far. -/
structure Marked (reference : Reference) (cancelled : List TokenId) : Prop where
  below : ∀ source ∈ cancelled, source < reference.count
  flags : ∀ id, id < reference.count →
    (reference.cancelled id ↔ ∃ source ∈ cancelled, reference.Descends source id)

theorem Marked.insert {reference : Reference} {cancelled parents : List TokenId}
    (marked : Marked reference cancelled) (ordered : reference.Ordered)
    (below : ∀ parent ∈ parents, parent < reference.count) :
    Marked (reference.insert parents) cancelled where
  below source member := Nat.lt_succ_of_lt (marked.below source member)
  flags := by
    intro id bound
    by_cases new : id = reference.count
    · subst new
      have flag : (reference.insert parents).cancelled reference.count ↔
          ∃ parent ∈ parents, reference.cancelled parent := by simp [Reference.insert]
      rw [flag]
      constructor
      · rintro ⟨parent, isParent, isCancelled⟩
        obtain ⟨source, member, path⟩ :=
          (marked.flags parent (below parent isParent)).mp isCancelled
        exact ⟨source, member,
          (Reference.descends_insert_self ordered below).mpr (.inr ⟨parent, isParent, path⟩)⟩
      · rintro ⟨source, member, path⟩
        rcases (Reference.descends_insert_self ordered below).mp path with
          same | ⟨parent, isParent, path⟩
        · exact absurd same (marked.below source member).ne
        · exact ⟨parent, isParent,
            (marked.flags parent (below parent isParent)).mpr ⟨source, member, path⟩⟩
    · have old : id < reference.count := Nat.lt_of_le_of_ne (Nat.le_of_lt_succ bound) new
      have flag : (reference.insert parents).cancelled id ↔ reference.cancelled id := by
        simp [Reference.insert, new]
      rw [flag, marked.flags id old]
      simp only [Reference.descends_insert ordered new]

theorem Marked.cancel {reference : Reference} {cancelled : List TokenId}
    (marked : Marked reference cancelled) {token : TokenId} (below : token < reference.count) :
    Marked (reference.cancel token) (token :: cancelled) where
  below := by
    intro source member
    rcases List.mem_cons.mp member with rfl | old
    · exact below
    · exact marked.below source old
  flags := by
    intro id bound
    have flag : (reference.cancel token).cancelled id ↔
        reference.cancelled id ∨ reference.Descends token id := Iff.rfl
    rw [flag, marked.flags id bound]
    simp only [List.mem_cons, exists_eq_or_imp]
    exact or_comm

/-- What a token descends from are its parents and what they descend from. -/
theorem descends_iff {reference : Reference} {source target : TokenId} :
    reference.Descends source target ↔
      source = target ∨ ∃ parent ∈ reference.parents target, reference.Descends source parent := by
  constructor
  · intro path
    rcases Relation.ReflTransGen.cases_tail path with same | ⟨parent, path, link⟩
    · exact .inl same.symm
    · exact .inr ⟨parent, link, path⟩
  · rintro (rfl | ⟨parent, link, path⟩)
    · exact .refl
    · exact path.tail link

/-! ## How tokens and deadlines came to be -/

/-- A token in the graph and the tokens it was inserted below. -/
structure Below (tokens : Tokens) (token : TokenId) (parents : List TokenId) : Prop where
  known : token < tokens.reference.count
  parents : tokens.reference.parents token = parents

/-- How a task was spawned. -/
inductive Born (runtime : Runtime) (id : TaskId) (task : Task) (scope : Scope) : Prop where
  /-- From outside of the runtime. -/
  | outside : task.parent = none → task.group = none →
      Below runtime.tokens task.options.cancellation [scope.options.cancellation] →
      task.options.deadline = earliest [scope.options.deadline, task.requested] →
      Born runtime id task scope
  /-- By a task of the same scope. -/
  | sibling (parent : TaskId) (spawner : Task) : task.parent = some parent → task.group = none →
      parent < id → runtime.tasks[parent]? = some spawner → spawner.scope = task.scope →
      Below runtime.tokens task.options.cancellation [spawner.options.cancellation] →
      task.options.deadline =
        earliest [scope.options.deadline, spawner.options.deadline, task.requested] →
      Born runtime id task scope
  /-- By a task of another scope. -/
  | crossed (parent : TaskId) (spawner : Task) : task.parent = some parent → task.group = none →
      parent < id → runtime.tasks[parent]? = some spawner → spawner.scope ≠ task.scope →
      Below runtime.tokens task.options.cancellation
        [spawner.options.cancellation, scope.options.cancellation] →
      task.options.deadline =
        earliest [scope.options.deadline, spawner.options.deadline, task.requested] →
      Born runtime id task scope
  /-- In a local scope of its spawner. -/
  | grouped (parent : TaskId) (spawner : Task) (group : GroupId) (owner : LocalScope) :
      task.parent = some parent → task.group = some group → parent < id →
      runtime.tasks[parent]? = some spawner → spawner.scope = task.scope →
      runtime.groups[group]? = some owner → owner.task = parent →
      Below runtime.tokens task.options.cancellation [owner.options.cancellation] →
      task.options.deadline = earliest [owner.options.deadline, task.requested] →
      Born runtime id task scope

/-- How a local scope was opened. -/
structure Opened (runtime : Runtime) (group : LocalScope) (task : Task) : Prop where
  runner : runtime.tasks[group.task]? = some task
  below : Below runtime.tokens group.options.cancellation [task.options.cancellation]
  deadline : group.options.deadline = earliest [task.options.deadline, group.requested]

structure Lineage (runtime : Runtime) : Prop where
  tokens : World.Reachable Unit runtime.tokens
  marked : Marked runtime.tokens.reference runtime.cancelled
  root : Below runtime.tokens runtime.cancellation []
  scopes : ∀ (id : ScopeId) (scope : Scope), runtime.scopes[id]? = some scope →
    Below runtime.tokens scope.options.cancellation [runtime.cancellation]
  tasks : ∀ (id : TaskId) (task : Task), runtime.tasks[id]? = some task →
    ∃ scope, runtime.scopes[task.scope]? = some scope ∧ Born runtime id task scope
  groups : ∀ (id : GroupId) (group : LocalScope),
    runtime.groups[id]? = some group → ∃ task, Opened runtime group task

/-! ## What operations keep -/

/-- The graph only grew. -/
structure Extends (tokens tokens' : Tokens) : Prop where
  count : tokens.reference.count ≤ tokens'.reference.count
  parents : ∀ token, token < tokens.reference.count →
    tokens'.reference.parents token = tokens.reference.parents token

theorem Extends.refl (tokens : Tokens) : Extends tokens tokens := ⟨Nat.le_refl _, fun _ _ => rfl⟩

theorem Below.extend {tokens tokens' : Tokens} {token : TokenId} {parents : List TokenId}
    (below : Below tokens token parents) (grown : Extends tokens tokens') :
    Below tokens' token parents :=
  ⟨Nat.lt_of_lt_of_le below.known grown.count,
    (grown.parents token below.known).trans below.parents⟩

/-- Owners and tasks stay, and the graph only grew. -/
structure Grows (runtime next : Runtime) : Prop where
  tokens : Extends runtime.tokens next.tokens
  cancellation : next.cancellation = runtime.cancellation
  scopes : ∀ (id : ScopeId) (scope : Scope),
    runtime.scopes[id]? = some scope → next.scopes[id]? = some scope
  tasks : ∀ (id : TaskId) (task : Task),
    runtime.tasks[id]? = some task → next.tasks[id]? = some task
  groups : ∀ (id : GroupId) (group : LocalScope),
    runtime.groups[id]? = some group → next.groups[id]? = some group

theorem Born.grow {runtime next : Runtime} {id : TaskId} {task : Task} {scope : Scope}
    (born : Born runtime id task scope) (grows : Grows runtime next) :
    Born next id task scope := by
  cases born with
  | outside noParent noGroup below deadline =>
      exact .outside noParent noGroup (below.extend grows.tokens) deadline
  | sibling parent spawner isParent noGroup older found same below deadline =>
      exact .sibling parent spawner isParent noGroup older (grows.tasks _ _ found) same
        (below.extend grows.tokens) deadline
  | crossed parent spawner isParent noGroup older found other below deadline =>
      exact .crossed parent spawner isParent noGroup older (grows.tasks _ _ found) other
        (below.extend grows.tokens) deadline
  | grouped parent spawner group owner isParent isGroup older found same opened runs below
      deadline =>
      exact .grouped parent spawner group owner isParent isGroup older (grows.tasks _ _ found)
        same (grows.groups _ _ opened) runs (below.extend grows.tokens) deadline

theorem Opened.grow {runtime next : Runtime} {group : LocalScope} {task : Task}
    (opened : Opened runtime group task) (grows : Grows runtime next) :
    Opened next group task where
  runner := grows.tasks _ _ opened.runner
  below := opened.below.extend grows.tokens
  deadline := opened.deadline

/-- What a step has to show: the old parts grew, and the new ones were made as they should. -/
theorem Lineage.grow {runtime next : Runtime} (lineage : Lineage runtime)
    (grows : Grows runtime next) (tokens : World.Reachable Unit next.tokens)
    (marked : Marked next.tokens.reference next.cancelled)
    (scopes : ∀ (id : ScopeId) (scope : Scope),
      next.scopes[id]? = some scope → runtime.scopes[id]? ≠ some scope →
      Below next.tokens scope.options.cancellation [next.cancellation])
    (tasks : ∀ (id : TaskId) (task : Task),
      next.tasks[id]? = some task → runtime.tasks[id]? ≠ some task →
      ∃ scope, next.scopes[task.scope]? = some scope ∧ Born next id task scope)
    (groups : ∀ (id : GroupId) (group : LocalScope),
      next.groups[id]? = some group → runtime.groups[id]? ≠ some group →
      ∃ task, Opened next group task) : Lineage next where
  tokens := tokens
  marked := marked
  root := grows.cancellation ▸ lineage.root.extend grows.tokens
  scopes := by
    intro id scope found
    by_cases old : runtime.scopes[id]? = some scope
    · exact grows.cancellation ▸ (lineage.scopes id scope old).extend grows.tokens
    · exact scopes id scope found old
  tasks := by
    intro id task found
    by_cases old : runtime.tasks[id]? = some task
    · obtain ⟨scope, isScope, born⟩ := lineage.tasks id task old
      exact ⟨scope, grows.scopes _ _ isScope, born.grow grows⟩
    · exact tasks id task found old
  groups := by
    intro id group found
    by_cases old : runtime.groups[id]? = some group
    · obtain ⟨task, opened⟩ := lineage.groups id group old
      exact ⟨task, opened.grow grows⟩
    · exact groups id group found old

/-! ## Steps -/

@[simp] theorem returned_eq_some {α : Type} {computation : Checked α} {value : α} :
    returned computation = some value ↔ computation = .ok value := by
  cases computation <;> simp [returned, Except.toOption]

theorem live_lt {tokens : Tokens} (reachable : World.Reachable Unit tokens) {token : TokenId}
    (live : token ∈ tokens.live) : token < tokens.reference.count := by
  have agrees := reachable.agrees
  obtain ⟨entry, found, -⟩ := (agrees.live_iff token).mp live
  rw [← agrees.next_eq]
  exact agrees.settled.wf.lt_next found

/-- A new token is below its parents, and nothing else changes. -/
structure Inserts (tokens tokens' : Tokens) (token : TokenId) (parents : List TokenId) : Prop where
  reachable : World.Reachable Unit tokens'
  extends' : Extends tokens tokens'
  below : Below tokens' token parents
  marked : ∀ cancelled, Marked tokens.reference cancelled → Marked tokens'.reference cancelled

theorem insertToken_inserts {tokens tokens' : Tokens} {token : TokenId} {parents : List TokenId}
    (reachable : World.Reachable Unit tokens) (held : ∀ parent ∈ parents, parent ∈ tokens.live)
    (inserted : insertToken tokens parents = .ok (tokens', token)) :
    Inserts tokens tokens' token parents := by
  obtain ⟨⟨next, handles⟩, stepped, returned⟩ := bind_eq_ok.mp inserted
  cases returned
  have agrees := reachable.agrees
  have permits : tokens.Permits (.insert parents () : Op Unit Unit) := held
  have reachable' := World.Reachable.step reachable permits stepped
  obtain ⟨⟨id, graph, flag⟩, -, returned⟩ := bind_eq_ok.mp stepped
  cases returned
  have below : ∀ parent ∈ parents, parent < tokens.reference.count := fun parent member =>
    live_lt reachable (held parent member)
  refine ⟨reachable', ⟨Nat.le_succ _, ?_⟩, ⟨?_, ?_⟩, fun cancelled marked =>
    marked.insert agrees.ordered below⟩
  · intro old bound
    exact Function.update_of_ne (Nat.ne_of_lt bound) _ _
  · rw [agrees.next_eq]
    exact Nat.lt_succ_self _
  · rw [agrees.next_eq]
    exact Function.update_self ..

theorem child_inserts {self options : TaskOptions} {tokens tokens' : Tokens}
    {deadline : Option Instant} (reachable : World.Reachable Unit tokens)
    (held : self.cancellation ∈ tokens.live)
    (taken : self.child tokens deadline = .ok (tokens', options)) :
    Inserts tokens tokens' options.cancellation [self.cancellation] ∧
      options.deadline = earliest [self.deadline, deadline] := by
  obtain ⟨⟨next, token⟩, inserted, returned⟩ := bind_eq_ok.mp taken
  cases returned
  exact ⟨insertToken_inserts reachable (by simpa using held) inserted, rfl⟩

theorem spawned_inserts {self options : TaskOptions} {tokens tokens' : Tokens} {scope : ScopeId}
    {parent : SpawnParent} {deadline : Option Instant} (reachable : World.Reachable Unit tokens)
    (held : self.cancellation ∈ tokens.live)
    (heldParent : parent.options.cancellation ∈ tokens.live)
    (taken : self.spawned tokens scope (some parent) deadline = .ok (tokens', options)) :
    Inserts tokens tokens' options.cancellation
        (if parent.scope = scope then [parent.options.cancellation]
          else [parent.options.cancellation, self.cancellation]) ∧
      options.deadline = earliest [self.deadline, parent.options.deadline, deadline] := by
  rw [TaskOptions.spawned] at taken
  by_cases same : parent.scope = scope
  · rw [if_pos same] at taken ⊢
    obtain ⟨⟨next, token⟩, inserted, returned⟩ := bind_eq_ok.mp taken
    cases returned
    exact ⟨insertToken_inserts reachable (by simpa using heldParent) inserted, rfl⟩
  · rw [if_neg same] at taken ⊢
    obtain ⟨⟨next, token⟩, inserted, returned⟩ := bind_eq_ok.mp taken
    cases returned
    exact ⟨insertToken_inserts reachable (by simpa using ⟨heldParent, held⟩) inserted, rfl⟩

/-- An append keeps the entries of a list. -/
theorem getElem?_append_some {α : Type} {list : List α} {item entry : α} {index : Nat}
    (found : list[index]? = some entry) : (list ++ [item])[index]? = some entry := by
  obtain ⟨bound, -⟩ := List.getElem?_eq_some_iff.mp found
  rw [List.getElem?_append_left bound, found]

/-- The only new entry is the appended one. -/
theorem getElem?_append_new {α : Type} {list : List α} {item entry : α} {index : Nat}
    (found : (list ++ [item])[index]? = some entry) (new : list[index]? ≠ some entry) :
    index = list.length ∧ entry = item := by
  rcases Nat.lt_trichotomy index list.length with below | rfl | above
  · rw [List.getElem?_append_left below] at found
    exact absurd found new
  · simpa [eq_comm] using found
  · have outside : (list ++ [item]).length ≤ index := by simpa using above
    rw [List.getElem?_eq_none outside] at found
    cases found

theorem Lineage.beginOwned {runtime next : Runtime} {deadline : Option Instant}
    (lineage : Lineage runtime) (taken : runtime.beginOwned deadline = some next) :
    Lineage next := by
  simp only [Runtime.beginOwned, Option.bind_eq_bind, Option.bind_eq_some_iff,
    returned_eq_some, Option.pure_def, Option.some.injEq, Prod.exists,
    Option.guard_eq_some'] at taken
  obtain ⟨_, held, tokens, cancellation, inserted, rfl⟩ := taken
  have inserts := insertToken_inserts lineage.tokens held inserted
  have grows : Grows runtime { runtime with
      tokens, scopes := runtime.scopes ++ [⟨⟨cancellation, deadline⟩⟩] } :=
    ⟨inserts.extends', rfl, fun _ _ => getElem?_append_some, fun _ _ => id, fun _ _ => id⟩
  refine lineage.grow grows inserts.reachable (inserts.marked _ lineage.marked) ?_
    (fun id task found new => absurd found new) (fun id group found new => absurd found new)
  intro id scope found new
  obtain ⟨-, rfl⟩ := getElem?_append_new found new
  exact inserts.below

/-- A task is recorded only if its options pass the check. -/
theorem Lineage.reserveWith {runtime next : Runtime} {tokens : Tokens} {task : Task} {now : Instant}
    {parents : List TokenId} (scope : Scope) (lineage : Lineage runtime)
    (inserts : Inserts runtime.tokens tokens task.options.cancellation parents)
    (isScope : runtime.scopes[task.scope]? = some scope)
    (born : Born { runtime with tokens } runtime.tasks.length task scope)
    (taken : runtime.reserveWith tokens task now = some next) : Lineage next := by
  simp only [Runtime.reserveWith, Option.bind_eq_bind, Option.bind_eq_some_iff,
    returned_eq_some, Option.pure_def, Option.some.injEq] at taken
  obtain ⟨admitted, -, rfl⟩ := taken
  have marked := inserts.marked _ lineage.marked
  cases admitted with
  | false =>
      have grows : Grows runtime { runtime with tokens } :=
        ⟨inserts.extends', rfl, fun _ _ => id, fun _ _ => id, fun _ _ => id⟩
      exact lineage.grow grows inserts.reachable marked (fun id scope found new => absurd found new)
        (fun id task found new => absurd found new) (fun id group found new => absurd found new)
  | true =>
      have grows : Grows runtime { runtime with tokens, tasks := runtime.tasks ++ [task] } :=
        ⟨inserts.extends', rfl, fun _ _ => id, fun _ _ => getElem?_append_some, fun _ _ => id⟩
      have later : Grows { runtime with tokens }
          { runtime with tokens, tasks := runtime.tasks ++ [task] } :=
        ⟨.refl _, rfl, fun _ _ => id, fun _ _ => getElem?_append_some, fun _ _ => id⟩
      refine lineage.grow grows inserts.reachable marked
        (fun id scope found new => absurd found new) ?_
        (fun id group found new => absurd found new)
      intro id other found new
      obtain ⟨rfl, rfl⟩ := getElem?_append_new found new
      exact ⟨scope, isScope, born.grow later⟩

theorem Lineage.spawn {runtime next : Runtime} {scope : ScopeId} {parent : Option TaskId}
    {deadline : Option Instant} {now : Instant} (lineage : Lineage runtime)
    (taken : runtime.spawn scope parent deadline now = some next) : Lineage next := by
  simp only [Runtime.spawn, Option.bind_eq_bind, Option.bind_eq_some_iff,
    returned_eq_some, Prod.exists, Option.guard_eq_some'] at taken
  obtain ⟨owner, isScope, caller, called, _, held, _, heldCaller, tokens, options, spawned,
    admitted⟩ := taken
  have heldOwner : owner.options.cancellation ∈ runtime.tokens.live := held _ (by simp)
  cases parent with
  | none =>
      cases called
      obtain ⟨inserts, isDeadline⟩ := child_inserts lineage.tokens heldOwner spawned
      exact lineage.reserveWith owner inserts isScope
        (.outside rfl rfl inserts.below isDeadline) admitted
  | some id =>
      obtain ⟨spawner, isSpawner, rfl⟩ := Option.map_eq_some_iff.mp called
      obtain ⟨older, -⟩ := List.getElem?_eq_some_iff.mp isSpawner
      have heldSpawner : spawner.options.cancellation ∈ runtime.tokens.live :=
        heldCaller _ (by simp)
      obtain ⟨inserts, isDeadline⟩ :=
        spawned_inserts lineage.tokens heldOwner heldSpawner spawned
      refine lineage.reserveWith owner inserts isScope ?_ admitted
      by_cases same : spawner.scope = scope
      · have below := inserts.below
        rw [if_pos same] at below
        exact .sibling id spawner rfl rfl older isSpawner same below isDeadline
      · have below := inserts.below
        rw [if_neg same] at below
        exact .crossed id spawner rfl rfl older isSpawner same below isDeadline

theorem Lineage.openLocal {runtime next : Runtime} {id : TaskId} {deadline : Option Instant}
    (lineage : Lineage runtime) (taken : runtime.openLocal id deadline = some next) :
    Lineage next := by
  simp only [Runtime.openLocal, Option.bind_eq_bind, Option.bind_eq_some_iff,
    returned_eq_some, Option.pure_def, Option.some.injEq, Prod.exists,
    Option.guard_eq_some'] at taken
  obtain ⟨task, isTask, _, held, tokens, options, opened, rfl⟩ := taken
  obtain ⟨inserts, isDeadline⟩ :=
    child_inserts lineage.tokens (held _ (by simp)) opened
  refine lineage.grow ⟨inserts.extends', rfl, fun _ _ found => found, fun _ _ found => found,
    fun _ _ => getElem?_append_some⟩ inserts.reachable (inserts.marked _ lineage.marked)
    (fun id scope found new => absurd found new) (fun id task found new => absurd found new) ?_
  intro index group found new
  obtain ⟨-, rfl⟩ := getElem?_append_new found new
  exact ⟨task, isTask, inserts.below, isDeadline⟩

theorem Lineage.closeLocal {runtime next : Runtime} {id : TaskId} (lineage : Lineage runtime)
    (taken : runtime.closeLocal id = some next) : Lineage next := by
  cases taken
  refine lineage.grow ⟨.refl _, rfl, fun _ _ found => found, fun _ _ found => found,
    fun _ _ found => found⟩ lineage.tokens lineage.marked
    (fun id scope found new => absurd found new) (fun id task found new => absurd found new)
    (fun id group found new => absurd found new)

theorem Lineage.spawnLocal {runtime next : Runtime} {group : GroupId}
    {deadline : Option Instant} {now : Instant} (lineage : Lineage runtime)
    (taken : runtime.spawnLocal group deadline now = some next) : Lineage next := by
  simp only [Runtime.spawnLocal, Option.bind_eq_bind, Option.bind_eq_some_iff,
    returned_eq_some, Prod.exists, Option.guard_eq_some'] at taken
  obtain ⟨owner, isOwner, task, isTask, _, -, _, held, tokens, options, made, admitted⟩ := taken
  obtain ⟨inserts, isDeadline⟩ := child_inserts lineage.tokens (held _ (by simp)) made
  obtain ⟨scope, isScope, -⟩ := lineage.tasks _ _ isTask
  obtain ⟨older, -⟩ := List.getElem?_eq_some_iff.mp isTask
  refine lineage.reserveWith scope inserts ?_ ?_ admitted
  · exact isScope
  · exact .grouped owner.task task group owner rfl rfl older isTask rfl isOwner rfl inserts.below
      isDeadline

theorem Lineage.cancel {runtime next : Runtime} {token : TokenId} (lineage : Lineage runtime)
    (taken : runtime.cancel token = some next) : Lineage next := by
  simp only [Runtime.cancel, Option.bind_eq_bind, Option.bind_eq_some_iff, returned_eq_some,
    Option.pure_def, Option.some.injEq, Prod.exists, Option.guard_eq_some'] at taken
  obtain ⟨_, held, tokens, handles, stepped, rfl⟩ := taken
  have live : token ∈ runtime.tokens.live := held token (by simp)
  have permits : runtime.tokens.Permits (.cancel token some : Op Unit Unit) := live
  have reachable := World.Reachable.step lineage.tokens permits stepped
  obtain ⟨⟨graph, cancelled⟩, -, returned⟩ := bind_eq_ok.mp stepped
  cases returned
  refine lineage.grow ⟨⟨Nat.le_refl _, fun _ _ => rfl⟩, rfl, fun _ _ found => found,
    fun _ _ found => found, fun _ _ found => found⟩ reachable
    (lineage.marked.cancel (live_lt lineage.tokens live))
    (fun id scope found new => absurd found new) (fun id task found new => absurd found new)
    (fun id group found new => absurd found new)

theorem Lineage.dropToken {runtime next : Runtime} {token : TokenId} (lineage : Lineage runtime)
    (taken : runtime.dropToken token = some next) : Lineage next := by
  simp only [Runtime.dropToken, Option.bind_eq_bind, Option.bind_eq_some_iff, returned_eq_some,
    Option.pure_def, Option.some.injEq, Prod.exists, Option.guard_eq_some'] at taken
  obtain ⟨_, held, tokens, handles, stepped, rfl⟩ := taken
  have permits : runtime.tokens.Permits (.remove token : Op Unit Unit) := held token (by simp)
  have reachable := World.Reachable.step lineage.tokens permits stepped
  obtain ⟨graph, -, returned⟩ := bind_eq_ok.mp stepped
  cases returned
  refine lineage.grow ⟨⟨Nat.le_refl _, fun _ _ => rfl⟩, rfl, fun _ _ found => found,
    fun _ _ found => found, fun _ _ found => found⟩ reachable lineage.marked
    (fun id scope found new => absurd found new) (fun id task found new => absurd found new)
    (fun id group found new => absurd found new)

theorem Lineage.new {runtime : Runtime} (made : Runtime.new = .ok runtime) : Lineage runtime := by
  obtain ⟨⟨tokens, cancellation⟩, inserted, returned⟩ := bind_eq_ok.mp made
  cases returned
  have inserts := insertToken_inserts .initial (by simp) inserted
  have marked : Marked (World.initial : Tokens).reference [] := by
    refine ⟨by simp, fun id bound => ?_⟩
    exact absurd bound (Nat.not_lt_zero id)
  refine ⟨inserts.reachable, inserts.marked _ marked, inserts.below, ?_, ?_, ?_⟩ <;>
    · intro id entry found
      rw [List.getElem?_nil] at found
      cases found

theorem Lineage.perform {runtime next : Runtime} {action : Action} (lineage : Lineage runtime)
    (taken : runtime.perform action = some next) : Lineage next := by
  cases action with
  | beginOwned => exact lineage.beginOwned taken
  | spawn => exact lineage.spawn taken
  | openLocal => exact lineage.openLocal taken
  | closeLocal task => exact lineage.closeLocal taken
  | spawnLocal => exact lineage.spawnLocal taken
  | cancel token => exact lineage.cancel taken
  | dropToken token => exact lineage.dropToken taken

theorem Runtime.Reachable.lineage {runtime : Runtime} (reachable : Reachable runtime) :
    Lineage runtime := by
  induction reachable with
  | new made => exact .new made
  | step _ taken ih => exact ih.perform taken

end VThread.Policy
