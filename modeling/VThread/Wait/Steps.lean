import VThread.Wait.Decisions

/-!
# What a thread's own step establishes

Each atomic step is a change of the shared state and leads to a stage whose fact holds;
no step panics.
-/

namespace VThread.Wait

open VThread.Lib

variable {ι τ ρ η : Type} {thread : ι} {shared : Shared ι τ ρ η}

/-- What an own step has to establish. -/
def Own (thread : ι) (shared : Shared ι τ ρ η) (result : Shared ι τ ρ η × Pc τ ρ η) : Prop :=
  Change thread shared result.1 ∧ Local thread result.1 result.2

/-- A step that claims, publishes and completes nothing hands its debts on. -/
theorem Local.transfer {shared' : Shared ι τ ρ η} {pc pc' : Pc τ ρ η}
    (mine : Local thread shared pc) (inv : shared.Inv) (change : Change thread shared shared')
    (claims : ∀ generation,
      (shared'.history generation).claims = (shared.history generation).claims)
    (published : ∀ generation,
      (shared'.history generation).published = (shared.history generation).published)
    (completed : ∀ generation,
      (shared'.history generation).completed = (shared.history generation).completed)
    (owes : pc.owes = none ∨ pc'.owes = pc.owes) (owesCompletion : pc.owesCompletion = none)
    (fact : PcFact thread shared' pc') : Own thread shared (shared', pc') where
  left := change
  right := {
    fact := fact
    owes := by
      intro generation cause claimed unpublished
      rw [claims] at claimed
      rw [published] at unpublished
      have owed := mine.owes generation cause claimed unpublished
      rcases owes with nothing | same
      · rw [nothing] at owed
        cases owed
      · rw [same, owed]
    owesCompletion := by
      intro generation cause claimed isPublished interest incomplete
      rw [claims] at claimed
      rw [published] at isPublished
      rw [completed] at incomplete
      have owed := mine.owesCompletion generation cause claimed isPublished
        (change.interest_back inv isPublished interest) incomplete
      rw [owesCompletion] at owed
      cases owed }

/-- A step that leaves the shared state alone. -/
theorem Local.stay {pc pc' : Pc τ ρ η} (mine : Local thread shared pc) (inv : shared.Inv)
    (owes : pc.owes = none ∨ pc'.owes = pc.owes) (owesCompletion : pc.owesCompletion = none)
    (fact : PcFact thread shared pc') : Own thread shared (shared, pc') :=
  mine.transfer inv .same (fun _ => rfl) (fun _ => rfl) (fun _ => rfl) owes owesCompletion fact

/-- A running call goes on to a stage for the same generation. -/
theorem TokenFact.next {op : Op τ ρ η} {stage stage' : Stage τ ρ η}
    (tokens : TokenFact shared op stage)
    (same : ∀ generation ∈ stage'.generation?, stage.generation? = some generation)
    (begins : stage'.begins = true → op.token? = none) : TokenFact shared op stage' :=
  ⟨tokens.wait, tokens.issued, fun token member generation works =>
    tokens.generation token member generation (same generation works), begins⟩

/-- The tokens of a call are as good after a change. -/
theorem TokenFact.change {op : Op τ ρ η} {stage : Stage τ ρ η} {shared' : Shared ι τ ρ η}
    (tokens : TokenFact shared op stage) (change : Change thread shared shared')
    (inv : shared.Inv) : TokenFact shared' op stage :=
  ⟨fun token member => (tokens.wait token member).trans change.id_eq.symm,
    fun owner token member => Nat.le_trans (tokens.issued owner token member)
      (change.issued_le inv), tokens.generation, tokens.begins⟩

/-- A call that looks at the current word again. -/
theorem Local.retry {op : Op τ ρ η} {stage : Stage τ ρ η}
    (mine : Local thread shared (.run op stage)) (inv : shared.Inv) (expired : Bool)
    (owes : stage.owes = none) (owesCompletion : stage.owesCompletion = none) :
    Own thread shared
      (shared, settle op shared.cell.state (op.attempt expired shared.cell.state)) :=
  mine.stay inv (.inl owes) owesCompletion
    (settle_fact mine.fact.1.wait mine.fact.1.issued (attempt_fact inv op expired
      mine.fact.1.issued))

/-! ## Compare-exchanges -/

section Exchange

variable {op : Op τ ρ η} {next : WaitWord}

/-- The step after a successful compare-exchange. -/
theorem commit_own (inv : shared.Inv) (won : Won τ ρ η)
    (mine : Local thread shared (.run op (.exchange shared.cell.state next won))) :
    Own thread shared
      (shared.commit thread next won, continueWith shared.cell.id op next won) := by
  obtain ⟨tokens, fact⟩ := mine.fact
  cases won with
  | adjust =>
      obtain ⟨unbound, unclaimed, phase, generation, fallback, keeps, plain⟩ := fact
      exact mine.transfer inv
        (.adjust next unbound unclaimed phase generation fallback keeps)
        (fun _ => rfl) (fun _ => rfl) (fun _ => rfl) (.inl rfl) rfl (restFact_plain plain)
  | activate target =>
      obtain ⟨-, begins, phase, generation, permit, closed, primary, holds⟩ := fact
      let start (record : Record ι τ ρ η) : Record ι τ ρ η :=
        { record with target := some target }
      exact mine.transfer inv
        (.activate target next begins.idle begins.unpermitted phase generation permit closed
          (holds rfl) primary)
        ((shared.setState next).note_view next.generation start Record.claims rfl)
        ((shared.setState next).note_view next.generation start Record.published rfl)
        ((shared.setState next).note_view next.generation start Record.completed rfl)
        (.inl rfl) rfl (restFact_plain rfl)
  | bind target =>
      obtain ⟨none, idle, unpermitted, phase, generation, permit, closed⟩ := fact
      let start (record : Record ι τ ρ η) : Record ι τ ρ η :=
        { record with target := some target, binder := some thread }
      have change : Change thread shared ((shared.setState next).note next.generation start) :=
        .bind target next idle unpermitted phase generation permit closed
      refine mine.transfer inv change (Shared.note_view _ start Record.claims rfl)
        (Shared.note_view _ start Record.published rfl)
        (Shared.note_view _ start Record.completed rfl) (.inl rfl) rfl ?_
      refine ⟨(tokens.change change inv).next (fun _ none => nomatch none) (fun _ => none), rfl,
        phase, ?_, ?_⟩
      · exact congrArg Record.binder (Shared.note_self next.generation start)
      · exact congrArg Record.target (Shared.note_self next.generation start)
  | claim cause carrier outcome =>
      obtain ⟨active, phase, generation, fallback, permit, plain⟩ := fact
      have unpermitted : next.permit = false := permit (inv.quiet (.inl active)).1
      have untouched := (inv.current.untouched (.inr active)).1
      have change :
          Change thread shared (shared.commit thread next (.claim cause carrier outcome)) :=
        .claim cause next active phase generation fallback unpermitted
      have record : (shared.commit thread next (.claim cause carrier outcome)).history
          next.generation = { shared.now with claims := (thread, cause) :: shared.now.claims } := by
        rw [Shared.commit, Shared.note_self, Shared.setState_history, generation]
      refine ⟨change, ⟨⟨(tokens.change change inv).next ?_ (fun none => nomatch none), ?_⟩,
        ?_, ?_⟩⟩
      · intro generation' works
        cases works
        simp [Stage.generation?, generation]
      · refine ⟨⟨phase, unpermitted, ?_, ?_, ?_⟩, ?_, plain⟩
        · simp [Shared.commit, WaitWord.withPermit, ← unpermitted]
        · simp [record, untouched.claims]
        · simp [record, untouched.published]
        · simp [record, untouched.handed]
      · intro other otherCause claims published
        by_cases equal : other = next.generation
        · rw [equal]
          rfl
        · rw [Shared.commit, Shared.note_ne _ _ equal] at claims published
          cases mine.owes other otherCause claims published
      · intro other otherCause claims published interest completed
        by_cases equal : other = next.generation
        · rw [equal, record] at published
          exact (published untouched.published).elim
        · rw [Shared.commit, Shared.note_ne _ _ equal] at claims published interest completed
          cases mine.owesCompletion other otherCause claims published interest completed
  | interest =>
      obtain ⟨pending, claimed, unpermitted, rfl, token, member, generation⟩ := fact
      let mark (record : Record ι τ ρ η) : Record ι τ ρ η := { record with interest := true }
      refine mine.transfer inv (.interest claimed)
        (Shared.note_view _ mark Record.claims rfl)
        (Shared.note_view _ mark Record.published rfl)
        (Shared.note_view _ mark Record.completed rfl) (.inl rfl) rfl ⟨fun _ => ?_, ?_⟩
      · refine ⟨token, member, ?_⟩
        rw [generation]
        exact congrArg Record.interest (Shared.note_self shared.cell.state.generation mark)
      · intro cause resumed
        rw [resumed] at pending
        rcases pending with pending | pending <;> cases pending
  | finish cause =>
      obtain ⟨selected, phase, generation, permit, token, member, same⟩ := fact
      obtain ⟨winner, -, unfinished, -⟩ := inv.current.selected selected
      let finish (record : Record ι τ ρ η) : Record ι τ ρ η :=
        { record with finishes := [cause] ++ record.finishes, retired := true }
      refine mine.transfer inv
        (.retire next [cause] (.inr ⟨cause, selected, .inr rfl⟩) phase generation permit)
        (Shared.note_view _ finish Record.claims rfl)
        (Shared.note_view _ finish Record.published rfl)
        (Shared.note_view _ finish Record.completed rfl) (.inl rfl) rfl ⟨?_, ?_⟩
      · intro pending
        rcases pending with pending | pending <;> cases pending
      · intro other resumed
        cases resumed
        refine ⟨token, member, ?_⟩
        rw [same, ← generation, Shared.commit, Shared.note_self, Shared.setState_history,
          generation, ← Shared.now_eq, unfinished]
  | retire hub =>
      obtain ⟨retirable, rfl⟩ := fact
      let leave (record : Record ι τ ρ η) : Record ι τ ρ η :=
        { record with finishes := [] ++ record.finishes, retired := true }
      refine mine.transfer inv (.retire _ [] ?_ rfl rfl rfl)
        (Shared.note_view _ leave Record.claims rfl)
        (Shared.note_view _ leave Record.published rfl)
        (Shared.note_view _ leave Record.completed rfl) (.inl rfl) rfl (restFact_plain rfl)
      rcases retirable with active | ⟨cause, selected⟩
      · exact .inl ⟨active, rfl⟩
      · exact .inr ⟨cause, selected, .inl rfl⟩

/-- The compare-exchange of a call. -/
theorem exchange_own [DecidableEq ι] [DecidableEq τ] [DecidableEq ρ] [DecidableEq η]
    (inv : shared.Inv) (choice : Choice τ ρ η) {expected : WaitWord} {won : Won τ ρ η}
    (mine : Local thread shared (.run op (.exchange expected next won))) :
    Own thread shared (advanceStage thread choice shared op (.exchange expected next won)) := by
  rw [advanceStage]
  split
  · rename_i equal
    subst equal
    exact commit_own inv won mine
  split
  · exact mine.retry inv choice.expired rfl rfl
  · exact mine.stay inv (.inl rfl) rfl
      ⟨mine.fact.1.next (fun _ none => nomatch none) (fun none => nomatch none), trivial⟩

end Exchange

/-! ## Beginning -/

section Begin

variable {op : Op τ ρ η} {target : Target τ ρ η} {word : WaitWord}

/-- An activation with the cached target, or the binding of a new one. -/
theorem activation_own (inv : shared.Inv) {stage : Stage τ ρ η}
    (mine : Local thread shared (.run op stage)) (owes : stage.owes = none)
    (owesCompletion : stage.owesCompletion = none)
    (works : stage.generation? = some word.generation) (starts : stage.begins = true)
    (begins : Beginnable shared word) (cached : Option Bool)
    (holds : ∀ fallback ∈ cached, shared.cell.primaryHub.isSome ∧
      (word.generation = shared.cell.state.generation → shared.cell.Holds target fallback)) :
    Own thread shared (shared, activation op target word cached) := by
  have token := mine.fact.1.begins starts
  cases cached with
  | none =>
      refine mine.stay inv (.inl owes) owesCompletion
        ⟨mine.fact.1.next ?_ (fun none => nomatch none), ?_⟩
      · exact fun generation same => works.trans same
      · exact ⟨token, begins.idle, begins.unpermitted, rfl, rfl, begins.unpermitted,
          begins.unclosed⟩
  | some fallback =>
      obtain ⟨primary, reads⟩ := holds fallback rfl
      refine mine.stay inv (.inl owes) owesCompletion
        ⟨mine.fact.1.next ?_ (fun none => nomatch none), ?_⟩
      · exact fun generation same => works.trans same
      · exact ⟨token, begins, rfl, rfl, begins.unpermitted, begins.unclosed, primary, reads⟩

/-- The binder writes one field of the target and goes on binding. -/
theorem write_own (inv : shared.Inv) {stage stage' : Stage τ ρ η}
    (mine : Local thread shared (.run op stage)) (owes : stage.owes = none)
    (owesCompletion : stage.owesCompletion = none) (starts : stage.begins = true)
    (works : stage'.generation? = none) (bound : Binder thread shared target word)
    (cell : Cell τ ρ η)
    (sameId : cell.id = shared.cell.id) (state : cell.state = shared.cell.state)
    (task : shared.cell.task.isSome → cell.task.isSome)
    (route : shared.cell.route.isSome → cell.route.isSome)
    (primary : shared.cell.primaryHub.isSome → cell.primaryHub.isSome)
    (fallback : shared.cell.fallbackHub.isSome → cell.fallbackHub.isSome)
    (fact : Binder thread { shared with cell } target word →
      StageFact thread { shared with cell } op stage') :
    Own thread shared ({ shared with cell }, .run op stage') := by
  have binding : shared.cell.state.phase = .binding := by
    rw [bound.state]
    exact bound.binding
  have change : Change thread shared { shared with cell } :=
    .write cell binding bound.binder sameId state task route primary fallback
  refine mine.transfer inv change (fun _ => rfl) (fun _ => rfl) (fun _ => rfl) (.inl owes)
    owesCompletion ⟨(mine.fact.1.change change inv).next ?_ (fun _ => mine.fact.1.begins starts),
      fact ?_⟩
  · simp [works]
  · refine ⟨state.trans bound.state, bound.binding, ?_, ?_⟩
    · rw [Shared.now_eq]
      simp only [state]
      exact bound.binder
    · rw [Shared.now_eq]
      simp only [state]
      exact bound.target_eq

variable [DecidableEq ι] [DecidableEq τ] [DecidableEq ρ] [DecidableEq η]

/-- The steps of `cached_target`. -/
theorem cached_own (inv : shared.Inv) (choice : Choice τ ρ η) {stage : Stage τ ρ η}
    (mine : Local thread shared (.run op stage))
    (cached : stage = .cachedTask target word ∨ stage = .cachedRoute target word ∨
      stage = .cachedPrimary target word ∨ stage = .cachedFallback target word) :
    Own thread shared (advanceStage thread choice shared op stage) := by
  have fact := mine.fact.2
  rcases cached with rfl | rfl | rfl | rfl
  · rw [advanceStage]
    split
    · rename_i task
      exact mine.stay inv (.inl rfl) rfl ⟨mine.fact.1.next (fun _ same => same)
        (fun _ => mine.fact.1.begins rfl), fact,
        fun _ => task⟩
    · exact activation_own inv mine rfl rfl rfl rfl fact none (fun _ none => nomatch none)
  · rw [advanceStage]
    split
    · rename_i route
      exact mine.stay inv (.inl rfl) rfl ⟨mine.fact.1.next (fun _ same => same)
        (fun _ => mine.fact.1.begins rfl), fact.1,
        fun current => ⟨fact.2 current, route⟩⟩
    · exact activation_own inv mine rfl rfl rfl rfl fact.1 none (fun _ none => nomatch none)
  · rw [advanceStage]
    split
    · exact activation_own inv mine rfl rfl rfl rfl fact.1 none (fun _ none => nomatch none)
    rename_i primary known
    split
    · rename_i same
      refine activation_own inv mine rfl rfl rfl rfl fact.1 (some false) ?_
      intro fallback member
      cases member
      exact ⟨by simp [known], fun current => ⟨(fact.2 current).1, (fact.2 current).2,
        by simp [known, same]⟩⟩
    · exact mine.stay inv (.inl rfl) rfl ⟨mine.fact.1.next (fun _ same => same)
        (fun _ => mine.fact.1.begins rfl), fact.1,
        by simp [known], fact.2⟩
  · rw [advanceStage]
    split
    · rename_i hub
      refine activation_own inv mine rfl rfl rfl rfl fact.1 (some true) ?_
      intro fallback member
      cases member
      exact ⟨fact.2.1, fun current => ⟨(fact.2.2 current).1, (fact.2.2 current).2,
        by simp [hub]⟩⟩
    · exact activation_own inv mine rfl rfl rfl rfl fact.1 none (fun _ none => nomatch none)

/-- The steps of `bind_target`. -/
theorem bind_own (inv : shared.Inv) (choice : Choice τ ρ η) {stage : Stage τ ρ η}
    (mine : Local thread shared (.run op stage))
    (binds : stage = .bindTask target word ∨ stage = .bindRoute target word ∨
      stage = .bindPeek target word ∨ stage = .bindSet target word ∨
      stage = .bindGet target word ∨ stage = .bindFallback target word) :
    Own thread shared (advanceStage thread choice shared op stage) := by
  have fact := mine.fact.2
  rcases binds with rfl | rfl | rfl | rfl | rfl | rfl
  · exact write_own inv mine rfl rfl rfl rfl fact _ rfl rfl (fun _ => rfl) id id id
      fun bound => ⟨bound, rfl⟩
  · obtain ⟨bound, task⟩ := fact
    exact write_own inv mine rfl rfl rfl rfl bound _ rfl rfl id (fun _ => rfl) id id
      fun bound => ⟨bound, task, rfl⟩
  · rw [advanceStage]
    split
    · exact mine.stay inv (.inl rfl) rfl
        ⟨mine.fact.1.next (fun _ none => nomatch none)
        (fun _ => mine.fact.1.begins rfl), fact⟩
    · rename_i primary known
      exact mine.stay inv (.inl rfl) rfl ⟨mine.fact.1.next (fun _ none => nomatch none)
        (fun _ => mine.fact.1.begins rfl),
        fact.1, fact.2.1, fact.2.2, by simp [known]⟩
  · obtain ⟨bound, task, route⟩ := fact
    have known : (shared.cell.primaryHub.or (some target.hub)).isSome = true := by
      cases shared.cell.primaryHub <;> rfl
    exact write_own inv mine rfl rfl rfl rfl bound _ rfl rfl id id (fun _ => known) id
      fun bound => ⟨bound, task, route, known⟩
  · rw [advanceStage]
    obtain ⟨bound, task, route, known⟩ := fact
    split
    · rename_i unknown
      rw [unknown] at known
      cases known
    rename_i primary equal
    split
    · rename_i same
      exact mine.stay inv (.inl rfl) rfl ⟨mine.fact.1.next (fun _ none => nomatch none)
        (fun _ => mine.fact.1.begins rfl),
        bound, ⟨task, route, by simp [equal, same]⟩, known⟩
    · exact mine.stay inv (.inl rfl) rfl ⟨mine.fact.1.next (fun _ none => nomatch none)
        (fun _ => mine.fact.1.begins rfl),
        bound, task, route, known⟩
  · obtain ⟨bound, task, route, known⟩ := fact
    exact write_own inv mine rfl rfl rfl rfl bound _ rfl rfl id id id (fun _ => rfl)
      fun bound => ⟨bound, ⟨task, route, rfl⟩, known⟩

/-- The store that ends a binding. -/
theorem bindStore_own (inv : shared.Inv) (choice : Choice τ ρ η) {fallback : Bool}
    (mine : Local thread shared (.run op (.bindStore target word fallback))) :
    Own thread shared (advanceStage thread choice shared op (.bindStore target word fallback)) := by
  obtain ⟨bound, holds, primary⟩ := mine.fact.2
  have state := bound.state
  have change : Change thread shared
      { shared.setState ((word.withFallbackHub fallback).withPhase .active) with
        issued := word.generation } := by
    subst state
    exact .opened target _ bound.binding bound.binder bound.target_eq rfl rfl rfl rfl holds
      primary
  exact mine.transfer inv change (fun _ => rfl) (fun _ => rfl) (fun _ => rfl) (.inl rfl) rfl
    (restFact_plain rfl)

end Begin

/-! ## Reading the target -/

section Read

variable {op : Op τ ρ η} {word : WaitWord}

/-- The word of an unpublished winner, up to the interest bit. -/
theorem Enqueuing.now {cause : WakeCause} (fact : Enqueuing thread shared cause word) :
    shared.cell.state.phase = .claim cause ∧
      shared.cell.state.generation = word.generation ∧
      shared.cell.state.fallbackHub = word.fallbackHub := by
  have state := fact.state
  rw [← fact.phase, ← state]
  exact ⟨rfl, rfl, rfl⟩

theorem Completing.now (fact : Completing thread shared word) :
    ∃ cause, shared.cell.state.phase = .claim cause ∧
      shared.cell.state.generation = word.generation ∧
      shared.cell.state.fallbackHub = word.fallbackHub := by
  obtain ⟨cause, phase, -⟩ := fact.claimed
  rw [fact.state]
  exact ⟨cause, phase, rfl, rfl⟩

/-- The target of a claimed generation is still in the cell. -/
theorem Shared.Inv.target (inv : shared.Inv) {cause : WakeCause}
    (phase : shared.cell.state.phase = .claim cause)
    (generation : shared.cell.state.generation = word.generation)
    (fallback : shared.cell.state.fallbackHub = word.fallbackHub) :
    ∃ target, (shared.history word.generation).target = some target ∧
      shared.cell.Holds target word.fallbackHub := by
  have live : shared.cell.state.phase ≠ .idle := by simp [phase]
  obtain ⟨-, target, target_eq⟩ := inv.started live
  have holds := inv.bound live (by simp [phase]) target target_eq
  rw [fallback] at holds
  rw [Shared.now_eq, generation] at target_eq
  exact ⟨target, target_eq, holds⟩

/-- A later read knows what the first one knew. -/
theorem readTask_of_readRoute {use : Use η} {task : τ}
    (fact : StageFact thread shared op (.readRoute use word task)) :
    StageFact thread shared op (.readTask use word) := by
  cases use with
  | enqueue => exact ⟨fact.1, fact.2.1, fact.2.2.2⟩
  | complete => exact fact
  | clone => exact fact

theorem readRoute_of_readHub {use : Use η} {task : τ} {route : ρ}
    (fact : StageFact thread shared op (.readHub use word task route)) :
    StageFact thread shared op (.readRoute use word task) := by
  cases use with
  | enqueue =>
      exact ⟨fact.1, fact.2.1, fact.2.2.1, fact.2.2.2.2⟩
  | complete => exact fact
  | clone => exact fact

/-- A winner reads the target of its generation. -/
theorem Shared.Inv.winnerTarget (inv : shared.Inv) {use : Use η} (reads : use ≠ .clone)
    (fact : StageFact thread shared op (.readTask use word)) :
    ∃ target, (shared.history word.generation).target = some target ∧
      shared.cell.Holds target word.fallbackHub := by
  cases use with
  | enqueue =>
      obtain ⟨phase, generation, fallback⟩ := fact.1.now
      exact inv.target phase generation fallback
  | complete =>
      obtain ⟨cause, phase, generation, fallback⟩ := fact.1.now
      exact inv.target phase generation fallback
  | clone => exact (reads rfl).elim

/-- The target fields a reader finds are set. -/
theorem Shared.Inv.readable (inv : shared.Inv) {use : Use η}
    (fact : StageFact thread shared op (.readTask use word)) :
    shared.cell.task.isSome ∧ shared.cell.route.isSome ∧
      ∃ hub, shared.cell.hubFor word = .ok hub ∧
        (use ≠ .clone → ∀ target, (shared.history word.generation).target = some target →
          target.hub = hub) := by
  by_cases reads : use = .clone
  · subst reads
    obtain ⟨retirable, issued, fallback⟩ := fact
    obtain ⟨task, route, primary⟩ := inv.initialised issued
    refine ⟨task, route, ?_⟩
    rw [Cell.hubFor]
    split
    · rename_i usesFallback
      obtain ⟨hub, equal⟩ := Option.isSome_iff_exists.1 (fallback usesFallback)
      exact ⟨hub, by rw [equal]; rfl, fun other => (other rfl).elim⟩
    · obtain ⟨hub, equal⟩ := Option.isSome_iff_exists.1 primary
      exact ⟨hub, by rw [equal]; rfl, fun other => (other rfl).elim⟩
  · obtain ⟨target, target_eq, task, route, hub⟩ := inv.winnerTarget reads fact
    refine ⟨by simp [task], by simp [route], target.hub, ?_, ?_⟩
    · rw [Cell.hubFor]
      split
      · rename_i usesFallback
        rw [if_pos usesFallback] at hub
        rw [hub]
        rfl
      · rename_i usesPrimary
        rw [if_neg usesPrimary] at hub
        rw [hub]
        rfl
    · intro _ other other_eq
      rw [target_eq] at other_eq
      cases other_eq
      rfl

/-- A winner has not published when it reads. -/
theorem unpublished_of_read {use : Use η}
    (fact : StageFact thread shared op (.readTask use word)) :
    use = .clone ∨ (shared.history word.generation).published = [] := by
  cases use with
  | enqueue | complete => exact .inr fact.1.published
  | clone => exact .inl rfl

/-- No read comes late. -/
theorem noteRead_self [DecidableEq ι] {use : Use η}
    (fact : StageFact thread shared op (.readTask use word)) :
    shared.noteRead thread use word.generation = shared := by
  have unchanged : (shared.history word.generation).published = [] →
      (shared.note word.generation fun record => { record with lateReads := record.lateReads +
        (record.published.filter fun entry => entry.1 = thread).length }) = shared := by
    intro unpublished
    have same : { shared.history word.generation with
        lateReads := (shared.history word.generation).lateReads +
          ((shared.history word.generation).published.filter
            fun entry => entry.1 = thread).length } = shared.history word.generation := by
      rw [unpublished]
      rfl
    rw [Shared.note, same, Function.update_eq_self]
  rcases unpublished_of_read fact with rfl | unpublished
  · rfl
  · cases use with
    | enqueue | complete => exact unchanged unpublished
    | clone => rfl

/-- Handing the notice over. -/
theorem hand_own (inv : shared.Inv) {stage : Stage τ ρ η} {cause : WakeCause}
    {outcome : Outcome η} {target : Target τ ρ η} (mine : Local thread shared (.run op stage))
    (owes : stage.owes = some word.generation) (owesCompletion : stage.owesCompletion = none)
    (works : stage.generation? = some word.generation)
    (fact : Enqueuing thread shared cause word)
    (unhanded : (shared.history word.generation).handed = [])
    (target_eq : (shared.history word.generation).target = some target)
    (plain : outcome.isPlain = true) (carrier : Bool) :
    Own thread shared
      (shared.handNotice thread cause carrier word target, .run op (.publish outcome word)) := by
  obtain ⟨phase, generation, -⟩ := fact.now
  have change : Change thread shared (shared.handNotice thread cause carrier word target) := by
    have changed : Change thread shared
        (shared.handNotice thread cause carrier shared.cell.state target) := by
      rw [← generation] at unhanded target_eq
      refine .hand cause carrier target phase ?_ unhanded target_eq
      rw [Shared.now_eq, generation]
      exact fact.claims
    rw [Shared.handNotice, generation] at changed
    exact changed
  let append (record : Record ι τ ρ η) : Record ι τ ρ η :=
    { record with handed :=
        ⟨thread, carrier, target.hub, target.notice shared.cell.id word.generation cause⟩ ::
          record.handed }
  have claims := shared.note_view word.generation append Record.claims rfl
  have published := shared.note_view word.generation append Record.published rfl
  have completed := shared.note_view word.generation append Record.completed rfl
  refine mine.transfer inv change claims published completed (.inr owes.symm) owesCompletion ?_
  refine ⟨(mine.fact.1.change change inv).next (fun _ same => works.trans same)
    (by rintro ⟨⟩), ?_, plain⟩
  refine ⟨cause, ⟨fact.phase, fact.permit, fact.state, ?_, ?_⟩, target, carrier, ?_, ?_⟩
  · exact (claims word.generation).trans fact.claims
  · exact (published word.generation).trans fact.published
  · exact (shared.note_view word.generation append Record.target rfl word.generation).trans
      target_eq
  · rw [Shared.handNotice, Shared.note_self, unhanded]
    rfl

variable [DecidableEq ι] [DecidableEq τ] [DecidableEq ρ] [DecidableEq η]

theorem readTask_own (inv : shared.Inv) (choice : Choice τ ρ η) {use : Use η}
    (mine : Local thread shared (.run op (.readTask use word))) :
    Own thread shared (advanceStage thread choice shared op (.readTask use word)) := by
  obtain ⟨tokens, fact⟩ := mine.fact
  obtain ⟨task, equal⟩ := Option.isSome_iff_exists.1 (inv.readable fact).1
  rw [advanceStage, noteRead_self fact, equal]
  refine mine.stay inv (.inr (by cases use <;> rfl)) rfl ⟨tokens.next (fun _ same => same)
    (fun none => nomatch none), ?_⟩
  cases use with
  | enqueue => exact ⟨fact.1, fact.2.1, equal, fact.2.2⟩
  | complete => exact fact
  | clone => exact fact

theorem readRoute_own (inv : shared.Inv) (choice : Choice τ ρ η) {use : Use η} {task : τ}
    (mine : Local thread shared (.run op (.readRoute use word task))) :
    Own thread shared (advanceStage thread choice shared op (.readRoute use word task)) := by
  obtain ⟨tokens, fact⟩ := mine.fact
  have first := readTask_of_readRoute fact
  obtain ⟨route, equal⟩ := Option.isSome_iff_exists.1 (inv.readable first).2.1
  rw [advanceStage, noteRead_self first, equal]
  refine mine.stay inv (.inr (by cases use <;> rfl)) rfl ⟨tokens.next (fun _ same => same)
    (fun none => nomatch none), ?_⟩
  cases use with
  | enqueue => exact ⟨fact.1, fact.2.1, fact.2.2.1, equal, fact.2.2.2⟩
  | complete => exact fact
  | clone => exact fact

theorem readHub_own (inv : shared.Inv) (choice : Choice τ ρ η) {use : Use η} {task : τ}
    {route : ρ} (mine : Local thread shared (.run op (.readHub use word task route))) :
    Own thread shared (advanceStage thread choice shared op (.readHub use word task route)) := by
  obtain ⟨tokens, fact⟩ := mine.fact
  have first := readTask_of_readRoute (readRoute_of_readHub fact)
  obtain ⟨-, -, hub, known, owned⟩ := inv.readable first
  rw [advanceStage]
  simp only [noteRead_self first, known]
  cases use with
  | enqueue =>
      obtain ⟨enqueuing, unhanded, task_eq, route_eq, plain⟩ := fact
      obtain ⟨target, target_eq, holds⟩ := inv.winnerTarget (by simp) first
      have same : (⟨task, route, hub⟩ : Target τ ρ η) = target := by
        rw [holds.1] at task_eq
        rw [holds.2.1] at route_eq
        cases task_eq
        cases route_eq
        rw [← owned (by simp) target target_eq]
      simp only [same]
      split
      · exact hand_own inv mine rfl rfl rfl enqueuing unhanded target_eq plain _
      · exact mine.stay inv (.inr rfl) rfl ⟨tokens.next (fun _ works => works)
        (fun none => nomatch none), enqueuing,
          unhanded, target_eq, plain⟩
  | complete =>
      obtain ⟨target, target_eq, -⟩ := inv.winnerTarget (by simp) first
      exact mine.stay inv (.inr rfl) rfl ⟨tokens.next (fun _ works => works)
        (fun none => nomatch none), fact.1,
        ⟨target, target_eq, owned (by simp) target target_eq⟩, fact.2⟩
  | clone =>
      exact mine.stay inv (.inl rfl) rfl ⟨tokens.next (fun _ works => works)
        (fun none => nomatch none), fact.retirable,
        rfl⟩

end Read

/-! ## Publication -/

section Publish

variable {op : Op τ ρ η} {word : WaitWord}

/-- The winner publishes the word it holds and goes on to `pc'`. -/
theorem publish_own (inv : shared.Inv) {stage : Stage τ ρ η} {cause : WakeCause}
    {pc' : Pc τ ρ η} (mine : Local thread shared (.run op stage))
    (owes : stage.owes = some shared.cell.state.generation)
    (owesCompletion : stage.owesCompletion = none)
    (phase : shared.cell.state.phase = .claim cause)
    (claims : shared.now.claims = [(thread, cause)])
    (delivered : shared.now.Delivered shared.cell.id shared.cell.state.generation thread cause)
    (settled : shared.now.interest = true →
      pc'.owesCompletion = some shared.cell.state.generation)
    (fact : ∀ shared' : Shared ι τ ρ η, Change thread shared shared' →
      shared'.now = { shared.now with published := [(thread, some cause)] } →
      shared'.cell.state.generation = shared.cell.state.generation →
      PcFact thread shared' pc') :
    Own thread shared
      ((shared.setState ((shared.cell.state.withPermit false).withPhase (.selected cause))).note
        shared.cell.state.generation fun record =>
          { record with published := (thread, some cause) :: record.published }, pc') := by
  obtain ⟨-, -, unpublished, -⟩ := inv.current.claimed phase
  refine ⟨.publish cause _ phase claims delivered rfl, ?_, ?_, ?_⟩
  · refine fact _ (.publish cause _ phase claims delivered rfl) ?_ rfl
    dsimp only [Shared.now, Shared.note_cell, Shared.setState_cell]
    change (Shared.note _ shared.cell.state.generation _).history
      shared.cell.state.generation = _
    rw [Shared.note_self, Shared.setState_history, unpublished]
  · intro other otherCause otherClaims otherPublished
    by_cases equal : other = shared.cell.state.generation
    · subst equal
      rw [Shared.note_self] at otherPublished
      cases otherPublished
    · rw [Shared.note_ne _ _ equal] at otherClaims otherPublished
      have owed := mine.owes other otherCause otherClaims otherPublished
      rw [show (Pc.run op stage).owes = stage.owes from rfl, owes] at owed
      cases owed
      exact (equal rfl).elim
  · intro other otherCause otherClaims otherPublished interest completed
    by_cases equal : other = shared.cell.state.generation
    · subst equal
      rw [Shared.note_self] at interest
      exact settled interest
    · rw [Shared.note_ne _ _ equal] at otherClaims otherPublished interest completed
      have owed :=
        mine.owesCompletion other otherCause otherClaims otherPublished interest completed
      rw [show (Pc.run op stage).owesCompletion = stage.owesCompletion from rfl,
        owesCompletion] at owed
      cases owed

theorem publishClaim_ok {cause : WakeCause} (phase : word.phase = .claim cause) :
    word.publishClaim = .ok (word.withPhase (.selected cause)) := by
  rw [WaitWord.publishClaim, phase]
  rfl

variable [DecidableEq ι] [DecidableEq τ] [DecidableEq ρ] [DecidableEq η]

theorem publishStage_own (inv : shared.Inv) (choice : Choice τ ρ η) {outcome : Outcome η}
    (mine : Local thread shared (.run op (.publish outcome word))) :
    Own thread shared (advanceStage thread choice shared op (.publish outcome word)) := by
  obtain ⟨tokens, ⟨cause, fact, delivered⟩, plain⟩ := mine.fact
  obtain ⟨phase, generation, -⟩ := fact.now
  have claimed : shared.cell.state.isClaimed = true := WaitWord.isClaimed_iff.2 ⟨cause, phase⟩
  have own : ∃ other, word.publishClaim = .ok other := ⟨_, publishClaim_ok fact.phase⟩
  rw [advanceStage, publishClaim_ok fact.phase]
  dsimp only
  split
  · rename_i equal
    subst equal
    have unregistered : shared.now.interest = false := by
      have permit := inv.permit_eq
      rw [claimed, fact.permit] at permit
      exact permit.symm
    have next : (shared.cell.state.withPermit false).withPhase (.selected cause) =
        shared.cell.state.withPhase (.selected cause) := by
      rw [fact.state]
    rw [← next]
    exact publish_own inv mine rfl rfl phase fact.claims delivered
      (fun interest => by rw [unregistered] at interest; cases interest)
      fun _ _ _ _ => restFact_plain plain
  rename_i changed
  split
  · rename_i other
    exact (other fact.state).elim
  split
  · rename_i unpermitted
    -- Without the permit bit the word is the claimed one.
    have same : shared.cell.state.withPermit false = shared.cell.state := by
      have unset : shared.cell.state.permit = false := by simpa using unpermitted
      rw [WaitWord.withPermit, ← unset]
    exact (changed (same.symm.trans fact.state)).elim
  · rename_i permit
    have permit : shared.cell.state.permit = true := by simpa using permit
    refine mine.stay inv (.inr ?_) rfl ⟨tokens.next ?_ (by rintro ⟨⟩),
      ⟨permit, rfl, ⟨cause, phase, ?_, ?_⟩, ?_⟩, plain⟩
    · exact congrArg some generation
    · rintro _ ⟨⟩
      exact congrArg some generation.symm
    · rw [generation]
      exact fact.claims
    · rw [generation]
      exact delivered
    · rw [generation]
      exact fact.published

theorem republish_own (inv : shared.Inv) (choice : Choice τ ρ η) {outcome : Outcome η} {hub : η}
    (mine : Local thread shared (.run op (.republish outcome word hub))) :
    Own thread shared (advanceStage thread choice shared op (.republish outcome word hub)) := by
  obtain ⟨tokens, fact, ⟨target, target_eq, hub_eq⟩, plain⟩ := mine.fact
  obtain ⟨cause, wordPhase, claims, delivered⟩ := fact.claimed
  have state := fact.state
  subst state
  have claimed : shared.cell.state.isClaimed = true :=
    WaitWord.isClaimed_iff.2 ⟨cause, wordPhase⟩
  have interest : shared.now.interest = true := inv.interested claimed fact.permit
  obtain ⟨-, -, -, incomplete, -⟩ := inv.current.claimed wordPhase
  rw [advanceStage, publishClaim_ok wordPhase]
  dsimp only
  rw [if_pos rfl]
  refine publish_own inv mine rfl rfl wordPhase claims delivered (fun _ => rfl) ?_
  intro shared' change now generation
  refine ⟨(tokens.change change inv).next (fun _ same => same)
    (fun none => nomatch none), ?_⟩
  rw [Shared.now_eq, generation] at now
  have won : (shared'.history shared.cell.state.generation).Won shared'.cell.id
      shared.cell.state.generation thread cause := by
    apply (change.inv inv).won
    · rw [now]
      exact claims
    · rw [now]
      simp
  refine ⟨⟨cause, won⟩, ?_, ?_, ⟨target, ?_, hub_eq⟩, plain⟩
  · rw [now]
    exact interest
  · rw [now]
    exact incomplete
  · rw [now]
    exact target_eq

theorem complete_own (choice : Choice τ ρ η) {outcome : Outcome η}
    {generation : Nat} {hub : η}
    (mine : Local thread shared (.run op (.complete outcome generation hub))) :
    Own thread shared
      (advanceStage thread choice shared op (.complete outcome generation hub)) := by
  obtain ⟨tokens, ⟨cause, won⟩, interest, incomplete, ⟨target, target_eq, rfl⟩, plain⟩ := mine.fact
  refine ⟨.complete generation cause target won interest incomplete target_eq,
    restFact_plain plain, ?_, ?_⟩
  · intro other otherCause claims published
    let complete (record : Record ι τ ρ η) : Record ι τ ρ η :=
      { record with completed := (thread, target.hub) :: record.completed }
    have sameClaims := shared.note_view generation complete Record.claims rfl other
    have samePublished := shared.note_view generation complete Record.published rfl other
    cases mine.owes other otherCause (sameClaims.symm.trans claims)
      (samePublished.symm.trans published)
  · intro other otherCause claims published registered completed
    rw [advanceStage] at claims published registered completed
    by_cases equal : other = generation
    · subst equal
      rw [Shared.note_self] at completed
      cases completed
    · rw [Shared.note_ne _ _ equal] at claims published registered completed
      have owed :=
        mine.owesCompletion other otherCause claims published registered completed
      cases owed
      exact (equal rfl).elim

end Publish

/-! ## All steps -/

section Reachable

/-- A call starts with what its stage needs. -/
theorem call_fact (op : Op τ ρ η) (permits : shared.Permits op) :
    PcFact thread shared (op.call shared.cell.id) := by
  rw [Op.call]
  split
  · rename_i wait
    refine ⟨⟨wait, fun owner token member => permits owner token member (wait token member), ?_,
      fun begins => ?_⟩, ?_⟩
    · intro token member generation works
      cases op <;> cases member <;> cases works <;> rfl
    · cases op <;> cases begins
    · cases op with
      | finishPlainReady token => exact ⟨rfl, rfl, rfl, rfl, token, rfl, rfl⟩
      | finishPermitReady token => exact ⟨rfl, rfl, rfl, rfl, token, rfl, rfl⟩
      | _ => trivial
  · apply restFact_plain
    cases op <;> rfl

theorem initial_inv (id : Nat) : (Shared.initial id : Shared ι τ ρ η).Inv where
  permit_eq := rfl
  claimed_unstored := fun _ => rfl
  quiet := fun live => by rcases live with live | live <;> cases live
  issued_eq := rfl
  started := fun live => (live rfl).elim
  initialised := fun positive => by cases positive
  bound := fun live => (live rfl).elim
  future := fun _ _ => rfl
  past := fun _ below => by cases below
  current := by
    have ended : (Record.empty : Record ι τ ρ η).Over id 0 :=
      ⟨fun positive => absurd positive (Nat.lt_irrefl 0), .inl Record.untouched_empty⟩
    exact ended

theorem initial_local (id : Nat) (thread : ι) :
    Local thread (Shared.initial id : Shared ι τ ρ η) (.rest none) where
  fact := trivial
  owes := fun _ _ claims => by cases claims
  owesCompletion := fun _ _ claims => by cases claims

variable [DecidableEq ι] [DecidableEq τ] [DecidableEq ρ] [DecidableEq η]

theorem advanceStage_own (inv : shared.Inv) (choice : Choice τ ρ η) {op : Op τ ρ η}
    {stage : Stage τ ρ η} (mine : Local thread shared (.run op stage)) :
    Own thread shared (advanceStage thread choice shared op stage) := by
  cases stage with
  | load => exact mine.retry inv choice.expired rfl rfl
  | exchange => exact exchange_own inv choice mine
  | cachedTask => exact cached_own inv choice mine (.inl rfl)
  | cachedRoute => exact cached_own inv choice mine (.inr (.inl rfl))
  | cachedPrimary => exact cached_own inv choice mine (.inr (.inr (.inl rfl)))
  | cachedFallback => exact cached_own inv choice mine (.inr (.inr (.inr rfl)))
  | bindTask => exact bind_own inv choice mine (.inl rfl)
  | bindRoute => exact bind_own inv choice mine (.inr (.inl rfl))
  | bindPeek => exact bind_own inv choice mine (.inr (.inr (.inl rfl)))
  | bindSet => exact bind_own inv choice mine (.inr (.inr (.inr (.inl rfl))))
  | bindGet => exact bind_own inv choice mine (.inr (.inr (.inr (.inr (.inl rfl)))))
  | bindFallback =>
      exact bind_own inv choice mine (.inr (.inr (.inr (.inr (.inr rfl)))))
  | bindStore => exact bindStore_own inv choice mine
  | readTask => exact readTask_own inv choice mine
  | readRoute => exact readRoute_own inv choice mine
  | readHub => exact readHub_own inv choice mine
  | hand =>
      obtain ⟨-, fact, unhanded, target_eq, plain⟩ := mine.fact
      exact hand_own inv mine rfl rfl rfl fact unhanded target_eq plain _
  | publish => exact publishStage_own inv choice mine
  | republish => exact republish_own inv choice mine
  | complete => exact complete_own choice mine

/-- Every atomic step of a thread. -/
theorem advance_own (inv : shared.Inv) {pc pc' : Pc τ ρ η} {shared' : Shared ι τ ρ η}
    (mine : Local thread shared pc) (advance : Advance thread shared pc shared' pc') :
    Own thread shared (shared', pc') := by
  obtain ⟨choice, moved⟩ := advance
  cases pc with
  | rest last =>
      obtain ⟨permits, rfl, rfl⟩ := moved
      exact mine.stay inv (.inl rfl) rfl (call_fact choice.op permits)
  | run =>
      change (shared', pc') = _ at moved
      rw [moved]
      exact advanceStage_own inv choice mine
  | panicked => exact moved.elim

/-- The invariants hold in every reachable state. -/
theorem reachable_inv {state : Threads ι (Shared ι τ ρ η) (Pc τ ρ η)}
    (reachable : (program : Program ι (Shared ι τ ρ η) (Pc τ ρ η)).system.Reachable state) :
    state.shared.Inv ∧ ∀ thread, Local thread state.shared (state.locals thread) := by
  apply Program.invariant ?_ ?_ ?_ reachable
  · rintro _ ⟨id, rfl⟩
    exact ⟨initial_inv id, initial_local id⟩
  · intro thread shared pc shared' pc' inv mine advance
    obtain ⟨change, mine'⟩ := advance_own inv mine advance
    exact ⟨change.inv inv, mine'⟩
  · intro thread other shared pc otherPc shared' pc' ne inv mine otherMine advance
    obtain ⟨change, -⟩ := advance_own inv mine advance
    exact change.keeps_local inv ne otherMine

end Reachable

end VThread.Wait
