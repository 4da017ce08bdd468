import VThread.Recorded.Cells

/-!
# What a step of a call does

Of everything a call does to a cell, the events depend on the start, the claim, the
publication and the finish of generations.  One case analysis of the atomic steps says when
these happen and what the thread records then.
-/

namespace VThread.Recorded

open VThread.Lib VThread.Wait

variable {κ ι τ ρ η : Type}

/-! ## Records that stay -/

/-- The generations, their claims and their finishes are as before. -/
structure Calm (shared shared' : Wait.Shared ι τ ρ η) : Prop where
  issued : shared'.issued = shared.issued
  claims : ∀ generation,
    (shared'.history generation).claims = (shared.history generation).claims
  finishes : ∀ generation,
    (shared'.history generation).finishes = (shared.history generation).finishes

namespace Calm

variable {shared : Wait.Shared ι τ ρ η}

theorem refl : Calm shared shared := ⟨rfl, fun _ => rfl, fun _ => rfl⟩

/-- An event that leaves claims and finishes alone. -/
theorem note (generation : Nat) (event : Record ι τ ρ η → Record ι τ ρ η)
    (claims : (event (shared.history generation)).claims = (shared.history generation).claims)
    (finishes : (event (shared.history generation)).finishes =
      (shared.history generation).finishes) : Calm shared (shared.note generation event) :=
  ⟨rfl, Wait.Shared.note_view _ _ Record.claims claims,
    Wait.Shared.note_view _ _ Record.finishes finishes⟩

end Calm

/-- The published generations are as before. -/
def SamePublished (shared shared' : Wait.Shared ι τ ρ η) : Prop :=
  ∀ generation, (shared'.history generation).published = (shared.history generation).published

/-! ## Kinds of steps -/

/-- An atomic step of a call, by what it means for the evidence.  A winner has announced its
selection when its rank is at most six. -/
inductive Turn (thread : ι) (shared : Wait.Shared ι τ ρ η) (mine : Local κ τ ρ η)
    (origin : WakeOrigin) (op : Op τ ρ η) (stage : Stage τ ρ η) :
    Wait.Shared ι τ ρ η → Pc τ ρ η → Stance τ ρ η → Prop where
  /-- A generation starts. -/
  | begun {shared' : Wait.Shared ι τ ρ η} (task : τ) (last : Option (Op τ ρ η × Outcome η)) :
      shared'.issued = shared.issued + 1 →
      (∀ generation, (shared'.history generation).claims = (shared.history generation).claims) →
      (∀ generation,
        (shared'.history generation).finishes = (shared.history generation).finishes) →
      SamePublished shared shared' →
      Turn thread shared mine origin op stage shared' (.rest last)
        (.recording (.waitPublished task ⟨shared.cell.id, shared'.issued⟩ mine.timed) []
          (.rest last))
  /-- A generation is claimed. -/
  | claimed {shared' : Wait.Shared ι τ ρ η} (cause : WakeCause) (carrier : Bool)
      (outcome : Outcome η) (word : WaitWord) :
      shared.cell.state.phase = .active → stage.owes = none →
      stage.generation? = some word.generation →
      word.generation = shared.cell.state.generation → shared'.issued = shared.issued →
      (shared.history word.generation).claims = [] →
      (shared'.history word.generation).claims = [(thread, cause)] →
      (∀ generation ≠ word.generation,
        (shared'.history generation).claims = (shared.history generation).claims) →
      (∀ generation,
        (shared'.history generation).finishes = (shared.history generation).finishes) →
      SamePublished shared shared' →
      Turn thread shared mine origin op stage shared'
        (.run op (.readTask (.enqueue cause carrier outcome) word))
        (.call (.run op (.readTask (.enqueue cause carrier outcome) word)))
  /-- The winner has read its target and announces the selection. -/
  | offered {shared' : Wait.Shared ι τ ρ η} (cause : WakeCause) (carrier : Bool)
      (outcome : Outcome η) (word : WaitWord) (task : τ) (route : ρ) :
      stage = .readRoute (.enqueue cause carrier outcome) word task → Calm shared shared' →
      SamePublished shared shared' →
      Turn thread shared mine origin op stage shared'
        (.run op (.readHub (.enqueue cause carrier outcome) word task route))
        (offer (Op.named mine.registration task op) ⟨shared.cell.id, word.generation⟩ cause
          origin (.wakeSelected · ⟨shared.cell.id, word.generation⟩ cause origin)
          (.run op (.readHub (.enqueue cause carrier outcome) word task route)))
  /-- A generation is finished. -/
  | finished {shared' : Wait.Shared ι τ ρ η} (token : ParkToken) (cause : WakeCause)
      (word : WaitWord) (last : Option (Op τ ρ η × Outcome η)) :
      token ∈ op.token? → (word.fallbackHub = true → shared.cell.fallbackHub.isSome) →
      shared'.issued = shared.issued →
      (∀ generation, (shared'.history generation).claims = (shared.history generation).claims) →
      (shared.history token.generation).finishes = [] →
      (shared'.history token.generation).finishes = [cause] →
      (∀ generation ≠ token.generation,
        (shared'.history generation).finishes = (shared.history generation).finishes) →
      SamePublished shared shared' →
      Turn thread shared mine origin op stage shared' (.rest last)
        (.readTask (.resumed token cause (.rest last)) word)
  /-- A selection is turned away. -/
  | rejected (token : ParkToken) (cause : WakeCause) (reason : WakeRejection)
      (last : Option (Op τ ρ η × Outcome η)) : op = .select token cause →
      Turn thread shared mine origin op stage shared (.rest last)
        (offer mine.registration token cause origin
          (.wakeRejected · token cause origin reason) (.rest last))
  /-- Any other step.  It may publish a claim that was announced. -/
  | plain {shared' : Wait.Shared ι τ ρ η} {pc : Pc τ ρ η} : Calm shared shared' →
      (∀ generation,
        (shared'.history generation).published = (shared.history generation).published ∨
        ∃ cause, (shared.history generation).claims = [(thread, cause)] ∧
          (shared.history generation).published = [] ∧ stage.rank ≤ 6) →
      (6 < pc.rank ↔ 6 < stage.rank) → (pc.owes = none ∨ pc.owes = stage.owes) →
      Turn thread shared mine origin op stage shared' pc (.call pc)

/-! ## Stages without a generation to announce -/

theorem settle_rank (op : Op τ ρ η) (word : WaitWord) (attempt : Attempt τ ρ η) :
    (settle op word attempt).rank ≤ 6 := by
  cases attempt with
  | cloneHub => exact (by decide : 3 ≤ 6)
  | _ => exact Nat.zero_le _

theorem activation_rank (op : Op τ ρ η) (target : Target τ ρ η) (word : WaitWord)
    (cached : Option Bool) : (activation op target word cached).rank = 0 := by
  cases cached <;> rfl

theorem activation_owes (op : Op τ ρ η) (target : Target τ ρ η) (word : WaitWord)
    (cached : Option Bool) : (activation op target word cached).owes = none := by
  cases cached <;> rfl

theorem reject_cases (registration : Option τ) (origin : WakeOrigin)
    (reason : ParkToken → WakeRejection) (op : Op τ ρ η) (pc : Pc τ ρ η) :
    reject registration origin reason op pc = .call pc ∨
    ∃ token cause last, op = .select token cause ∧ pc = .rest last ∧
      reject registration origin reason op pc = offer registration token cause origin
        (.wakeRejected · token cause origin (reason token)) pc := by
  unfold reject
  split
  · exact .inr ⟨_, _, _, rfl, rfl, rfl⟩
  · exact .inl rfl

section Turns

variable {thread : ι} {shared : Wait.Shared ι τ ρ η} {mine : Local κ τ ρ η}
  {origin : WakeOrigin} {op : Op τ ρ η} {stage : Stage τ ρ η}

/-- A step that leaves the cell and its history alone. -/
theorem Turn.still {pc : Pc τ ρ η} (rank : 6 < pc.rank ↔ 6 < stage.rank)
    (owes : pc.owes = none ∨ pc.owes = stage.owes) :
    Turn thread shared mine origin op stage shared pc (.call pc) :=
  .plain .refl (fun _ => .inl rfl) rank owes

/-- A look at the current word, which may turn a selection away. -/
theorem Turn.look {pc : Pc τ ρ η} (reason : ParkToken → WakeRejection) (rank : pc.rank ≤ 6)
    (stageRank : stage.rank ≤ 6) (owes : pc.owes = none) :
    Turn thread shared mine origin op stage shared pc
      (reject mine.registration origin reason op pc) := by
  rcases reject_cases mine.registration origin reason op pc with
    same | ⟨token, cause, last, opEq, pcEq, rejected⟩
  · rw [same]
    exact .still (by omega) (.inl owes)
  · rw [rejected, pcEq]
    exact .rejected token cause _ _ opEq

/-- A call looks at the current word. -/
theorem look_turn (expired : Bool) (stageRank : stage.rank ≤ 6) :
    Turn thread shared mine origin op stage shared
      (settle op shared.cell.state (op.attempt expired shared.cell.state))
      (reject mine.registration origin (rejection · shared.cell.state) op
        (settle op shared.cell.state (op.attempt expired shared.cell.state))) :=
  .look _ (settle_rank _ _ _) stageRank (settle_owes _ _ _).1

/-! ## Compare-exchanges -/

theorem exchanged_finish (mine : Local κ τ ρ η) (id : Nat) (pc : Pc τ ρ η)
    (expected next : WaitWord) (cause : WakeCause) {token : ParkToken}
    (member : op.token? = some token) :
    exchanged mine id op pc expected next (.finish cause) =
      .readTask (.resumed token cause pc) expected := by
  simp [exchanged, member]

/-- A successful compare-exchange to `next`. -/
theorem commit_turn (inv : shared.Inv) {next : WaitWord} {won : Won τ ρ η}
    (fact : Wait.Local thread shared (.run op (.exchange shared.cell.state next won))) :
    Turn thread shared mine origin op (.exchange shared.cell.state next won)
      (shared.commit thread next won) (continueWith shared.cell.id op next won)
      (exchanged mine shared.cell.id op (continueWith shared.cell.id op next won)
        shared.cell.state next won) := by
  obtain ⟨tokens, exchange⟩ := fact.fact
  cases won with
  | adjust =>
      exact .plain ⟨rfl, fun _ => rfl, fun _ => rfl⟩ (fun _ => .inl rfl) Iff.rfl (.inl rfl)
  | activate target =>
      obtain ⟨-, beginnable, -, generation, -⟩ := exchange
      have notBinding : shared.cell.state.phase ≠ .binding := by simp [beginnable.idle]
      have issued := inv.generation_le_issued notBinding
      let start (record : Record ι τ ρ η) : Record ι τ ρ η :=
        { record with target := some target }
      refine .begun target.task _ ?_
        ((shared.setState next).note_view next.generation start Record.claims rfl)
        ((shared.setState next).note_view next.generation start Record.finishes rfl)
        ((shared.setState next).note_view next.generation start Record.published rfl)
      show next.generation = shared.issued + 1
      omega
  | bind target =>
      let start (record : Record ι τ ρ η) : Record ι τ ρ η :=
        { record with target := some target, binder := some thread }
      exact .plain
        ⟨rfl, (shared.setState next).note_view next.generation start Record.claims rfl,
          (shared.setState next).note_view next.generation start Record.finishes rfl⟩
        (fun generation => .inl ((shared.setState next).note_view next.generation start
          Record.published rfl generation)) Iff.rfl (.inl rfl)
  | claim cause carrier outcome =>
      obtain ⟨active, -, generation, -⟩ := exchange
      have unclaimed : (shared.history next.generation).claims = [] := by
        rw [generation]
        exact (inv.current.untouched (.inr active)).1.claims
      let claim (record : Record ι τ ρ η) : Record ι τ ρ η :=
        { record with claims := (thread, cause) :: record.claims }
      refine .claimed cause carrier outcome next active rfl ?_ generation rfl unclaimed ?_ ?_
        ((shared.setState next).note_view next.generation claim Record.finishes rfl)
        ((shared.setState next).note_view next.generation claim Record.published rfl)
      · rw [generation]
        rfl
      · have noted := congrArg Record.claims
          ((shared.setState next).note_self next.generation claim)
        refine noted.trans ?_
        show (thread, cause) :: (shared.history next.generation).claims = _
        rw [unclaimed]
      · intro other different
        exact congrArg Record.claims
          ((shared.setState next).note_ne next.generation claim different)
  | interest =>
      let interest (record : Record ι τ ρ η) : Record ι τ ρ η :=
        { record with interest := true }
      exact .plain
        ⟨rfl, (shared.setState next).note_view next.generation interest Record.claims rfl,
          (shared.setState next).note_view next.generation interest Record.finishes rfl⟩
        (fun generation => .inl ((shared.setState next).note_view next.generation interest
          Record.published rfl generation)) Iff.rfl (.inl rfl)
  | finish cause =>
      obtain ⟨selected, -, generation, -, token, member, tokenGeneration⟩ := exchange
      have same : next.generation = token.generation := generation.trans tokenGeneration.symm
      have unfinished : (shared.history token.generation).finishes = [] := by
        rw [tokenGeneration]
        exact (inv.current.selected selected).choose_spec.2.1
      let finish (record : Record ι τ ρ η) : Record ι τ ρ η :=
        { record with finishes := cause :: record.finishes, retired := true }
      rw [Option.mem_def] at member
      rw [exchanged_finish _ _ _ _ _ _ member]
      have live : shared.cell.state.phase ≠ .idle := by simp [selected]
      obtain ⟨-, target, targetEq⟩ := inv.started live
      obtain ⟨-, -, hub⟩ := inv.bound live (by simp [selected]) target targetEq
      have fallback : shared.cell.state.fallbackHub = true →
          shared.cell.fallbackHub.isSome := by
        intro uses
        rw [if_pos uses] at hub
        simp [hub]
      refine .finished token cause _ _ member fallback rfl
        ((shared.setState next).note_view next.generation finish Record.claims rfl) unfinished
        ?_ ?_ ((shared.setState next).note_view next.generation finish Record.published rfl)
      · have noted := congrArg Record.finishes
          ((shared.setState next).note_self next.generation finish)
        rw [← same] at unfinished ⊢
        refine noted.trans ?_
        show cause :: (shared.history next.generation).finishes = _
        rw [unfinished]
      · intro other different
        rw [← same] at different
        exact congrArg Record.finishes
          ((shared.setState next).note_ne next.generation finish different)
  | retire hub =>
      let retire (record : Record ι τ ρ η) : Record ι τ ρ η := { record with retired := true }
      exact .plain
        ⟨rfl, (shared.setState next).note_view next.generation retire Record.claims rfl,
          (shared.setState next).note_view next.generation retire Record.finishes rfl⟩
        (fun generation => .inl ((shared.setState next).note_view next.generation retire
          Record.published rfl generation)) Iff.rfl (.inl rfl)

variable [DecidableEq ι] [DecidableEq τ] [DecidableEq ρ] [DecidableEq η]

/-- A compare-exchange, won or lost. -/
theorem exchange_turn (inv : shared.Inv) (choice : Wait.Choice τ ρ η)
    {expected next : WaitWord} {won : Won τ ρ η}
    (fact : Wait.Local thread shared (.run op (.exchange expected next won))) :
    Turn thread shared mine origin op (.exchange expected next won)
      (advanceStage thread choice shared op (.exchange expected next won)).1
      (advanceStage thread choice shared op (.exchange expected next won)).2
      (announce mine origin shared.cell op
        (advanceStage thread choice shared op (.exchange expected next won)).2
        (.exchange expected next won)) := by
  by_cases equal : shared.cell.state = expected
  · subst equal
    simp only [advanceStage, announce, if_true]
    exact commit_turn inv fact
  simp only [advanceStage, announce, if_neg equal]
  split
  · exact look_turn _ (Nat.zero_le _)
  · exact .look _ (Nat.zero_le _) (Nat.zero_le _) rfl

/-! ## The other stages -/

/-- Stages of a begin before it binds, and of a binding before its store. -/
theorem begin_turn (inv : shared.Inv) (choice : Wait.Choice τ ρ η)
    (fact : Wait.Local thread shared (.run op stage)) (begins : stage.begins = true) :
    Turn thread shared mine origin op stage (advanceStage thread choice shared op stage).1
      (advanceStage thread choice shared op stage).2
      (announce mine origin shared.cell op (advanceStage thread choice shared op stage).2
        stage) := by
  have looked : ∀ {target word cached}, stage.rank = 0 →
      Turn thread shared mine origin op stage shared (activation op target word cached)
        (.call (activation op target word cached)) := by
    intro target word cached rank
    exact .still (by rw [activation_rank, rank]) (.inl (activation_owes _ _ _ _))
  cases stage with
  | cachedTask | cachedRoute =>
      simp only [advanceStage, announce]
      split
      · exact .still Iff.rfl (.inl rfl)
      · dsimp only
        exact looked rfl
  | cachedPrimary =>
      simp only [advanceStage, announce]
      split
      · dsimp only
        exact looked rfl
      split
      · dsimp only
        exact looked rfl
      · exact .still Iff.rfl (.inl rfl)
  | cachedFallback =>
      simp only [advanceStage, announce]
      split
      · dsimp only
        exact looked rfl
      · dsimp only
        exact looked rfl
  | bindPeek =>
      simp only [advanceStage, announce]
      split
      · exact .still Iff.rfl (.inl rfl)
      · exact .still Iff.rfl (.inl rfl)
  | bindGet =>
      simp only [advanceStage, announce]
      split
      · exact .still Iff.rfl (.inl rfl)
      split
      · exact .still Iff.rfl (.inl rfl)
      · exact .still Iff.rfl (.inl rfl)
  | bindStore target =>
      obtain ⟨-, bound, -⟩ := fact.fact
      have issued := inv.issued_eq
      rw [bound.state, if_pos bound.binding] at issued
      simp only [advanceStage, announce, ← issued]
      exact .begun target.task _ rfl (fun _ => rfl) (fun _ => rfl) (fun _ => rfl)
  | bindTask | bindRoute | bindSet | bindFallback =>
      exact .plain ⟨rfl, fun _ => rfl, fun _ => rfl⟩ (fun _ => .inl rfl) Iff.rfl (.inl rfl)
  | _ => cases begins

/-- Reads of the target by a winner, for its notice or its completion signal, or by an owner
that retires. -/
theorem read_turn (inv : shared.Inv) (choice : Wait.Choice τ ρ η)
    (fact : Wait.Local thread shared (.run op stage)) {use : Use η} {word : WaitWord}
    (reads : stage = .readTask use word ∨ (∃ task, stage = .readRoute use word task) ∨
      ∃ task route, stage = .readHub use word task route) :
    Turn thread shared mine origin op stage (advanceStage thread choice shared op stage).1
      (advanceStage thread choice shared op stage).2
      (announce mine origin shared.cell op (advanceStage thread choice shared op stage).2
        stage) := by
  rcases reads with rfl | ⟨task, rfl⟩ | ⟨task, route, rfl⟩
  · have first := fact.fact.2
    obtain ⟨task, taskEq⟩ := Option.isSome_iff_exists.1 (inv.readable first).1
    simp only [advanceStage, announce, noteRead_self first, taskEq]
    exact .still (by cases use <;> simp [Pc.rank, Stage.rank]) (.inr (by cases use <;> rfl))
  · have first := readTask_of_readRoute fact.fact.2
    obtain ⟨route, routeEq⟩ := Option.isSome_iff_exists.1 (inv.readable first).2.1
    simp only [advanceStage, noteRead_self first, routeEq]
    cases use with
    | enqueue cause carrier outcome =>
        simp only [announce, routeEq]
        exact .offered cause carrier outcome word task route rfl .refl (fun _ => rfl)
    | complete | clone => exact .still (by simp [Pc.rank, Stage.rank]) (.inr rfl)
  · have first := readTask_of_readRoute (readRoute_of_readHub fact.fact.2)
    obtain ⟨-, -, hub, known, -⟩ := inv.readable first
    simp only [advanceStage, announce, noteRead_self first, known]
    cases use with
    | enqueue cause carrier =>
        by_cases fallback : word.fallbackHub
        · simp only [fallback, if_true]
          let hand (record : Record ι τ ρ η) : Record ι τ ρ η :=
            { record with handed := ⟨thread, carrier && choice.accepted, hub,
              (⟨task, route, hub⟩ : Target τ ρ η).notice shared.cell.id word.generation
                cause⟩ :: record.handed }
          exact .plain (.note word.generation hand rfl rfl)
            (fun generation => .inl
              (shared.note_view word.generation hand Record.published rfl generation))
            (by simp [Pc.rank, Stage.rank]) (.inr rfl)
        · simp only [fallback]
          exact .still (by simp [Pc.rank, Stage.rank]) (.inr rfl)
    | complete => exact .still (by simp [Pc.rank, Stage.rank]) (.inr rfl)
    | clone => exact .still (by simp [Pc.rank, Stage.rank]) (.inl rfl)

/-- The winner publishes its claim. -/
theorem publish_turn (choice : Wait.Choice τ ρ η) {word : WaitWord}
    (fact : Wait.Local thread shared (.run op stage))
    (publishes : (∃ outcome, stage = .publish outcome word) ∨
      ∃ outcome hub, stage = .republish outcome word hub) :
    Turn thread shared mine origin op stage (advanceStage thread choice shared op stage).1
      (advanceStage thread choice shared op stage).2
      (announce mine origin shared.cell op (advanceStage thread choice shared op stage).2
        stage) := by
  have noted : ∀ {shared' : Wait.Shared ι τ ρ η} {selected : Option WakeCause} {cause}
      {pc : Pc τ ρ η}, stage.rank ≤ 6 → pc.rank = 0 → pc.owes = none →
      (shared.history word.generation).claims = [(thread, cause)] →
      (shared.history word.generation).published = [] →
      shared'.history = shared.history → shared'.issued = shared.issued →
      Turn thread shared mine origin op stage (shared'.note word.generation fun record =>
        { record with published := (thread, selected) :: record.published }) pc (.call pc) := by
    intro shared' selected cause pc rank pcRank owes claims unpublished history issued
    let publish (record : Record ι τ ρ η) : Record ι τ ρ η :=
      { record with published := (thread, selected) :: record.published }
    refine .plain ⟨issued, ?_, ?_⟩ ?_ (by omega) (.inl owes)
    · rw [← history]
      exact shared'.note_view word.generation publish Record.claims rfl
    · rw [← history]
      exact shared'.note_view word.generation publish Record.finishes rfl
    · intro generation
      by_cases equal : generation = word.generation
      · rw [equal]
        exact .inr ⟨cause, claims, unpublished, rank⟩
      · rw [← history]
        exact .inl (congrArg Record.published (Wait.Shared.note_ne _ _ equal))
  rcases publishes with ⟨outcome, rfl⟩ | ⟨outcome, hub, rfl⟩
  · obtain ⟨-, ⟨cause, enqueuing, -⟩, -⟩ := fact.fact
    simp only [advanceStage, announce, publishClaim_ok enqueuing.phase]
    split
    · exact noted (by simp [Stage.rank]) rfl rfl enqueuing.claims enqueuing.published rfl rfl
    split
    · exact .still (by simp [Pc.rank, Stage.rank]) (.inl rfl)
    split
    · exact .still (by simp [Pc.rank, Stage.rank]) (.inl rfl)
    · refine .still (by simp [Pc.rank, Stage.rank]) (.inr ?_)
      obtain ⟨-, generation, -⟩ := enqueuing.now
      exact congrArg some generation
  · obtain ⟨-, completing, -⟩ := fact.fact
    obtain ⟨cause, phase, claims, -⟩ := completing.claimed
    simp only [advanceStage, announce, publishClaim_ok phase]
    split
    · exact noted (by simp [Stage.rank]) rfl rfl claims completing.published rfl rfl
    · exact .still (by simp [Pc.rank, Stage.rank]) (.inl rfl)

/-- Every atomic step of a call. -/
theorem stage_turn (inv : shared.Inv) (choice : Wait.Choice τ ρ η)
    (fact : Wait.Local thread shared (.run op stage)) :
    Turn thread shared mine origin op stage (advanceStage thread choice shared op stage).1
      (advanceStage thread choice shared op stage).2
      (announce mine origin shared.cell op (advanceStage thread choice shared op stage).2
        stage) := by
  cases stage with
  | load => exact look_turn _ (Nat.zero_le _)
  | exchange => exact exchange_turn inv choice fact
  | readTask => exact read_turn inv choice fact (.inl rfl)
  | readRoute use word task => exact read_turn inv choice fact (.inr (.inl ⟨task, rfl⟩))
  | readHub use word task route =>
      exact read_turn inv choice fact (.inr (.inr ⟨task, route, rfl⟩))
  | hand cause carrier outcome word target =>
      let hand (record : Record ι τ ρ η) : Record ι τ ρ η :=
        { record with handed := ⟨thread, carrier && choice.accepted, target.hub,
          target.notice shared.cell.id word.generation cause⟩ :: record.handed }
      exact .plain (.note word.generation hand rfl rfl)
        (fun generation => .inl
          (shared.note_view word.generation hand Record.published rfl generation))
        (by simp [advanceStage, Pc.rank, Stage.rank]) (.inr rfl)
  | publish outcome word => exact publish_turn choice fact (.inl ⟨outcome, rfl⟩)
  | republish outcome word hub => exact publish_turn choice fact (.inr ⟨outcome, hub, rfl⟩)
  | complete outcome generation hub =>
      let complete (record : Record ι τ ρ η) : Record ι τ ρ η :=
        { record with completed := (thread, hub) :: record.completed }
      exact .plain (.note generation complete rfl rfl)
        (fun other => .inl (shared.note_view generation complete Record.published rfl other))
        (by simp [advanceStage, Pc.rank, Stage.rank]) (.inl rfl)
  | _ => exact begin_turn inv choice fact rfl

end Turns

end VThread.Recorded
