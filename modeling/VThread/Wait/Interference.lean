import Mathlib.Tactic.Tauto
import VThread.Wait.Preservation

/-!
# What other threads rely on

A change made by one thread keeps the local invariants of all others: only the winner
hands over, publishes and completes, only the binder writes the target, and a claimed
word changes only by the interest bit.
-/

namespace VThread.Wait

open VThread.Lib

variable {ι τ ρ η : Type}

namespace Shared.Inv

variable {shared : Shared ι τ ρ η} {generation : Nat} {thread : ι} {cause : WakeCause}

/-- A claimed generation that is not published is the current one. -/
theorem unpublished (inv : shared.Inv)
    (claims : (shared.history generation).claims = [(thread, cause)])
    (published : (shared.history generation).published = []) :
    generation = shared.cell.state.generation ∧ shared.cell.state.phase = .claim cause := by
  have notOver : ∀ id, ¬ (shared.history generation).Over id generation := by
    rintro id ⟨-, untouched | ⟨owner, other, won⟩⟩
    · rw [untouched.claims] at claims
      cases claims
    · rw [won.published] at published
      cases published
  have notAbove : ¬ shared.cell.state.generation < generation := by
    intro above
    rw [inv.future generation above] at claims
    cases claims
  have notBelow : ¬ generation < shared.cell.state.generation := fun below =>
    notOver _ (inv.past generation below)
  have equal : generation = shared.cell.state.generation := by omega
  subst equal
  refine ⟨rfl, ?_⟩
  have current := inv.current
  cases phase : shared.cell.state.phase with
  | idle => exact (notOver _ (current.idle phase)).elim
  | binding =>
      rw [(current.untouched (.inl phase)).1.claims] at claims
      cases claims
  | active =>
      rw [(current.untouched (.inr phase)).1.claims] at claims
      cases claims
  | claim other =>
      obtain ⟨owner, otherClaims, -⟩ := current.claimed phase
      rw [otherClaims] at claims
      cases claims
      rfl
  | selected other =>
      obtain ⟨owner, won, -⟩ := current.selected phase
      rw [won.published] at published
      cases published

/-- A published generation was won by the thread that claimed it. -/
theorem won (inv : shared.Inv)
    (claims : (shared.history generation).claims = [(thread, cause)])
    (published : (shared.history generation).published ≠ []) :
    (shared.history generation).Won shared.cell.id generation thread cause := by
  have ofWon : ∀ {owner other}, (shared.history generation).Won shared.cell.id generation
      owner other → (shared.history generation).Won shared.cell.id generation thread cause := by
    intro owner other won
    have same := won.claims
    rw [claims] at same
    cases same
    exact won
  have ofOver : (shared.history generation).Over shared.cell.id generation →
      (shared.history generation).Won shared.cell.id generation thread cause := by
    rintro ⟨-, untouched | ⟨owner, other, won⟩⟩
    · exact (published untouched.published).elim
    · exact ofWon won
  by_cases above : shared.cell.state.generation < generation
  · rw [inv.future generation above] at claims
    cases claims
  by_cases below : generation < shared.cell.state.generation
  · exact ofOver (inv.past generation below)
  have equal : generation = shared.cell.state.generation := by omega
  have current := inv.current
  rw [now_eq, ← equal] at current
  cases phase : shared.cell.state.phase with
  | idle =>
      apply ofOver
      rw [equal] at current ⊢
      exact current.idle phase
  | binding => exact (published (current.untouched (.inl phase)).1.published).elim
  | active => exact (published (current.untouched (.inr phase)).1.published).elim
  | claim other =>
      obtain ⟨owner, -, unpublished, -⟩ := current.claimed phase
      exact (published unpublished).elim
  | selected other =>
      obtain ⟨owner, won, -⟩ := current.selected phase
      rw [← equal] at won
      exact ofWon won

end Shared.Inv

namespace Change

variable {thread : ι} {shared shared' : Shared ι τ ρ η}

theorem id_eq (change : Change thread shared shared') : shared'.cell.id = shared.cell.id := by
  cases change <;> first | rfl | assumption

theorem generation_le (change : Change thread shared shared') :
    shared.cell.state.generation ≤ shared'.cell.state.generation := by
  cases change with
  | interest => exact Nat.le_refl _
  | publish _ _ _ _ _ next_eq =>
      subst next_eq
      exact Nat.le_refl _
  | _ => simp_all [Shared.handNotice]

theorem issued_le (change : Change thread shared shared') (inv : shared.Inv) :
    shared.issued ≤ shared'.issued := by
  have bound := inv.issued_eq
  cases change with
  | activate _ next =>
      show shared.issued ≤ next.generation
      omega
  | opened _ next =>
      show shared.issued ≤ next.generation
      omega
  | _ => simp [Shared.handNotice]

/-- Outside of a binding, only the state of the cell changes. -/
theorem cell_eq (change : Change thread shared shared')
    (notBinding : shared.cell.state.phase ≠ .binding ∨ shared.now.binder ≠ some thread) :
    shared'.cell = { shared.cell with state := shared'.cell.state } := by
  cases change with
  | write => tauto
  | _ => rfl

theorem targets_known (change : Change thread shared shared') :
    (shared.cell.task.isSome → shared'.cell.task.isSome) ∧
    (shared.cell.route.isSome → shared'.cell.route.isSome) ∧
    (shared.cell.primaryHub.isSome → shared'.cell.primaryHub.isSome) ∧
    (shared.cell.fallbackHub.isSome → shared'.cell.fallbackHub.isSome) := by
  cases change with
  | write _ _ _ _ _ task route primary fallback =>
      exact ⟨task, route, primary, fallback⟩
  | _ => exact ⟨id, id, id, id⟩

/-- How the record of one generation changes: not at all, with the start of the generation,
by interest or retirement, by a claim, or by its winner. -/
theorem history_cases (change : Change thread shared shared') (generation : Nat) :
    shared'.history generation = shared.history generation ∨
    shared.cell.state.generation < generation ∨
    (∃ interest finishes retired, shared'.history generation =
        { shared.history generation with interest, finishes, retired } ∧
      ((shared.history generation).interest = true → interest = true)) ∨
    (shared.cell.state.phase = .active ∧ generation = shared.cell.state.generation ∧
      (shared'.history generation).interest = (shared.history generation).interest) ∨
    ∃ cause, (shared.history generation).claims = [(thread, cause)] ∧
      (shared'.history generation).interest = (shared.history generation).interest := by
  cases change with
  | same | adjust | write | opened => exact .inl rfl
  | activate _ next =>
      by_cases equal : generation = next.generation
      · exact .inr (.inl (by omega))
      · exact .inl (Function.update_of_ne equal _ _)
  | bind _ next =>
      by_cases equal : generation = next.generation
      · exact .inr (.inl (by omega))
      · exact .inl (Shared.note_ne _ _ equal)
  | claim _ next active _ gen =>
      by_cases equal : generation = next.generation
      · subst equal
        exact .inr (.inr (.inr (.inl ⟨active, gen, by rw [Shared.note_self]; rfl⟩)))
      · exact .inl (Shared.note_ne _ _ equal)
  | interest =>
      by_cases equal : generation = shared.cell.state.generation
      · subst equal
        exact .inr (.inr (.inl ⟨true, shared.now.finishes, shared.now.retired,
          Shared.note_self .., fun _ => rfl⟩))
      · exact .inl (Shared.note_ne _ _ equal)
  | hand cause _ _ _ claims =>
      by_cases equal : generation = shared.cell.state.generation
      · subst equal
        exact .inr (.inr (.inr (.inr
          ⟨cause, claims, by rw [Shared.handNotice, Shared.note_self]⟩)))
      · exact .inl (Shared.note_ne _ _ equal)
  | publish cause _ _ claims =>
      by_cases equal : generation = shared.cell.state.generation
      · subst equal
        exact .inr (.inr (.inr (.inr ⟨cause, claims, by rw [Shared.note_self]; rfl⟩)))
      · exact .inl (Shared.note_ne _ _ equal)
  | complete at_ cause _ won =>
      by_cases equal : generation = at_
      · subst equal
        exact .inr (.inr (.inr (.inr ⟨cause, won.claims, by rw [Shared.note_self]⟩)))
      · exact .inl (Shared.note_ne _ _ equal)
  | retire next =>
      by_cases equal : generation = next.generation
      · subst equal
        exact .inr (.inr (.inl ⟨(shared.history next.generation).interest, _, true,
          Shared.note_self .., id⟩))
      · exact .inl (Shared.note_ne _ _ equal)

/-- A generation claimed by another thread keeps its claim, target, notices, publication
and completion. -/
theorem claimed_frame (change : Change thread shared shared') (inv : shared.Inv)
    {generation : Nat} {other : ι} {cause : WakeCause} (ne : other ≠ thread)
    (claims : (shared.history generation).claims = [(other, cause)]) :
    ∃ interest finishes retired, shared'.history generation =
      { shared.history generation with interest, finishes, retired } := by
  rcases change.history_cases generation with
    same | above | ⟨interest, finishes, retired, marked, -⟩ | ⟨active, rfl, -⟩ |
      ⟨otherCause, owned, -⟩
  · exact ⟨_, _, _, same⟩
  · rw [inv.future generation above] at claims
    cases claims
  · exact ⟨interest, finishes, retired, marked⟩
  · rw [(inv.current.untouched (.inr active)).1.claims] at claims
    cases claims
  · rw [claims] at owned
    cases owned
    exact (ne rfl).elim

theorem interest_mono (change : Change thread shared shared') (inv : shared.Inv)
    {generation : Nat} (interest : (shared.history generation).interest = true) :
    (shared'.history generation).interest = true := by
  rcases change.history_cases generation with
    same | above | ⟨interest', finishes, retired, marked, mono⟩ | ⟨-, -, same⟩ | ⟨-, -, same⟩
  · rwa [same]
  · rw [inv.future generation above] at interest
    cases interest
  · rw [marked]
    exact mono interest
  · rwa [same]
  · rwa [same]

/-- A claim by another thread is not the work of this change. -/
theorem claims_back (change : Change thread shared shared') (inv : shared.Inv)
    {generation : Nat} {other : ι} {cause : WakeCause} (ne : other ≠ thread)
    (claims' : (shared'.history generation).claims = [(other, cause)]) :
    (shared.history generation).claims = [(other, cause)] := by
  cases change with
  | activate target next =>
      rw [← claims']
      exact Eq.symm (@Shared.note_view _ _ _ _ (shared.setState next) next.generation
        (fun record => { record with target := some target }) _ Record.claims rfl generation)
  | bind | interest | hand | publish | complete | retire =>
      rw [← claims']
      exact Eq.symm (Shared.note_view _ _ Record.claims (by rfl) generation)
  | claim _ next active _ gen =>
      by_cases equal : generation = next.generation
      · subst equal
        have none := (inv.current.untouched (.inr active)).1.claims
        rw [Shared.note_self, Shared.setState_history, gen, ← Shared.now_eq, none] at claims'
        cases claims'
        exact (ne rfl).elim
      · rwa [Shared.note_ne _ _ equal] at claims'
  | _ => exact claims'

/-- Interest is registered before the publication only. -/
theorem interest_back (change : Change thread shared shared') (inv : shared.Inv)
    {generation : Nat} (published : (shared.history generation).published ≠ [])
    (interest' : (shared'.history generation).interest = true) :
    (shared.history generation).interest = true := by
  rw [← interest']
  cases change with
  | activate target next =>
      exact Eq.symm (@Shared.note_view _ _ _ _ (shared.setState next) next.generation
        (fun record => { record with target := some target }) _ Record.interest rfl generation)
  | bind | claim | hand | publish | complete | retire =>
      exact Eq.symm (Shared.note_view _ _ Record.interest (by rfl) generation)
  | interest claimed =>
      obtain ⟨cause, phase⟩ := WaitWord.isClaimed_iff.1 claimed
      have unpublished := (inv.current.claimed phase).choose_spec.2.1
      have ne : generation ≠ shared.cell.state.generation := by
        intro equal
        subst equal
        exact published unpublished
      rw [Shared.note_ne _ _ ne]
      rfl
  | _ => rfl

/-- A finished generation is not finished again. -/
theorem finishes_eq (change : Change thread shared shared') (inv : shared.Inv)
    {generation : Nat} {cause : WakeCause}
    (finishes : (shared.history generation).finishes = [cause]) :
    (shared'.history generation).finishes = [cause] := by
  rw [← finishes]
  cases change with
  | activate target next =>
      exact @Shared.note_view _ _ _ _ (shared.setState next) next.generation
        (fun record => { record with target := some target }) _ Record.finishes rfl generation
  | bind | claim | interest | hand | publish | complete =>
      exact Shared.note_view _ _ Record.finishes (by rfl) generation
  | retire next _ ending _ gen =>
      have unfinished : shared.now.finishes = [] := by
        rcases ending with ⟨active, -⟩ | ⟨own, selected, -⟩
        · exact (inv.current.untouched (.inr active)).1.finishes
        · exact (inv.current.selected selected).choose_spec.2.1
      have ne : generation ≠ next.generation := by
        intro equal
        rw [equal, gen, ← Shared.now_eq, unfinished] at finishes
        cases finishes
      rw [Shared.note_ne _ _ ne]
      rfl
  | _ => rfl

/-- While a generation is claimed by another thread, only the interest bit may appear. -/
theorem claimed_state (change : Change thread shared shared') {cause : WakeCause}
    (phase : shared.cell.state.phase = .claim cause)
    (foreign : ∀ own, shared.now.claims ≠ [(thread, own)]) :
    shared'.cell.state = shared.cell.state ∨
      shared'.cell.state = shared.cell.state.withPermit true := by
  have claimed : shared.cell.state.isClaimed = true := WaitWord.isClaimed_iff.2 ⟨cause, phase⟩
  cases change with
  | same | hand | complete => exact .inl rfl
  | adjust _ _ unclaimed =>
      rw [claimed] at unclaimed
      cases unclaimed
  | activate _ _ idle => simp [phase] at idle
  | bind _ _ idle => simp [phase] at idle
  | write _ binding => simp [phase] at binding
  | opened _ _ binding =>
      simp [phase] at binding
  | claim _ _ active => simp [phase] at active
  | interest _ => exact .inr rfl
  | publish own _ _ claims => exact (foreign own claims).elim
  | retire _ _ ending =>
      rcases ending with ⟨active, -⟩ | ⟨_, selected, -⟩
      · simp [phase] at active
      · simp [phase] at selected

/-- While another thread binds, nothing of the cell changes. -/
theorem binding_state (change : Change thread shared shared')
    (binding : shared.cell.state.phase = .binding)
    (foreign : shared.now.binder ≠ some thread) :
    shared'.cell = shared.cell := by
  cases change with
  | same | hand | complete => rfl
  | adjust _ notBinding => exact (notBinding binding).elim
  | activate _ _ idle => simp [binding] at idle
  | bind _ _ idle => simp [binding] at idle
  | write _ _ binder => exact (foreign binder).elim
  | opened _ _ _ binder =>
      exact (foreign binder).elim
  | claim _ _ active => simp [binding] at active
  | interest claimed =>
      obtain ⟨cause, phase⟩ := WaitWord.isClaimed_iff.1 claimed
      simp [binding] at phase
  | publish _ _ phase => simp [binding] at phase
  | retire _ _ ending =>
      rcases ending with ⟨active, -⟩ | ⟨_, selected, -⟩
      · simp [binding] at active
      · simp [binding] at selected

/-! ## Facts of other threads -/

section Other

variable {other : ι}

theorem beginnable (change : Change thread shared shared') {word : WaitWord}
    (fact : Beginnable shared word) : Beginnable shared' word := by
  refine ⟨fact.idle, fact.unclosed, fact.unpermitted, ?_⟩
  have mono := change.generation_le
  rcases fact.recent with older | ⟨equal, idle⟩
  · exact .inl (by omega)
  by_cases same : shared'.cell.state.generation = shared.cell.state.generation
  · refine .inr ⟨by omega, ?_⟩
    -- An idle word of the same generation only changes its bits.
    cases change with
    | same | complete => exact idle
    | adjust _ _ _ phase => exact phase.trans idle
    | activate _ next =>
        have equal' : next.generation = shared.cell.state.generation := same
        omega
    | bind _ next =>
        have equal' : next.generation = shared.cell.state.generation := same
        omega
    | write _ binding =>
        simp [idle] at binding
    | opened _ _ binding =>
        simp [idle] at binding
    | claim _ _ active => simp [idle] at active
    | interest claimed =>
        obtain ⟨cause, phase⟩ := WaitWord.isClaimed_iff.1 claimed
        simp [idle] at phase
    | hand _ _ _ phase => simp [idle] at phase
    | publish _ _ phase => simp [idle] at phase
    | retire _ _ _ phase => exact phase
  · exact .inl (by omega)

/-- What a begin has read from the target stays true while its word can be exchanged. -/
theorem cached (change : Change thread shared shared') {word : WaitWord}
    (fact : Beginnable shared word) (reads : Cell τ ρ η → Prop)
    (stateless : ∀ cell state, reads cell → reads { cell with state })
    (read : word.generation = shared.cell.state.generation → reads shared.cell) :
    word.generation = shared'.cell.state.generation → reads shared'.cell := by
  intro equal
  have mono := change.generation_le
  have idle : word.generation = shared.cell.state.generation ∧
      shared.cell.state.phase = .idle := by
    rcases fact.recent with older | current
    · omega
    · exact current
  rw [change.cell_eq (.inl (by simp [idle.2]))]
  exact stateless _ _ (read idle.1)

theorem binder (change : Change thread shared shared') (inv : shared.Inv)
    (ne : other ≠ thread) {target : Target τ ρ η} {word : WaitWord}
    (fact : Binder other shared target word) :
    Binder other shared' target word ∧ shared'.cell = shared.cell := by
  have binding : shared.cell.state.phase = .binding := by
    rw [fact.state]
    exact fact.binding
  have foreign : shared.now.binder ≠ some thread := by
    rw [fact.binder]
    rintro ⟨⟩
    exact ne rfl
  have sameCell := change.binding_state binding foreign
  have record : shared'.now.binder = shared.now.binder ∧
      shared'.now.target = shared.now.target := by
    rw [Shared.now_eq, sameCell]
    rcases change.history_cases shared.cell.state.generation with
      same | above | ⟨interest, finishes, retired, marked, -⟩ | ⟨active, -⟩ | ⟨cause, owned, -⟩
    · rw [same]
      exact ⟨rfl, rfl⟩
    · omega
    · rw [marked]
      exact ⟨rfl, rfl⟩
    · simp [binding] at active
    · rw [(inv.current.untouched (.inl binding)).1.claims] at owned
      cases owned
  exact ⟨⟨by rw [sameCell]; exact fact.state, fact.binding, record.1.trans fact.binder,
    record.2.trans fact.target_eq⟩, sameCell⟩

theorem cloning (change : Change thread shared shared') (inv : shared.Inv) {word : WaitWord}
    (fact : Cloning shared word) : Cloning shared' word :=
  ⟨fact.retirable, Nat.lt_of_lt_of_le fact.issued (change.issued_le inv),
    fun fallback => change.targets_known.2.2.2 (fact.fallback fallback)⟩

/-- Steps of others leave an unpublished winner its word, up to the interest bit, and
everything it works with. -/
theorem enqueuing (change : Change thread shared shared') (inv : shared.Inv)
    (ne : other ≠ thread) {cause : WakeCause} {word : WaitWord}
    (fact : Enqueuing other shared cause word) :
    Enqueuing other shared' cause word ∧
      shared'.cell = { shared.cell with state := shared'.cell.state } ∧
      ∃ interest finishes retired, shared'.history word.generation =
        { shared.history word.generation with interest, finishes, retired } := by
  obtain ⟨equal, phase⟩ := inv.unpublished fact.claims fact.published
  have foreign : ∀ own, shared.now.claims ≠ [(thread, own)] := by
    intro own claims
    rw [Shared.now_eq, ← equal, fact.claims] at claims
    cases claims
    exact ne rfl
  have state : shared'.cell.state.withPermit false = word := by
    rcases change.claimed_state phase foreign with same | set
    · rw [same]
      exact fact.state
    · rw [set]
      exact fact.state
  obtain ⟨interest, finishes, retired, marked⟩ := change.claimed_frame inv ne fact.claims
  refine ⟨⟨fact.phase, fact.permit, state, ?_, ?_⟩, change.cell_eq (.inl (by simp [phase])),
    interest, finishes, retired, marked⟩
  · rw [marked]
    exact fact.claims
  · rw [marked]
    exact fact.published

theorem completing (change : Change thread shared shared') (inv : shared.Inv)
    (ne : other ≠ thread) {word : WaitWord} (fact : Completing other shared word) :
    Completing other shared' word ∧
      shared'.cell = { shared.cell with state := shared'.cell.state } ∧
      ∃ interest finishes retired, shared'.history word.generation =
        { shared.history word.generation with interest, finishes, retired } := by
  obtain ⟨cause, wordPhase, claims, delivered⟩ := fact.claimed
  obtain ⟨equal, phase⟩ := inv.unpublished claims fact.published
  have foreign : ∀ own, shared.now.claims ≠ [(thread, own)] := by
    intro own ownClaims
    rw [Shared.now_eq, ← equal, claims] at ownClaims
    cases ownClaims
    exact ne rfl
  have state : shared'.cell.state = word := by
    rcases change.claimed_state phase foreign with same | set
    · rw [same]
      exact fact.state
    · rw [set, fact.state, WaitWord.withPermit, ← fact.permit]
  obtain ⟨interest, finishes, retired, marked⟩ := change.claimed_frame inv ne claims
  refine ⟨⟨fact.permit, state, ⟨cause, wordPhase, ?_, ?_⟩, ?_⟩,
    change.cell_eq (.inl (by simp [phase])), interest, finishes, retired, marked⟩
  · rw [marked]
    exact claims
  · rw [marked, change.id_eq]
    exact delivered
  · rw [marked]
    exact fact.published

theorem exchangeFact (change : Change thread shared shared') (op : Op τ ρ η)
    {expected next : WaitWord} {won : Won τ ρ η}
    (fact : ExchangeFact shared op expected next won) :
    ExchangeFact shared' op expected next won := by
  cases won with
  | activate target =>
      obtain ⟨token, begins, phase, generation, permit, closed, primary, holds⟩ := fact
      exact ⟨token, change.beginnable begins, phase, generation, permit, closed,
        change.targets_known.2.2.1 primary,
        change.cached begins (fun cell => cell.Holds target next.fallbackHub)
          (fun _ _ h => h) holds⟩
  | adjust | bind | claim | interest | finish | retire => exact fact

theorem stageFact (change : Change thread shared shared') (inv : shared.Inv)
    (inv' : shared'.Inv) (ne : other ≠ thread) (op : Op τ ρ η) {stage : Stage τ ρ η}
    (fact : StageFact other shared op stage) : StageFact other shared' op stage := by
  cases stage with
  | load => trivial
  | exchange => exact change.exchangeFact op fact
  | cachedTask => exact change.beginnable fact
  | cachedRoute target word =>
      exact ⟨change.beginnable fact.1, change.cached fact.1
        (fun cell => cell.task = some target.task) (fun _ _ h => h) fact.2⟩
  | cachedPrimary target word =>
      exact ⟨change.beginnable fact.1, change.cached fact.1
        (fun cell => cell.task = some target.task ∧ cell.route = some target.route)
        (fun _ _ h => h) fact.2⟩
  | cachedFallback target word =>
      exact ⟨change.beginnable fact.1, change.targets_known.2.2.1 fact.2.1, change.cached fact.1
        (fun cell => cell.task = some target.task ∧ cell.route = some target.route)
        (fun _ _ h => h) fact.2.2⟩
  | bindTask => exact (change.binder inv ne fact).1
  | bindRoute | bindPeek | bindSet | bindGet | bindFallback | bindStore =>
      obtain ⟨bound, same⟩ := change.binder inv ne fact.1
      exact ⟨bound, by rw [same]; exact fact.2⟩
  | readTask use word =>
      cases use with
      | enqueue =>
          obtain ⟨enqueuing, handed, rest⟩ := fact
          obtain ⟨enqueuing', cell, interest, finishes, retired, marked⟩ :=
            change.enqueuing inv ne enqueuing
          exact ⟨enqueuing', by rw [marked]; exact handed, rest⟩
      | complete => exact ⟨(change.completing inv ne fact.1).1, fact.2⟩
      | clone => exact change.cloning inv fact
  | readRoute use =>
      cases use with
      | enqueue =>
          obtain ⟨enqueuing, handed, taskEq, rest⟩ := fact
          obtain ⟨enqueuing', cell, interest, finishes, retired, marked⟩ :=
            change.enqueuing inv ne enqueuing
          exact ⟨enqueuing', by rw [marked]; exact handed, by rw [cell]; exact taskEq, rest⟩
      | complete => exact ⟨(change.completing inv ne fact.1).1, fact.2⟩
      | clone => exact change.cloning inv fact
  | readHub use =>
      cases use with
      | enqueue =>
          obtain ⟨enqueuing, handed, taskEq, routeEq, rest⟩ := fact
          obtain ⟨enqueuing', cell, interest, finishes, retired, marked⟩ :=
            change.enqueuing inv ne enqueuing
          exact ⟨enqueuing', by rw [marked]; exact handed, by rw [cell]; exact taskEq,
            by rw [cell]; exact routeEq, rest⟩
      | complete => exact ⟨(change.completing inv ne fact.1).1, fact.2⟩
      | clone => exact change.cloning inv fact
  | hand =>
      obtain ⟨enqueuing, handed, targetEq, rest⟩ := fact
      obtain ⟨enqueuing', cell, interest, finishes, retired, marked⟩ :=
        change.enqueuing inv ne enqueuing
      exact ⟨enqueuing', by rw [marked]; exact handed, by rw [marked]; exact targetEq, rest⟩
  | publish =>
      obtain ⟨⟨cause, enqueuing, delivered⟩, rest⟩ := fact
      obtain ⟨enqueuing', cell, interest, finishes, retired, marked⟩ :=
        change.enqueuing inv ne enqueuing
      exact ⟨⟨cause, enqueuing', by rw [marked, change.id_eq]; exact delivered⟩, rest⟩
  | republish =>
      obtain ⟨completing, ⟨target, targetEq, hubEq⟩, rest⟩ := fact
      obtain ⟨completing', cell, interest, finishes, retired, marked⟩ :=
        change.completing inv ne completing
      exact ⟨completing', ⟨target, by rw [marked]; exact targetEq, hubEq⟩, rest⟩
  | complete _ generation =>
      obtain ⟨⟨cause, won⟩, interest, completed, ⟨target, targetEq, hubEq⟩, rest⟩ := fact
      obtain ⟨interest', finishes, retired, marked⟩ := change.claimed_frame inv ne won.claims
      have claims' : (shared'.history generation).claims = [(other, cause)] := by
        rw [marked]
        exact won.claims
      have published' : (shared'.history generation).published ≠ [] := by
        rw [marked]
        simp [won.published]
      exact ⟨⟨cause, inv'.won claims' published'⟩, change.interest_mono inv interest,
        by rw [marked]; exact completed, ⟨target, by rw [marked]; exact targetEq, hubEq⟩, rest⟩

theorem pcFact (change : Change thread shared shared') (inv : shared.Inv)
    (inv' : shared'.Inv) (ne : other ≠ thread) {pc : Pc τ ρ η}
    (fact : PcFact other shared pc) : PcFact other shared' pc := by
  cases pc with
  | rest last =>
      cases last with
      | none => trivial
      | some =>
          obtain ⟨interested, resumed⟩ := fact
          refine ⟨fun pending => ?_, fun cause outcome => ?_⟩
          · obtain ⟨token, member, interest⟩ := interested pending
            exact ⟨token, member, change.interest_mono inv interest⟩
          · obtain ⟨token, member, finishes⟩ := resumed cause outcome
            exact ⟨token, member, change.finishes_eq inv finishes⟩
  | run op stage =>
      obtain ⟨wait, issued, generation, begins⟩ := fact.1
      refine ⟨⟨?_, ?_, generation, begins⟩, change.stageFact inv inv' ne op fact.2⟩
      · rw [change.id_eq]
        exact wait
      · exact fun owner token member =>
          Nat.le_trans (issued owner token member) (change.issued_le inv)
  | panicked => exact fact

/-- The local invariant of a thread survives the steps of all others. -/
theorem keeps_local (change : Change thread shared shared') (inv : shared.Inv)
    (ne : other ≠ thread) {pc : Pc τ ρ η} (mine : Local other shared pc) :
    Local other shared' pc where
  fact := change.pcFact inv (change.inv inv) ne mine.fact
  owes generation cause claims' published' := by
    have claims := change.claims_back inv ne claims'
    obtain ⟨interest, finishes, retired, marked⟩ := change.claimed_frame inv ne claims
    rw [marked] at published'
    exact mine.owes generation cause claims published'
  owesCompletion generation cause claims' published' interest' completed' := by
    have claims := change.claims_back inv ne claims'
    obtain ⟨interest, finishes, retired, marked⟩ := change.claimed_frame inv ne claims
    have published : (shared.history generation).published ≠ [] := by
      rwa [marked] at published'
    have completed : (shared.history generation).completed = [] := by
      rwa [marked] at completed'
    exact mine.owesCompletion generation cause claims published
      (change.interest_back inv published interest') completed

end Other

end Change

end VThread.Wait
