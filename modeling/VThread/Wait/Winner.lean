import Mathlib.Logic.Relation
import VThread.Wait.Steps

/-!
# One winner for each generation

At most one generation is unfinished, each generation is claimed at most once, and the
thread that claims it hands over its only notice and publishes its cause.
-/

namespace VThread.Wait

open VThread.Lib

variable {ι τ ρ η : Type}

/-- A generation that was begun and has not ended. -/
def Shared.Unfinished (shared : Shared ι τ ρ η) (generation : Nat) : Prop :=
  (shared.history generation).target.isSome ∧ (shared.history generation).retired = false

/-- A step that takes a generation from active to claimed. -/
def Claims (shared shared' : Shared ι τ ρ η) (generation : Nat) : Prop :=
  shared.cell.state.generation = generation ∧ shared.cell.state.phase = .active ∧
    ∃ cause, shared'.cell.state.phase = .claim cause

namespace Stage

/-- Stages of `bind_target`. -/
def binds : Stage τ ρ η → Bool
  | .bindTask .. | .bindRoute .. | .bindPeek .. | .bindSet .. | .bindGet .. | .bindFallback ..
  | .bindStore .. => true
  | _ => false

/-- Own steps a begin may take before it looks at the current word. -/
def beginRank : Stage τ ρ η → Nat
  | .cachedTask .. => 4
  | .cachedRoute .. => 3
  | .cachedPrimary .. => 2
  | .cachedFallback .. => 1
  | _ => 0

/-- Own steps a winner may take before it publishes. -/
def rank : Stage τ ρ η → Nat
  | .readTask (.enqueue ..) _ => 8
  | .readRoute (.enqueue ..) .. => 7
  | .readHub (.enqueue ..) .. => 6
  | .hand .. => 5
  | .publish .. => 4
  | .readTask .. => 3
  | .readRoute .. => 2
  | .readHub .. => 1
  | _ => 0

/-- Own steps a finish may take before it retires `word`: one that expects another word has
to fail and load again. -/
def finishRank (word : WaitWord) : Stage τ ρ η → Nat
  | .exchange expected _ _ => if expected = word then 0 else 2
  | .load => 1
  | _ => 3

end Stage

/-- The token of a call that ends a wait. -/
def Op.finishToken? : Op τ ρ η → Option ParkToken
  | .finish token | .finishPlainReady token | .finishPermitReady token => some token
  | _ => none

def Pc.rank : Pc τ ρ η → Nat
  | .run _ stage => stage.rank
  | _ => 0

/-- The token of a running finish, and the own steps it may take before it retires `word`. -/
def Pc.finishing? (word : WaitWord) : Pc τ ρ η → Option (ParkToken × Nat)
  | .run (.finish token) stage => some (token, stage.finishRank word)
  | _ => none

theorem Pc.finishing?_eq_some {word : WaitWord} {pc : Pc τ ρ η} {token : ParkToken} {rank : Nat}
    (finishing : pc.finishing? word = some (token, rank)) :
    ∃ stage, pc = .run (.finish token) stage ∧ stage.finishRank word = rank := by
  cases pc with
  | run op stage =>
      cases op with
      | finish token' =>
          cases finishing
          exact ⟨stage, rfl, rfl⟩
      | _ => cases finishing
  | _ => cases finishing

/-! ## Claims -/

namespace Change

variable {thread : ι} {shared shared' : Shared ι τ ρ η} {generation : Nat} {cause : WakeCause}

/-- The history names the thread that claims a generation. -/
theorem claims (change : Change thread shared shared') (inv : shared.Inv)
    (active : shared.cell.state.phase = .active) (claim : shared'.cell.state.phase = .claim cause) :
    (shared'.history shared.cell.state.generation).claims = [(thread, cause)] := by
  cases change with
  | claim own next _ phase gen =>
      have same : own = cause := by
        have equal : next.phase = .claim cause := claim
        rw [phase] at equal
        cases equal
        rfl
      rw [← gen, Shared.note_self, Shared.setState_history, gen, ← Shared.now_eq,
        (inv.current.untouched (.inr active)).1.claims, same]
  | same => simp [active] at claim
  | adjust next _ _ phase =>
      have equal : next.phase = .claim cause := claim
      simp [phase, active] at equal
  | activate _ _ idle =>
      simp [active] at idle
  | bind _ _ idle => simp [active] at idle
  | write _ binding =>
      simp [active] at binding
  | opened _ _ binding =>
      simp [active] at binding
  | interest claimed => simp [unclaimed_of_active active] at claimed
  | hand _ _ _ phase => simp [active] at phase
  | publish _ _ phase => simp [active] at phase
  | complete =>
      have equal : shared.cell.state.phase = .claim cause := claim
      simp [active] at equal
  | retire next _ _ phase =>
      have equal : next.phase = .claim cause := claim
      simp [phase] at equal

/-- A claim is never forgotten or repeated. -/
theorem claims_kept (change : Change thread shared shared') (inv : shared.Inv) {winner : ι}
    (claims : (shared.history generation).claims = [(winner, cause)]) :
    (shared'.history generation).claims = [(winner, cause)] := by
  rw [← claims]
  cases change with
  | activate target next =>
      exact @Shared.note_view _ _ _ _ (shared.setState next) next.generation
        (fun record => { record with target := some target }) _ Record.claims rfl generation
  | bind | interest | hand | publish | complete | retire =>
      exact Shared.note_view _ _ Record.claims (by rfl) generation
  | claim _ next active _ gen =>
      have ne : generation ≠ next.generation := by
        intro equal
        rw [equal, gen, ← Shared.now_eq,
          (inv.current.untouched (.inr active)).1.claims] at claims
        cases claims
      rw [Shared.note_ne _ _ ne]
      rfl
  | _ => rfl

/-- A publication leaves the selected word of the claimed cause. -/
theorem publishes (change : Change thread shared shared') (inv : shared.Inv) {winner : ι}
    (claims : (shared.history generation).claims = [(winner, cause)])
    (unpublished : (shared.history generation).published = [])
    (published : (shared'.history generation).published ≠ []) :
    shared'.cell.state.phase = .selected cause ∧
      shared'.cell.state.generation = generation := by
  obtain ⟨equal, claimed⟩ := inv.unpublished claims unpublished
  rw [← unpublished] at published
  cases change with
  | activate target next =>
      exact (published (@Shared.note_view _ _ _ _ (shared.setState next) next.generation
        (fun record => { record with target := some target }) _ Record.published rfl
        generation)).elim
  | bind | claim | interest | hand | complete | retire =>
      exact (published (Shared.note_view _ _ Record.published (by rfl) generation)).elim
  | publish _ _ phase _ _ next_eq =>
      rw [claimed] at phase
      cases phase
      subst next_eq
      exact ⟨rfl, equal.symm⟩
  | _ => exact (published rfl).elim

/-- Generations start at one. -/
theorem zero (change : Change thread shared shared')
    (unbegun : (shared.history 0).target = none) : (shared'.history 0).target = none := by
  rw [← unbegun]
  cases change with
  | activate =>
      exact congrArg Record.target (Function.update_of_ne (by omega) _ _)
  | bind =>
      exact congrArg Record.target (Shared.note_ne _ _ (by omega))
  | claim | interest | hand | publish | complete | retire =>
      exact Shared.note_view _ _ Record.target (by rfl) 0
  | _ => rfl

end Change

/-! ## Unfinished generations -/

section Unfinished

variable {shared : Shared ι τ ρ η} {generation : Nat}

/-- The unfinished generation is the current one, in any phase but idle. -/
theorem Shared.Inv.unfinished (inv : shared.Inv) (zero : (shared.history 0).target = none) :
    shared.Unfinished generation ↔
      generation = shared.cell.state.generation ∧ shared.cell.state.phase ≠ .idle := by
  constructor
  · rintro ⟨begun, unretired⟩
    have positive : 0 < generation := by
      rw [Nat.pos_iff_ne_zero]
      intro equal
      rw [equal, zero] at begun
      cases begun
    have notOver : ∀ id, ¬ (shared.history generation).Over id generation := by
      intro id ended
      rw [ended.1 positive] at unretired
      cases unretired
    have notAbove : ¬ shared.cell.state.generation < generation := by
      intro above
      rw [inv.future generation above] at begun
      cases begun
    have notBelow : ¬ generation < shared.cell.state.generation := fun below =>
      notOver _ (inv.past generation below)
    have equal : generation = shared.cell.state.generation := by omega
    refine ⟨equal, fun idle => ?_⟩
    subst equal
    exact notOver _ (inv.current.idle idle)
  · rintro ⟨rfl, live⟩
    obtain ⟨-, target, target_eq⟩ := inv.started live
    refine ⟨by simp [← Shared.now_eq, target_eq], ?_⟩
    cases phase : shared.cell.state.phase with
    | idle => exact (live phase).elim
    | binding => exact (inv.current.untouched (.inl phase)).2
    | active => exact (inv.current.untouched (.inr phase)).2
    | claim cause =>
        obtain ⟨_, -, -, -, -, unretired, -⟩ := inv.current.claimed phase
        exact unretired
    | selected cause =>
        obtain ⟨_, -, -, unretired⟩ := inv.current.selected phase
        exact unretired

end Unfinished

/-- A generation is untouched or has one winner. -/
theorem Shared.Inv.untouched_or_claimed {shared : Shared ι τ ρ η} (inv : shared.Inv)
    (generation : Nat) : (shared.history generation).Untouched ∨
      ∃ thread cause, (shared.history generation).claims = [(thread, cause)] := by
  have ofOver : ∀ {id}, (shared.history generation).Over id generation →
      (shared.history generation).Untouched ∨
        ∃ thread cause, (shared.history generation).claims = [(thread, cause)] := by
    intro id ended
    rcases ended.2 with untouched | ⟨thread, cause, won⟩
    · exact .inl untouched
    · exact .inr ⟨thread, cause, won.claims⟩
  by_cases above : shared.cell.state.generation < generation
  · left
    rw [inv.future generation above]
    exact Record.untouched_empty
  by_cases below : generation < shared.cell.state.generation
  · exact ofOver (inv.past generation below)
  have equal : generation = shared.cell.state.generation := by omega
  subst equal
  cases phase : shared.cell.state.phase with
  | idle => exact ofOver (inv.current.idle phase)
  | binding => exact .inl (inv.current.untouched (.inl phase)).1
  | active => exact .inl (inv.current.untouched (.inr phase)).1
  | claim cause =>
      obtain ⟨thread, claims, -⟩ := inv.current.claimed phase
      exact .inr ⟨thread, cause, claims⟩
  | selected cause =>
      obtain ⟨thread, won, -⟩ := inv.current.selected phase
      exact .inr ⟨thread, cause, won.claims⟩

/-- Nothing follows a claim before its publication. -/
theorem Shared.Inv.unsettled {shared : Shared ι τ ρ η} (inv : shared.Inv) {generation : Nat}
    {thread : ι} {cause : WakeCause}
    (claims : (shared.history generation).claims = [(thread, cause)])
    (unpublished : (shared.history generation).published = []) :
    (shared.history generation).completed = [] ∧ (shared.history generation).finishes = [] ∧
      (shared.history generation).lateReads = 0 := by
  obtain ⟨equal, phase⟩ := inv.unpublished claims unpublished
  obtain ⟨_, -, -, completed, finishes, -, lateReads⟩ := inv.current.claimed phase
  rw [equal]
  exact ⟨completed, finishes, lateReads⟩

/-! ## Begins -/

/-- What a begin works with: words that were idle when it observed them. -/
def BeginStage : Stage τ ρ η → Prop
  | .load => True
  | .exchange expected _ (.adjust _) | .exchange expected _ (.activate _)
  | .exchange expected _ (.bind _) => expected.phase = .idle
  | .cachedTask _ word | .cachedRoute _ word | .cachedPrimary _ word | .cachedFallback _ word =>
      word.phase = .idle
  | .bindTask .. | .bindRoute .. | .bindPeek .. | .bindSet .. | .bindGet .. | .bindFallback ..
  | .bindStore .. => True
  | _ => False

def BeginPc : Pc τ ρ η → Prop
  | .run (.begin _) stage => BeginStage stage
  | _ => True

section Begin

variable {shared : Shared ι τ ρ η} {target : Target τ ρ η}

theorem settle_begin (expired : Bool) (word : WaitWord) :
    BeginPc (settle (.begin target) word (beginResident target expired word)) := by
  rw [beginResident]
  split
  · trivial
  rename_i idle
  have idle : word.phase = .idle := Decidable.not_not.1 idle
  split
  · trivial
  split
  · exact idle
  split
  · trivial
  split
  · trivial
  · exact idle

/-- A begin that sees a live generation is turned away. -/
theorem settle_busy (expired : Bool) {word : WaitWord} (live : word.phase ≠ .idle) :
    settle (.begin target) word (beginResident target expired word) =
      .rest (some (.begin target, .parkerBusy)) := by
  rw [beginResident, if_pos live]
  rfl

theorem activation_begin {other : Target τ ρ η} {word : WaitWord} (idle : word.phase = .idle)
    (cached : Option Bool) : BeginPc (activation (.begin target) other word cached) := by
  cases cached <;> exact idle

variable [DecidableEq ι] [DecidableEq τ] [DecidableEq ρ] [DecidableEq η]

/-- A begin only goes through its own stages. -/
theorem advanceStage_begin (thread : ι) (choice : Choice τ ρ η) {stage : Stage τ ρ η}
    (begins : BeginStage stage) :
    BeginPc (advanceStage thread choice shared (.begin target) stage).2 := by
  cases stage with
  | load => exact settle_begin choice.expired _
  | exchange _ _ won =>
      rw [advanceStage]
      split
      · cases won with
        | bind _ => trivial
        | adjust _ => trivial
        | activate _ => trivial
        | claim _ _ _ => exact begins.elim
        | interest _ => exact begins.elim
        | finish _ => exact begins.elim
        | retire _ => exact begins.elim
      · exact settle_begin choice.expired _
  | cachedTask | cachedRoute =>
      rw [advanceStage]
      split
      · exact begins
      · exact activation_begin begins none
  | cachedPrimary =>
      rw [advanceStage]
      split
      · exact activation_begin begins none
      split
      · exact activation_begin begins (some false)
      · exact begins
  | cachedFallback =>
      rw [advanceStage]
      split
      · exact activation_begin begins (some true)
      · exact activation_begin begins none
  | bindTask | bindRoute | bindSet | bindFallback | bindStore => trivial
  | bindPeek _ _ =>
      rw [advanceStage]
      split <;> trivial
  | bindGet _ _ =>
      rw [advanceStage]
      split
      · trivial
      split <;> trivial
  | readTask | readRoute | readHub | hand | publish | republish | complete => exact begins.elim

/-- A running call stays the same call. -/
theorem advanceStage_op (thread : ι) (choice : Choice τ ρ η) (shared : Shared ι τ ρ η)
    (op : Op τ ρ η) (stage : Stage τ ρ η) :
    ∀ op' stage', (advanceStage thread choice shared op stage).2 = .run op' stage' → op' = op := by
  have settled : ∀ word attempt op' stage', settle op word attempt = .run op' stage' →
      op' = op := by
    intro word attempt op' stage' equal
    cases attempt <;> cases equal <;> rfl
  intro op' stage' equal
  cases stage with
  | load => exact settled _ _ _ _ equal
  | exchange _ _ won =>
      rw [advanceStage] at equal
      split at equal
      · cases won <;> cases equal <;> rfl
      split at equal
      · exact settled _ _ _ _ equal
      · cases equal
        rfl
  | readHub use =>
      rw [advanceStage] at equal
      split at equal
      · cases equal
      cases use with
      | enqueue _ _ _ =>
          dsimp only at equal
          split at equal <;> cases equal <;> rfl
      | complete _ => cases equal; rfl
      | clone => cases equal; rfl
  | publish =>
      rw [advanceStage] at equal
      split at equal
      · cases equal
      repeat' split at equal
      all_goals cases equal
      rfl
  | _ =>
      rw [advanceStage] at equal
      repeat' split at equal
      all_goals first | (cases equal; rfl) | cases equal

/-- A begin other than the one that binds the live generation changes nothing: it is turned
away at its next look at the word, which it reaches in a bounded number of steps. -/
theorem begin_busy (thread : ι) (choice : Choice τ ρ η) (target : Target τ ρ η)
    {stage : Stage τ ρ η} (live : shared.cell.state.phase ≠ .idle) (begins : BeginStage stage)
    (unbound : stage.binds = false) :
    (advanceStage thread choice shared (.begin target) stage).1 = shared ∧
      ((advanceStage thread choice shared (.begin target) stage).2 =
          .rest (some (.begin target, .parkerBusy)) ∨
        ∃ stage', (advanceStage thread choice shared (.begin target) stage).2 =
          .run (.begin target) stage' ∧ stage'.binds = false ∧
            stage'.beginRank < stage.beginRank) := by
  cases stage with
  | load => exact ⟨rfl, .inl (settle_busy choice.expired live)⟩
  | exchange expected next won =>
      have ne : shared.cell.state ≠ expected := by
        rintro rfl
        cases won with
        | bind _ => exact live begins
        | adjust _ => exact live begins
        | activate _ => exact live begins
        | claim _ _ _ => exact begins
        | interest _ => exact begins
        | finish _ => exact begins
        | retire _ => exact begins
      rw [advanceStage, if_neg ne]
      exact ⟨rfl, .inl (settle_busy choice.expired live)⟩
  | cachedTask | cachedRoute | cachedFallback =>
      rw [advanceStage]
      split
      · exact ⟨rfl, .inr ⟨_, rfl, rfl, by simp [Stage.beginRank]⟩⟩
      · exact ⟨rfl, .inr ⟨_, rfl, rfl, by simp [Stage.beginRank]⟩⟩
  | cachedPrimary =>
      rw [advanceStage]
      split
      · exact ⟨rfl, .inr ⟨_, rfl, rfl, by simp [Stage.beginRank]⟩⟩
      split
      · exact ⟨rfl, .inr ⟨_, rfl, rfl, by simp [Stage.beginRank]⟩⟩
      · exact ⟨rfl, .inr ⟨_, rfl, rfl, by simp [Stage.beginRank]⟩⟩
  | readTask | readRoute | readHub | hand | publish | republish | complete => exact begins.elim
  | _ => cases unbound

end Begin

/-! ## Finishes -/

/-- What a finish works with. -/
def FinishStage : Stage τ ρ η → Prop
  | .load | .exchange _ _ (.finish _) => True
  | _ => False

section Finish

variable {shared : Shared ι τ ρ η} {op : Op τ ρ η} {token : ParkToken}

theorem settle_finish (takePermit : Bool) (word : WaitWord) {stage : Stage τ ρ η}
    (running : settle op word (finishSlow takePermit token word) = .run op stage) :
    FinishStage stage := by
  rw [finishSlow] at running
  split at running
  · cases running
  split at running
  · cases running
    trivial
  split at running
  · cases running
  · cases running
    trivial

theorem attempt_finish (finishing : op.finishToken? = some token) :
    ∃ takePermit, ∀ expired word, op.attempt expired word = finishSlow takePermit token word := by
  cases op <;> cases finishing <;> exact ⟨_, fun _ _ => rfl⟩

theorem finish_reloads (finishing : op.finishToken? = some token) :
    op.keepsObserved = false := by
  cases op <;> cases finishing <;> rfl

theorem start_finish (finishing : op.finishToken? = some token) : FinishStage op.start := by
  cases op <;> cases finishing <;> trivial

variable [DecidableEq ι] [DecidableEq τ] [DecidableEq ρ] [DecidableEq η]

/-- A finish only goes through its own stages. -/
theorem advanceStage_finish (thread : ι) (choice : Choice τ ρ η)
    (finishing : op.finishToken? = some token) {stage stage' : Stage τ ρ η}
    (finishes : FinishStage stage)
    (running : (advanceStage thread choice shared op stage).2 = .run op stage') :
    FinishStage stage' := by
  obtain ⟨takePermit, attempt⟩ := attempt_finish finishing
  cases stage with
  | load =>
      rw [advanceStage, attempt] at running
      exact settle_finish takePermit _ running
  | exchange _ _ won =>
      cases won with
      | finish cause =>
          rw [advanceStage, finish_reloads finishing] at running
          split at running
          · cases running
          · cases running
            trivial
      | _ => exact finishes.elim
  | _ => exact finishes.elim

/-- A finish at the selected word of its generation retires it and returns its cause, or
comes closer to that. -/
theorem finish_selected (thread : ι) (choice : Choice τ ρ η)
    (finishing : op.finishToken? = some token) {stage : Stage τ ρ η} (finishes : FinishStage stage)
    (fact : StageFact thread shared op stage)
    (current : shared.cell.state.generation = token.generation) {cause : WakeCause}
    (selected : shared.cell.state.phase = .selected cause) :
    ((advanceStage thread choice shared op stage).1 = shared ∧
      ∃ stage', (advanceStage thread choice shared op stage).2 = .run op stage' ∧
        stage'.finishRank shared.cell.state < stage.finishRank shared.cell.state) ∨
    ∃ next, next.phase = .idle ∧ next.generation = token.generation ∧
      advanceStage thread choice shared op stage =
        (shared.commit thread next (.finish cause), .rest (some (op, .resumed cause))) := by
  obtain ⟨takePermit, attempt⟩ := attempt_finish finishing
  cases stage with
  | load =>
      left
      refine ⟨rfl, ?_⟩
      have unclaimed : ¬ (shared.cell.state.isClaimed ∨ shared.cell.state.phase = .binding) := by
        simp [WaitWord.isClaimed, selected]
      rw [advanceStage, attempt, finishSlow, if_neg (not_not.2 current), if_neg unclaimed,
        WaitWord.selectedCause_eq_some.2 selected]
      exact ⟨_, rfl, by simp [Stage.finishRank]⟩
  | exchange expected next won =>
      cases won with
      | finish other =>
          obtain ⟨phase, idle, generation, -, -⟩ := fact
          rw [advanceStage, finish_reloads finishing]
          split
          · rename_i equal
            right
            rw [← equal] at phase generation
            rw [selected] at phase
            cases phase
            exact ⟨next, idle, generation.trans current, rfl⟩
          · rename_i other
            left
            refine ⟨rfl, _, rfl, ?_⟩
            simp [Stage.finishRank, Ne.symm other]
      | _ => exact finishes.elim
  | _ => exact finishes.elim

end Finish

/-! ## Winners -/

section Winner

variable {shared : Shared ι τ ρ η}

/-- A winner has handed nothing over, or its one notice. -/
theorem Local.handed {thread : ι} {pc : Pc τ ρ η} {generation : Nat} {cause : WakeCause}
    (mine : Local thread shared pc)
    (claims : (shared.history generation).claims = [(thread, cause)])
    (unpublished : (shared.history generation).published = []) :
    (shared.history generation).handed = [] ∨
      (shared.history generation).Delivered shared.cell.id generation thread cause := by
  have owed := mine.owes generation cause claims unpublished
  have same : ∀ {other}, (shared.history generation).claims = [(thread, other)] →
      other = cause := by
    intro other equal
    rw [claims] at equal
    cases equal
    rfl
  cases pc with
  | rest last => cases owed
  | panicked => cases owed
  | run op stage =>
      obtain ⟨-, fact⟩ := mine.fact
      cases stage with
      | readTask use word =>
          cases use with
          | enqueue _ _ _ =>
              cases owed
              exact .inl fact.2.1
          | complete _ =>
              cases owed
              obtain ⟨other, -, otherClaims, delivered⟩ := fact.1.claimed
              rw [same otherClaims] at delivered
              exact .inr delivered
          | clone => cases owed
      | readRoute use =>
          cases use with
          | enqueue _ _ _ =>
              cases owed
              exact .inl fact.2.1
          | complete _ =>
              cases owed
              obtain ⟨other, -, otherClaims, delivered⟩ := fact.1.claimed
              rw [same otherClaims] at delivered
              exact .inr delivered
          | clone => cases owed
      | readHub use =>
          cases use with
          | enqueue _ _ _ =>
              cases owed
              exact .inl fact.2.1
          | complete _ =>
              cases owed
              obtain ⟨other, -, otherClaims, delivered⟩ := fact.1.claimed
              rw [same otherClaims] at delivered
              exact .inr delivered
          | clone => cases owed
      | hand =>
          cases owed
          exact .inl fact.2.1
      | publish _ _ =>
          cases owed
          obtain ⟨⟨other, enqueuing, delivered⟩, -⟩ := fact
          rw [same enqueuing.claims] at delivered
          exact .inr delivered
      | republish _ _ _ =>
          cases owed
          obtain ⟨other, -, otherClaims, delivered⟩ := fact.1.claimed
          rw [same otherClaims] at delivered
          exact .inr delivered
      | _ => cases owed

variable [DecidableEq ι] [DecidableEq τ] [DecidableEq ρ] [DecidableEq η]

/-- Each own step of a winner brings it closer to the publication. -/
theorem advanceStage_rank (thread : ι) (choice : Choice τ ρ η) (op : Op τ ρ η)
    {stage : Stage τ ρ η} (owes : stage.owes ≠ none)
    (owes' : (advanceStage thread choice shared op stage).2.owes ≠ none) :
    (advanceStage thread choice shared op stage).2.rank < stage.rank := by
  cases stage with
  | readTask use word =>
      rw [advanceStage] at owes' ⊢
      cases task : shared.cell.task with
      | none => simp [task, Pc.owes] at owes'
      | some _ => cases use <;> simp [Pc.rank, Stage.rank, Stage.owes] at owes ⊢
  | readRoute use =>
      rw [advanceStage] at owes' ⊢
      cases route : shared.cell.route with
      | none => simp [route, Pc.owes] at owes'
      | some _ => cases use <;> simp [Pc.rank, Stage.rank, Stage.owes] at owes ⊢
  | readHub use word =>
      rw [advanceStage] at owes' ⊢
      cases hub : shared.cell.hubFor word with
      | error _ => simp [hub, Pc.owes] at owes'
      | ok _ =>
          cases use with
          | enqueue _ _ _ => by_cases fallback : word.fallbackHub <;>
              simp [fallback, Pc.rank, Stage.rank]
          | complete _ => simp [Pc.rank, Stage.rank]
          | clone => exact (owes rfl).elim
  | hand => simp [advanceStage, Pc.rank, Stage.rank]
  | publish outcome word =>
      rw [advanceStage] at owes' ⊢
      cases next : word.publishClaim with
      | error _ => simp [next, Pc.owes] at owes'
      | ok _ =>
          simp only [next] at owes' ⊢
          split
          · rename_i equal
            simp [equal, Pc.owes] at owes'
          split
          · simp [Pc.rank, Stage.rank]
          split
          · simp [Pc.rank, Stage.rank]
          · simp [Pc.rank, Stage.rank]
  | republish _ observed =>
      rw [advanceStage] at owes' ⊢
      cases next : observed.publishClaim with
      | error _ => simp [next, Pc.owes] at owes'
      | ok _ =>
          simp only [next] at owes'
          split at owes'
          · exact (owes' rfl).elim
          · exact (owes' rfl).elim
  | _ => exact (owes rfl).elim

/-- A call with a token changes the cell only while its generation is the current one. -/
theorem advanceStage_token {thread : ι} (choice : Choice τ ρ η) {op : Op τ ρ η}
    {stage : Stage τ ρ η} (tokens : TokenFact shared op stage) {token : ParkToken}
    (member : token ∈ op.token?) :
    (advanceStage thread choice shared op stage).1.cell = shared.cell ∨
      shared.cell.state.generation = token.generation := by
  have unstarted : stage.begins = false := by
    rw [← Bool.not_eq_true]
    intro begins
    rw [tokens.begins begins] at member
    cases member
  have noteRead : ∀ use generation,
      (shared.noteRead thread use generation).cell = shared.cell := by
    intro use generation
    cases use <;> rfl
  cases stage with
  | load | hand | complete => exact .inl rfl
  | exchange =>
      rw [advanceStage]
      split
      · rename_i equal
        rw [equal]
        exact .inr (tokens.generation token member _ rfl)
      split
      · exact .inl rfl
      · exact .inl rfl
  | readTask | readRoute => exact .inl (noteRead _ _)
  | readHub =>
      left
      rw [advanceStage]
      split
      · exact noteRead _ _
      split
      · split
        · exact noteRead _ _
        · exact noteRead _ _
      · exact noteRead _ _
      · exact noteRead _ _
  | publish =>
      rw [advanceStage]
      split
      · exact .inl rfl
      split
      · rename_i equal
        rw [equal]
        exact .inr (tokens.generation token member _ rfl)
      split
      · exact .inl rfl
      split
      · exact .inl rfl
      · exact .inl rfl
  | republish =>
      rw [advanceStage]
      split
      · exact .inl rfl
      split
      · rename_i equal
        rw [equal]
        exact .inr (tokens.generation token member _ rfl)
      · exact .inl rfl
  | _ => cases unstarted

end Winner

/-! ## Runs -/

section Runs

variable [DecidableEq ι] [DecidableEq τ] [DecidableEq ρ] [DecidableEq η]

/-- The interleavings of all calls on one cell. -/
abbrev cellSystem (ι τ ρ η : Type) [DecidableEq ι] [DecidableEq τ] [DecidableEq ρ]
    [DecidableEq η] : System (Threads ι (Shared ι τ ρ η) (Pc τ ρ η)) :=
  program.system

variable {state next : Threads ι (Shared ι τ ρ η) (Pc τ ρ η)}

/-- Every step of a run is a change by one thread. -/
theorem reachable_change (reachable : (cellSystem ι τ ρ η).Reachable state)
    (step : (cellSystem ι τ ρ η).step state next) :
    ∃ thread, Change thread state.shared next.shared := by
  obtain ⟨inv, locals⟩ := reachable_inv reachable
  cases step with
  | mk thread advance => exact ⟨thread, (advance_own inv (locals thread) advance).1⟩

theorem reachable_zero (reachable : (cellSystem ι τ ρ η).Reachable state) :
    (state.shared.history 0).target = none := by
  apply System.Reachable.induct ?_ ?_ reachable
  · rintro state ⟨⟨id, initial⟩, -⟩
    rw [initial]
    rfl
  · intro state next reachable zero step
    obtain ⟨thread, change⟩ := reachable_change reachable step
    exact change.zero zero

/-- What holds of the first stage of each call, and of the next stage after every step. -/
theorem reachable_stage {Holds : Op τ ρ η → Stage τ ρ η → Prop} (start : ∀ op, Holds op op.start)
    (advances : ∀ thread choice (shared : Shared ι τ ρ η) op stage stage', Holds op stage →
      (advanceStage thread choice shared op stage).2 = .run op stage' → Holds op stage')
    (reachable : (cellSystem ι τ ρ η).Reachable state) {thread : ι} {op : Op τ ρ η}
    {stage : Stage τ ρ η} (pc : state.locals thread = .run op stage) : Holds op stage := by
  have both : True ∧ ∀ thread, ∀ op stage, state.locals thread = .run op stage →
      Holds op stage := by
    refine @Program.invariant _ _ _ _ _ (fun _ => True)
      (fun _ _ pc => ∀ op stage, pc = .run op stage → Holds op stage) ?_ ?_ ?_ _ reachable
    · refine fun _ _ => ⟨trivial, fun _ op stage equal => ?_⟩
      cases equal
    · intro thread shared pc shared' pc' _ holds advance
      refine ⟨trivial, ?_⟩
      obtain ⟨choice, moved⟩ := advance
      cases pc with
      | rest last =>
          obtain ⟨-, -, rfl⟩ := moved
          intro op stage equal
          rw [Op.call] at equal
          split at equal
          · cases equal
            exact start _
          · cases equal
      | run op stage =>
          change (shared', pc') = _ at moved
          have pc_eq : pc' = (advanceStage thread choice shared op stage).2 :=
            congrArg Prod.snd moved
          intro op' stage' equal
          rw [pc_eq] at equal
          cases advanceStage_op thread choice shared op stage op' stage' equal
          exact advances thread choice shared op stage stage' (holds op stage rfl) equal
      | panicked => exact moved.elim
    · exact fun _ _ _ _ _ _ _ _ _ _ holds _ => holds
  exact both.2 thread op stage pc

theorem reachable_begin (reachable : (cellSystem ι τ ρ η).Reachable state) (thread : ι) :
    BeginPc (state.locals thread) := by
  cases pc : state.locals thread with
  | rest last => trivial
  | panicked => trivial
  | run op stage =>
      apply @reachable_stage ι τ ρ η _ _ _ _ state (fun op stage => BeginPc (.run op stage)) ?_ ?_
        reachable thread op stage pc
      · intro op
        cases op <;> trivial
      · intro thread choice shared op stage stage' begins running
        rw [← running]
        cases op with
        | begin target => exact advanceStage_begin thread choice begins
        | _ => rw [running]; trivial

theorem reachable_finish (reachable : (cellSystem ι τ ρ η).Reachable state) {thread : ι}
    {op : Op τ ρ η} {stage : Stage τ ρ η} (pc : state.locals thread = .run op stage)
    {token : ParkToken} (finishing : op.finishToken? = some token) : FinishStage stage := by
  refine @reachable_stage ι τ ρ η _ _ _ _ state
    (fun op stage => op.finishToken? = some token → FinishStage stage) ?_ ?_ reachable thread op
    stage pc finishing
  · exact fun op => start_finish
  · intro thread choice shared op stage stage' finishes running finishing
    exact advanceStage_finish thread choice finishing (finishes finishing) running

/-! ## Schedules -/

instance (shared : Shared ι τ ρ η) (op : Op τ ρ η) : Decidable (shared.Permits op) :=
  inferInstanceAs (Decidable (op.isOwner = true → ∀ token ∈ op.token?,
    token.wait = shared.cell.id → token.generation ≤ shared.issued))

/-- The atomic step of a thread for a choice. -/
def nextStep (thread : ι) (choice : Choice τ ρ η) (shared : Shared ι τ ρ η) :
    Pc τ ρ η → Option (Shared ι τ ρ η × Pc τ ρ η)
  | .rest _ => if shared.Permits choice.op then some (shared, choice.op.call shared.cell.id)
      else none
  | .run op stage => some (advanceStage thread choice shared op stage)
  | .panicked _ => none

def scheduler (ι τ ρ η : Type) [DecidableEq ι] [DecidableEq τ] [DecidableEq ρ]
    [DecidableEq η] :
    (program : Program ι (Shared ι τ ρ η) (Pc τ ρ η)).Scheduler (Choice τ ρ η) where
  next := nextStep
  sound := by
    intro thread choice shared pc result taken
    refine ⟨choice, ?_⟩
    cases pc with
    | rest last =>
        rw [nextStep] at taken
        split at taken
        · rename_i permits
          cases taken
          exact ⟨permits, rfl, rfl⟩
        · cases taken
    | run =>
        cases taken
        rfl
    | panicked => cases taken

/-- Threads that rest at a new cell. -/
def fresh (id : Nat) : Threads ι (Shared ι τ ρ η) (Pc τ ρ η) :=
  ⟨.initial id, fun _ => .rest none⟩

theorem fresh_reachable (id : Nat) : (cellSystem ι τ ρ η).Reachable (fresh id) :=
  .initial ⟨⟨id, rfl⟩, fun _ => rfl⟩

end Runs

/-! ## The law -/

section Law

variable [DecidableEq ι] [DecidableEq τ] [DecidableEq ρ] [DecidableEq η]

/-- What holds of the generations of a cell in one state. -/
structure SingleWinner (state : Threads ι (Shared ι τ ρ η) (Pc τ ρ η)) : Prop where
  /-- At most one generation is unfinished. -/
  unique : ∀ generation other, state.shared.Unfinished generation →
    state.shared.Unfinished other → generation = other
  /-- A generation has at most one winner. -/
  once : ∀ generation, (state.shared.history generation).claims.length ≤ 1
  /-- Only the winner hands a notice over, and only one, with the target and its cause. -/
  handed : ∀ generation, ∀ handed ∈ (state.shared.history generation).handed,
    ∃ cause, (state.shared.history generation).claims = [(handed.thread, cause)] ∧
      (state.shared.history generation).Delivered state.shared.cell.id generation
        handed.thread cause
  /-- A winner has handed its notice over and published its cause, or still owes both. -/
  winner : ∀ generation thread cause,
    (state.shared.history generation).claims = [(thread, cause)] →
      ((state.shared.history generation).published = [(thread, some cause)] ∧
        (state.shared.history generation).Delivered state.shared.cell.id generation thread
          cause) ∨
      ((state.shared.history generation).published = [] ∧
        (state.locals thread).owes = some generation ∧
        state.shared.cell.state.generation = generation ∧
        state.shared.cell.state.phase = .claim cause)
  /-- A finish returns the cause of the winner of its own generation. -/
  resumed : ∀ thread op cause, state.locals thread = .rest (some (op, .resumed cause)) →
    ∃ token ∈ op.token?, ∃ winner,
      (state.shared.history token.generation).claims = [(winner, cause)]

/-- What one atomic step of `thread` does to the generations of a cell. -/
structure SingleWinnerStep (thread : ι) (shared : Shared ι τ ρ η) (pc : Pc τ ρ η)
    (shared' : Shared ι τ ρ η) (pc' : Pc τ ρ η) : Prop where
  /-- A begin during an unfinished generation changes nothing and is turned away, at once
  when it looks at the word. -/
  busy : ∀ generation target stage, shared.Unfinished generation →
    pc = .run (.begin target) stage → stage.binds = false →
    shared' = shared ∧ (pc' = .rest (some (.begin target, .parkerBusy)) ∨
      ∃ stage', pc' = .run (.begin target) stage' ∧ stage'.binds = false ∧
        stage'.beginRank < stage.beginRank)
  /-- The thread that claims a generation becomes its winner. -/
  claimed : ∀ generation cause, Claims shared shared' generation →
    shared'.cell.state.phase = .claim cause →
    (shared'.history generation).claims = [(thread, cause)]
  /-- A winner comes closer to the publication, which leaves the selected word of its
  cause. -/
  publishes : ∀ generation cause,
    (shared.history generation).claims = [(thread, cause)] →
    (shared.history generation).published = [] →
    (pc'.owes = some generation ∧ pc'.rank < pc.rank) ∨
      ((shared'.history generation).published = [(thread, some cause)] ∧
        shared'.cell.state.phase = .selected cause ∧
        shared'.cell.state.generation = generation)
  /-- A call with a token of another generation than the current one changes nothing. -/
  stale : ∀ op stage, pc = .run op stage → ∀ token ∈ op.token?,
    shared.cell.state.generation ≠ token.generation → shared'.cell = shared.cell
  /-- A call that is answered at once has a token of another cell. -/
  answered : ∀ last op outcome, pc = .rest last → pc' = .rest (some (op, outcome)) →
    ∃ token ∈ op.token?, token.wait ≠ shared.cell.id
  /-- A finish of a selected generation retires it and returns the cause of its winner, or
  comes closer to that and changes nothing. -/
  finishes : ∀ op stage token cause, pc = .run op stage → op.finishToken? = some token →
    shared.cell.state.generation = token.generation →
    shared.cell.state.phase = .selected cause →
    (∃ winner, (shared.history token.generation).claims = [(winner, cause)]) ∧
    ((shared' = shared ∧ ∃ stage', pc' = .run op stage' ∧
        stage'.finishRank shared.cell.state < stage.finishRank shared.cell.state) ∨
      (pc' = .rest (some (op, .resumed cause)) ∧ shared'.cell.state.phase = .idle ∧
        shared'.cell.state.generation = token.generation ∧
        (shared'.history token.generation).retired = true ∧
        (shared'.history token.generation).finishes = [cause]))

variable {state : Threads ι (Shared ι τ ρ η) (Pc τ ρ η)}

theorem reachable_winner (reachable : (cellSystem ι τ ρ η).Reachable state) :
    SingleWinner state := by
  obtain ⟨inv, locals⟩ := reachable_inv reachable
  have zero := reachable_zero reachable
  constructor
  · intro generation other unfinished otherUnfinished
    rw [inv.unfinished zero] at unfinished otherUnfinished
    exact unfinished.1.trans otherUnfinished.1.symm
  · intro generation
    rcases inv.untouched_or_claimed generation with untouched | ⟨thread, cause, claims⟩
    · simp [untouched.claims]
    · simp [claims]
  · intro generation handed member
    rcases inv.untouched_or_claimed generation with untouched | ⟨thread, cause, claims⟩
    · rw [untouched.handed] at member
      cases member
    · have delivered : (state.shared.history generation).Delivered state.shared.cell.id
          generation thread cause := by
        by_cases published : (state.shared.history generation).published = []
        · refine ((locals thread).handed claims published).resolve_left fun none => ?_
          rw [none] at member
          cases member
        · exact (inv.won claims published).delivered
      have thread_eq : handed.thread = thread := by
        obtain ⟨target, carrier, -, handed_eq⟩ := delivered
        rw [handed_eq, List.mem_singleton] at member
        rw [member]
      rw [thread_eq]
      exact ⟨cause, claims, delivered⟩
  · intro generation thread cause claims
    by_cases published : (state.shared.history generation).published = []
    · obtain ⟨equal, phase⟩ := inv.unpublished claims published
      exact .inr ⟨published, (locals thread).owes generation cause claims published, equal.symm,
        phase⟩
    · have won := inv.won claims published
      exact .inl ⟨won.published, won.delivered⟩
  · intro thread op cause rest
    have fact := (locals thread).fact
    rw [rest] at fact
    obtain ⟨token, member, finishes⟩ := fact.2 cause rfl
    refine ⟨token, member, ?_⟩
    rcases inv.untouched_or_claimed token.generation with untouched | ⟨winner, other, claims⟩
    · rw [untouched.finishes] at finishes
      cases finishes
    · have published : (state.shared.history token.generation).published ≠ [] := by
        intro unpublished
        rw [(inv.unsettled claims unpublished).2.1] at finishes
        cases finishes
      have won := inv.won claims published
      rcases won.finishes with none | once
      · rw [none] at finishes
        cases finishes
      · rw [once] at finishes
        cases finishes
        exact ⟨winner, claims⟩

theorem reachable_winnerStep (reachable : (cellSystem ι τ ρ η).Reachable state) {thread : ι}
    {shared' : Shared ι τ ρ η} {pc' : Pc τ ρ η}
    (advance : Advance thread state.shared (state.locals thread) shared' pc') :
    SingleWinnerStep thread state.shared (state.locals thread) shared' pc' := by
  obtain ⟨inv, locals⟩ := reachable_inv reachable
  have zero := reachable_zero reachable
  have begins := reachable_begin reachable thread
  have mine := locals thread
  obtain ⟨change, mine'⟩ := advance_own inv mine advance
  obtain ⟨choice, moved⟩ := advance
  constructor
  · intro generation target stage unfinished pc unbound
    rw [pc] at moved begins
    rw [inv.unfinished zero] at unfinished
    have busy := begin_busy thread choice target unfinished.2 begins unbound
    change (shared', pc') = _ at moved
    rw [← moved] at busy
    exact busy
  · rintro generation cause ⟨rfl, active, -⟩ claim
    exact change.claims inv active claim
  · intro generation cause claims unpublished
    have claims' := change.claims_kept inv claims
    have owed := mine.owes generation cause claims unpublished
    by_cases published' : (shared'.history generation).published = []
    · left
      have owed' := mine'.owes generation cause claims' published'
      refine ⟨owed', ?_⟩
      cases pc : state.locals thread with
      | rest | panicked =>
          rw [pc] at owed
          cases owed
      | run op stage =>
          rw [pc] at owed moved
          change (shared', pc') = _ at moved
          have pc_eq : pc' = (advanceStage thread choice state.shared op stage).2 :=
            congrArg Prod.snd moved
          rw [pc_eq] at owed' ⊢
          apply advanceStage_rank
          · intro none
            rw [show (Pc.run op stage).owes = stage.owes from rfl, none] at owed
            cases owed
          · rw [owed']
            exact Option.some_ne_none _
    · right
      have won := (change.inv inv).won claims' published'
      exact ⟨won.published, change.publishes inv claims unpublished published'⟩
  · intro op stage pc token member other
    rw [pc] at moved mine
    change (shared', pc') = _ at moved
    have shared_eq : shared' = (advanceStage thread choice state.shared op stage).1 :=
      congrArg Prod.fst moved
    rw [shared_eq]
    exact (advanceStage_token choice mine.fact.1 member).resolve_right other
  · intro last op outcome pc pc'_eq
    rw [pc] at moved
    obtain ⟨-, -, called⟩ := moved
    rw [called, Op.call] at pc'_eq
    split at pc'_eq
    · cases pc'_eq
    · rename_i foreign
      cases pc'_eq
      simpa using foreign
  · intro op stage token cause pc finishing current selected
    have finishes := reachable_finish reachable pc finishing
    obtain ⟨winner, won, unfinished, -⟩ := inv.current.selected selected
    rw [Shared.now_eq, current] at unfinished
    refine ⟨⟨winner, current ▸ won.claims⟩, ?_⟩
    rw [pc] at moved mine
    change (shared', pc') = _ at moved
    rcases finish_selected thread choice finishing finishes mine.fact.2 current selected with
      ⟨same, closer⟩ | ⟨next, idle, generation, retires⟩
    · rw [← moved] at same closer
      exact .inl ⟨same, closer⟩
    · right
      rw [retires] at moved
      cases moved
      refine ⟨rfl, idle, generation, ?_⟩
      simp [Shared.commit, generation, unfinished]

/-- A claim lasts to the end of a run. -/
theorem run_claims {next later : Threads ι (Shared ι τ ρ η) (Pc τ ρ η)}
    (reachable : (cellSystem ι τ ρ η).Reachable next)
    (path : Relation.ReflTransGen (cellSystem ι τ ρ η).step next later) {generation : Nat}
    {winner : ι} {cause : WakeCause}
    (claims : (next.shared.history generation).claims = [(winner, cause)]) :
    (cellSystem ι τ ρ η).Reachable later ∧
      (later.shared.history generation).claims = [(winner, cause)] := by
  induction path with
  | refl => exact ⟨reachable, claims⟩
  | tail _ step ih =>
      obtain ⟨before, kept⟩ := ih
      obtain ⟨thread, change⟩ := reachable_change before step
      exact ⟨.step before step, change.claims_kept (reachable_inv before).1 kept⟩

/-- In every reachable state of every interleaving, at most one generation is unfinished and
each generation has at most one winner, which alone hands over a notice, the only one of its
generation; every step keeps to this; a winner that still owes its notice and a finish of a
selected generation can always step; and in no run is a generation claimed twice. -/
theorem single_winner (reachable : (cellSystem ι τ ρ η).Reachable state) :
    SingleWinner state ∧
    (∀ thread shared' pc',
      Advance thread state.shared (state.locals thread) shared' pc' →
        SingleWinnerStep thread state.shared (state.locals thread) shared' pc') ∧
    (∀ thread op stage, state.locals thread = .run op stage →
      ∃ shared' pc', Advance thread state.shared (state.locals thread) shared' pc') ∧
    ∀ generation next later last, (cellSystem ι τ ρ η).step state next →
      Relation.ReflTransGen (cellSystem ι τ ρ η).step next later →
      (cellSystem ι τ ρ η).step later last → Claims state.shared next.shared generation →
      ¬ Claims later.shared last.shared generation := by
  refine ⟨reachable_winner reachable, fun thread shared' pc' => reachable_winnerStep reachable,
    ?_, ?_⟩
  · intro thread op stage pc
    rw [pc]
    exact ⟨_, _, ⟨op, false, false⟩, rfl⟩
  · intro generation next later last step path lastStep first second
    obtain ⟨thread, change⟩ := reachable_change reachable step
    obtain ⟨rfl, active, cause, claim⟩ := first
    have claims := change.claims (reachable_inv reachable).1 active claim
    obtain ⟨reachable', kept⟩ := run_claims (.step reachable step) path claims
    obtain ⟨same, active', -⟩ := second
    have untouched := ((reachable_inv reachable').1.current.untouched (.inr active')).1
    have unclaimed := untouched.claims
    rw [Shared.now_eq, same, kept] at unclaimed
    cases unclaimed

/-- One owner binds the first generation of a fresh cell, a notifier wakes it, and the owner
is about to end it. -/
def notifiedSchedule : List (Bool × Choice Nat Nat Nat) :=
  List.replicate 10 (false, ⟨.begin ⟨7, 3, 5⟩, false, false⟩) ++
    List.replicate 8 (true, ⟨.notify, false, false⟩) ++
    List.replicate 2 (false, ⟨.finish ⟨1, 1⟩, false, false⟩)

theorem single_winner_notified :
    ∃ state, (scheduler Bool Nat Nat Nat).run notifiedSchedule (fresh 1) = some state ∧
      state.shared.cell.state.phase = .selected .ready ∧
      (state.shared.history 1).claims = [(true, .ready)] ∧ SingleWinner state ∧
      ∀ shared' pc', Advance false state.shared (state.locals false) shared' pc' →
        pc' = .rest (some (.finish ⟨1, 1⟩, .resumed .ready)) ∧
        (shared'.history 1).retired = true ∧ (shared'.history 1).finishes = [.ready] := by
  have runs : ((scheduler Bool Nat Nat Nat).run notifiedSchedule (fresh 1)).map
      (fun state => (state.shared.cell.state.phase, state.shared.cell.state.generation,
        (state.shared.history 1).claims,
        (state.locals false).finishing? state.shared.cell.state)) =
        some (.selected .ready, 1, [(true, .ready)], some (⟨1, 1⟩, 0)) := rfl
  obtain ⟨state, runs, view⟩ := Option.map_eq_some_iff.1 runs
  simp only [Prod.mk.injEq] at view
  obtain ⟨selected, generation, claims, finishing⟩ := view
  obtain ⟨stage, pc, rank⟩ := Pc.finishing?_eq_some finishing
  have reachable := (scheduler Bool Nat Nat Nat).run_reachable (fresh_reachable 1) runs
  refine ⟨state, runs, selected, claims, (single_winner reachable).1, fun shared' pc' advance => ?_⟩
  have step := (single_winner reachable).2.1 false shared' pc' advance
  obtain ⟨-, ⟨-, stage', -, closer⟩ | ⟨resumed, -, -, retired, finishes⟩⟩ :=
    step.finishes (.finish ⟨1, 1⟩) stage ⟨1, 1⟩ .ready pc rfl generation selected
  · omega
  · exact ⟨resumed, retired, finishes⟩

end Law

end VThread.Wait
