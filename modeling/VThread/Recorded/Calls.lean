import VThread.Recorded.Steps

/-!
# Atomic steps of calls

A step of a call keeps the invariant: what it does to its cell and what the thread records
next fit together.
-/

namespace VThread.Recorded

open VThread.Lib VThread.Wait

variable {κ ι τ ρ η : Type}

/-! ## What a turn does to each generation -/

/-- The generation a thread has just finished. -/
def Stance.finishes? : Stance τ ρ η → Option WaitKey
  | .readTask (.resumed wait _ _) _ => some wait
  | _ => none

theorem offer_publishes (task : Option τ) (token : ParkToken) (cause : WakeCause)
    (origin : WakeOrigin) (result : τ → EventKind τ) (pc : Pc τ ρ η) :
    (offer task token cause origin result pc).publishes? = none := by
  cases task <;> rfl

theorem offer_finishes (task : Option τ) (token : ParkToken) (cause : WakeCause)
    (origin : WakeOrigin) (result : τ → EventKind τ) (pc : Pc τ ρ η) :
    (offer task token cause origin result pc).finishes? = none := by
  cases task <;> rfl

theorem offer_pc (task : Option τ) (token : ParkToken) (cause : WakeCause)
    (origin : WakeOrigin) (result : τ → EventKind τ) (pc : Pc τ ρ η) :
    (offer task token cause origin result pc).pc = pc := by
  cases task <;> rfl

namespace Turn

variable {thread : ι} {shared shared' : Wait.Shared ι τ ρ η} {mine : Local κ τ ρ η}
  {origin : WakeOrigin} {op : Op τ ρ η} {stage : Stage τ ρ η} {pc : Pc τ ρ η}
  {stance : Stance τ ρ η}

theorem pc_eq (turn : Turn thread shared mine origin op stage shared' pc stance) :
    stance.pc = pc := by
  cases turn with
  | offered => exact offer_pc ..
  | rejected => exact offer_pc ..
  | _ => rfl

/-- The thread that begins a generation owes its publication. -/
theorem publishes (turn : Turn thread shared mine origin op stage shared' pc stance) :
    stance.publishes? = none ∧ shared'.issued = shared.issued ∨
      stance.publishes? = some ⟨shared.cell.id, shared'.issued⟩ ∧
        shared'.issued = shared.issued + 1 := by
  cases turn with
  | begun task last issued => exact .inr ⟨rfl, issued⟩
  | claimed _ _ _ _ _ _ _ _ issued => exact .inl ⟨rfl, issued⟩
  | offered _ _ _ _ _ _ _ calm => exact .inl ⟨offer_publishes .., calm.issued⟩
  | finished _ _ _ _ _ _ issued => exact .inl ⟨rfl, issued⟩
  | rejected => exact .inl ⟨offer_publishes .., rfl⟩
  | plain calm => exact .inl ⟨rfl, calm.issued⟩

/-- The thread that finishes a generation owes its resumption. -/
theorem finishes (turn : Turn thread shared mine origin op stage shared' pc stance) :
    stance.finishes? = none ∧ (∀ generation,
        (shared'.history generation).finishes = (shared.history generation).finishes) ∨
      ∃ token ∈ op.token?, stance.finishes? = some token ∧
        (shared.history token.generation).finishes = [] ∧
        (shared'.history token.generation).finishes ≠ [] ∧
        ∀ generation ≠ token.generation,
          (shared'.history generation).finishes = (shared.history generation).finishes := by
  cases turn with
  | begun _ _ _ _ finishes => exact .inl ⟨rfl, finishes⟩
  | claimed _ _ _ _ _ _ _ _ _ _ _ _ finishes => exact .inl ⟨rfl, finishes⟩
  | offered _ _ _ _ _ _ _ calm => exact .inl ⟨offer_finishes .., calm.finishes⟩
  | finished token _ _ _ member _ _ _ unfinished finished others =>
      exact .inr ⟨token, member, rfl, unfinished, by simp [finished], others⟩
  | rejected => exact .inl ⟨offer_finishes .., fun _ => rfl⟩
  | plain calm => exact .inl ⟨rfl, calm.finishes⟩

/-- A claim appears with a stance that has still to announce it. -/
theorem claims (turn : Turn thread shared mine origin op stage shared' pc stance)
    (generation : Nat) :
    (shared'.history generation).claims = (shared.history generation).claims ∨
      (shared.history generation).claims = [] ∧ (shared'.history generation).claims ≠ [] ∧
        stance.Unannounced := by
  cases turn with
  | begun _ _ _ claims => exact .inl (claims generation)
  | claimed _ _ _ word _ _ _ _ _ unclaimed claimed others =>
      by_cases equal : generation = word.generation
      · rw [equal]
        exact .inr ⟨unclaimed, by simp [claimed],
          (by decide : 6 < (8 : Nat))⟩
      · exact .inl (others generation equal)
  | offered _ _ _ _ _ _ _ calm => exact .inl (calm.claims generation)
  | finished _ _ _ _ _ _ _ claims => exact .inl (claims generation)
  | rejected => exact .inl rfl
  | plain calm => exact .inl (calm.claims generation)

/-- A publication is that of an announced claim. -/
theorem published (turn : Turn thread shared mine origin op stage shared' pc stance)
    (generation : Nat) :
    (shared'.history generation).published = (shared.history generation).published ∨
      ∃ cause, (shared.history generation).claims = [(thread, cause)] ∧
        (shared.history generation).published = [] ∧ stage.rank ≤ 6 := by
  cases turn with
  | begun _ _ _ _ _ published => exact .inl (published generation)
  | claimed _ _ _ _ _ _ _ _ _ _ _ _ _ published => exact .inl (published generation)
  | offered _ _ _ _ _ _ _ _ published => exact .inl (published generation)
  | finished _ _ _ _ _ _ _ _ _ _ _ published => exact .inl (published generation)
  | rejected => exact .inl rfl
  | plain _ published => exact published generation

end Turn

/-! ## The cells after a step -/

section Owing

variable {shared : Shared κ ι τ ρ η} {thread : ι} {stance : Stance τ ρ η}

@[simp] theorem owing_cells : (shared.owing thread stance).cells = shared.cells := by
  unfold Shared.owing
  split <;> rfl

@[simp] theorem owing_log : (shared.owing thread stance).log = shared.log := by
  unfold Shared.owing
  split <;> rfl

theorem owing_beginner (wait : WaitKey) : (shared.owing thread stance).beginner wait =
    if stance.publishes? = some wait then some thread else shared.beginner wait := by
  unfold Shared.owing
  split
  · rename_i task token hasDeadline later pc
    show Function.update _ _ _ _ = _
    rw [Function.update_apply]
    simp only [Stance.publishes?, Option.some.injEq, eq_comm]
  · rfl
  · rename_i other _
    have none : stance.publishes? = none := by
      unfold Stance.publishes?
      split
      · exact (other _ _ _ _ _ rfl).elim
      · rfl
    rw [none, if_neg nofun]

theorem owing_finisher (wait : WaitKey) : (shared.owing thread stance).finisher wait =
    if stance.finishes? = some wait then some thread else shared.finisher wait := by
  unfold Shared.owing
  split
  · rfl
  · rename_i token cause pc word
    show Function.update _ _ _ _ = _
    rw [Function.update_apply]
    simp only [Stance.finishes?, Option.some.injEq, eq_comm]
  · rename_i _ other
    have none : stance.finishes? = none := by
      unfold Stance.finishes?
      split
      · exact (other _ _ _ _ rfl).elim
      · rfl
    rw [none, if_neg nofun]

end Owing

section Calls

variable [DecidableEq κ] {shared : Shared κ ι τ ρ η} {thread : ι} {mine : Local κ τ ρ η}
  {cell' : Wait.Shared ι τ ρ η} {stance : Stance τ ρ η} {origin : WakeOrigin} {op : Op τ ρ η}
  {stage : Stage τ ρ η} {pc : Pc τ ρ η}

/-- The cells and the history of debts after a step of a call. -/
def Shared.after (shared : Shared κ ι τ ρ η) (thread : ι) (home : κ)
    (cell' : Wait.Shared ι τ ρ η) (stance : Stance τ ρ η) : Shared κ ι τ ρ η :=
  (shared.setCell home cell').owing thread stance

theorem after_self (home : κ) : (shared.after thread home cell' stance).cells home = cell' := by
  rw [Shared.after, owing_cells]
  exact Function.update_self ..

theorem after_ne {home other : κ} (ne : other ≠ home) :
    (shared.after thread home cell' stance).cells other = shared.cells other := by
  rw [Shared.after, owing_cells]
  exact Function.update_of_ne ne ..

theorem after_log (home : κ) : (shared.after thread home cell' stance).log = shared.log :=
  owing_log

theorem after_beginner (home : κ) (wait : WaitKey) :
    (shared.after thread home cell' stance).beginner wait =
      if stance.publishes? = some wait then some thread else shared.beginner wait :=
  owing_beginner wait

theorem after_finisher (home : κ) (wait : WaitKey) :
    (shared.after thread home cell' stance).finisher wait =
      if stance.finishes? = some wait then some thread else shared.finisher wait :=
  owing_finisher wait

/-- A thread that runs a call, with what its step does. -/
structure Runs (thread : ι) (shared : Shared κ ι τ ρ η) (mine : Local κ τ ρ η)
    (origin : WakeOrigin) (op : Op τ ρ η) (stage : Stage τ ρ η) (cell' : Wait.Shared ι τ ρ η)
    (pc : Pc τ ρ η) (stance : Stance τ ρ η) : Prop where
  inv : shared.Sound
  sound : mine.Sound thread shared
  at_ : mine.stance = .call (.run op stage)
  own : Wait.Own thread (shared.cells mine.home) (cell', pc)
  turn : Turn thread (shared.cells mine.home) mine origin op stage cell' pc stance
  op_eq : ∀ op' stage', pc = .run op' stage' → op' = op

namespace Runs

theorem running (runs : Runs thread shared mine origin op stage cell' pc stance) :
    mine.stance.pc = .run op stage := by
  rw [runs.at_]
  rfl

theorem token_wait (runs : Runs thread shared mine origin op stage cell' pc stance) :
    ∀ token ∈ op.token?, token.wait = (shared.cells mine.home).cell.id :=
  Moves.view_token runs.sound op stage runs.running

/-- A step begins only a generation that is new. -/
theorem beginner_new (runs : Runs thread shared mine origin op stage cell' pc stance)
    {wait : WaitKey} (publishes : stance.publishes? = some wait) :
    wait = shared.key mine.home cell'.issued ∧
      cell'.issued = (shared.cells mine.home).issued + 1 ∧ shared.beginner wait = none := by
  rcases runs.turn.publishes with ⟨none, -⟩ | ⟨begun, issued⟩
  · rw [none] at publishes
    cases publishes
  · rw [begun] at publishes
    cases publishes
    refine ⟨rfl, issued, ?_⟩
    by_contra some
    have known := (runs.inv.beginner mine.home cell'.issued).mp (Option.isSome_iff_ne_none.mpr some)
    omega

/-- A step finishes only a generation that was not. -/
theorem finisher_new (runs : Runs thread shared mine origin op stage cell' pc stance)
    {wait : WaitKey} (finishes : stance.finishes? = some wait) :
    wait ∈ op.token? ∧ shared.finisher wait = none ∧
      (cell'.history wait.generation).finishes ≠ [] := by
  rcases runs.turn.finishes with ⟨none, -⟩ | ⟨token, member, finished, unfinished, done, -⟩
  · rw [none] at finishes
    cases finishes
  · rw [finished] at finishes
    cases finishes
    refine ⟨member, ?_, done⟩
    rw [← shared.key_generation (runs.token_wait _ member)]
    by_contra some
    exact (runs.inv.finisher mine.home _).mp (Option.isSome_iff_ne_none.mpr some) unfinished

theorem moves (runs : Runs thread shared mine origin op stage cell' pc stance) :
    Moves thread shared (shared.after thread mine.home cell' stance) where
  change home := by
    by_cases equal : home = mine.home
    · rw [equal, after_self]
      exact runs.own.1
    · rw [after_ne equal]
      exact .same
  beginner wait := by
    rw [after_beginner]
    split
    · exact .inr ⟨(runs.beginner_new ‹_›).2.2, rfl⟩
    · exact .inl rfl
  finisher wait := by
    rw [after_finisher]
    split
    · exact .inr ⟨(runs.finisher_new ‹_›).2.1, rfl⟩
    · exact .inl rfl
  log := .inl (after_log _)

/-- An unpublished claim of the thread is the one its step works on. -/
theorem owed (runs : Runs thread shared mine origin op stage cell' pc stance) {home : κ}
    {generation : Nat} {cause : WakeCause}
    (claims : (shared.record home generation).claims = [(thread, cause)])
    (published : (shared.record home generation).published = []) :
    mine.home = home ∧ stage.owes = some generation := by
  have owed := runs.sound.claim_owed claims published
  rw [runs.running] at owed
  exact owed

/-- A winner with six steps or fewer to go has announced its selection. -/
theorem announced (runs : Runs thread shared mine origin op stage cell' pc stance)
    {generation : Nat} {cause : WakeCause}
    (claims : (shared.record mine.home generation).claims = [(thread, cause)])
    (published : (shared.record mine.home generation).published = []) (rank : stage.rank ≤ 6) :
    ∃ task, shared.taskOf mine.home generation = some task ∧
      selections shared.log (shared.key mine.home generation) = [(task, cause)] := by
  apply runs.sound.announced _ _ _ claims published
  rw [runs.at_]
  exact Nat.not_lt.mpr rank

theorem after_sound (runs : Runs thread shared mine origin op stage cell' pc stance) :
    (shared.after thread mine.home cell' stance).Sound := by
  have moves := runs.moves
  have inv := runs.inv
  refine ⟨?_, ?_, ?_, ?_, ?_, ?_, ?_, ?_⟩
  · intro home
    exact (moves.change home).inv (inv.cells home)
  · intro left right same
    rw [moves.id_eq, moves.id_eq] at same
    exact inv.distinct left right same
  · intro home generation
    rw [moves.key_eq, after_beginner]
    split
    · rename_i publishes
      obtain ⟨key, issued, -⟩ := runs.beginner_new publishes
      obtain ⟨sameHome, sameGeneration⟩ : home = mine.home ∧ generation = cell'.issued := by
        have parts := key
        rw [Shared.key, Shared.key, ParkToken.mk.injEq] at parts
        exact ⟨inv.distinct _ _ parts.1, parts.2⟩
      rw [sameHome, after_self, sameGeneration, issued]
      simp
    · rename_i other
      rw [inv.beginner]
      by_cases equal : home = mine.home
      · rw [equal, after_self]
        rcases runs.turn.publishes with ⟨-, same⟩ | ⟨begun, issued⟩
        · rw [same]
        · rw [begun, equal] at other
          have different : generation ≠ cell'.issued := by
            rintro rfl
            exact other rfl
          omega
      · rw [after_ne equal]
  · intro wait recorded
    rw [after_log] at recorded
    rw [after_beginner]
    split
    · rfl
    · exact inv.published wait recorded
  · intro home generation claims
    rw [moves.key_eq, after_log]
    by_cases equal : home = mine.home
    · subst equal
      rw [Shared.record, after_self] at claims
      rcases runs.turn.claims generation with same | ⟨unclaimed, -⟩
      · exact inv.unclaimed _ generation (same.symm.trans claims)
      · exact inv.unclaimed _ generation unclaimed
    · rw [Shared.record, after_ne equal] at claims
      exact inv.unclaimed home generation claims
  · intro home generation published
    rw [moves.key_eq, after_log]
    have known : ∃ winner cause task,
        (shared.record home generation).claims = [(winner, cause)] ∧
          shared.taskOf home generation = some task ∧
          selections shared.log (shared.key home generation) = [(task, cause)] := by
      by_cases equal : home = mine.home
      · subst equal
        rw [Shared.record, after_self] at published
        rcases runs.turn.published generation with same | ⟨cause, claims, unpublished, rank⟩
        · rw [same] at published
          exact inv.announced _ generation published
        · obtain ⟨task, taskEq, selected⟩ := runs.announced claims unpublished rank
          exact ⟨thread, cause, task, claims, taskEq, selected⟩
      · rw [Shared.record, after_ne equal] at published
        exact inv.announced home generation published
    obtain ⟨winner, cause, task, claims, taskEq, selected⟩ := known
    refine ⟨winner, cause, task, (moves.change home).claims_kept (inv.cells home) claims, ?_,
      selected⟩
    rw [moves.task_kept (begun_of_claims (inv.cells home) claims)]
    exact taskEq
  · intro home generation
    rw [moves.key_eq, after_finisher]
    split
    · rename_i finishes
      obtain ⟨member, -, done⟩ := runs.finisher_new finishes
      have same : home = mine.home := inv.distinct _ _ (runs.token_wait _ member)
      rw [same, Shared.record, after_self]
      exact iff_of_true rfl done
    · rename_i other
      rw [inv.finisher]
      by_cases equal : home = mine.home
      · subst equal
        rw [Shared.record, Shared.record, after_self]
        rcases runs.turn.finishes with ⟨-, same⟩ | ⟨token, member, finishes, -, -, others⟩
        · rw [same]
        · rw [others]
          rintro rfl
          rw [shared.key_generation (runs.token_wait token member)] at other
          exact other finishes
      · rw [Shared.record, Shared.record, after_ne equal]
  · intro wait recorded
    rw [after_log] at recorded
    rw [after_finisher]
    split
    · rfl
    · exact inv.resumed wait recorded

/-- A selection that wins names the task of its generation. -/
theorem named (runs : Runs thread shared mine origin op stage cell' pc stance)
    {cause : WakeCause} {carrier : Bool} {outcome : Outcome η} {word : WaitWord} {task : τ}
    (reads : stage = .readRoute (.enqueue cause carrier outcome) word task) :
    ∃ named, Op.named mine.registration task op = some named ∧
      Announcing thread shared mine.home named ⟨(shared.cells mine.home).cell.id,
        word.generation⟩ cause := by
  subst reads
  have fact := runs.sound.calls mine.home
  rw [Local.view_self, runs.running] at fact
  obtain ⟨tokens, enqueuing, -, read, -⟩ := fact.fact
  have inv := runs.inv.cells mine.home
  obtain ⟨phase, generation, fallback⟩ := enqueuing.now
  obtain ⟨target, targetEq, holds⟩ := inv.target phase generation fallback
  have taskEq : shared.taskOf mine.home word.generation = some task := by
    rw [Shared.taskOf, Shared.record, targetEq, ← read, holds.1]
    rfl
  have announcing : Announcing thread shared mine.home task
      ⟨(shared.cells mine.home).cell.id, word.generation⟩ cause :=
    ⟨rfl, enqueuing.claims, enqueuing.published, taskEq⟩
  cases op with
  | select token own =>
      have select := runs.sound.select
      rw [runs.running] at select
      have works : word.generation = token.generation := tokens.generation token rfl _ rfl
      rcases select with ⟨-, owes⟩ | ⟨-, same⟩
      · cases owes
      · rw [← works, taskEq] at same
        exact ⟨task, same, announcing⟩
  | _ => exact ⟨task, rfl, announcing⟩

/-- A winner's stance after a step tells whether it has announced its selection. -/
theorem unannounced_iff (runs : Runs thread shared mine origin op stage cell' pc stance)
    (owes : stage.owes ≠ none) (owes' : pc.owes ≠ none) :
    stance.Unannounced ↔ 6 < stage.rank := by
  have turn := runs.turn
  cases turn with
  | begun | finished | rejected => exact (owes' rfl).elim
  | claimed _ _ _ _ _ unowed => exact (owes unowed).elim
  | offered _ _ _ _ _ _ reads =>
      obtain ⟨named, equal, -⟩ := runs.named reads
      rw [equal, reads]
      exact iff_of_true trivial (by decide : 6 < 7)
  | plain _ _ rank => exact rank

theorem after_stance (runs : Runs thread shared mine origin op stage cell' pc stance) :
    StanceFact thread (shared.after thread mine.home cell' stance) mine.home stance := by
  have moves := runs.moves
  have turn := runs.turn
  cases turn with
  | begun =>
      refine .publication ?_ ?_
      · rw [after_beginner]
        exact if_pos rfl
      · rw [after_log]
        by_contra recorded
        have some := runs.inv.published _ recorded
        rw [(runs.beginner_new rfl).2.2] at some
        cases some
  | claimed => trivial
  | offered _ _ _ _ _ _ reads calm published =>
      obtain ⟨named, equal, announcing⟩ := runs.named reads
      rw [equal] at moves ⊢
      refine .offer ⟨announcing.wait.trans (moves.id_eq mine.home).symm, ?_, ?_, ?_⟩
      · rw [Shared.record, after_self]
        exact (calm.claims _).trans announcing.claims
      · rw [Shared.record, after_self]
        exact (published _).trans announcing.published
      · rw [moves.task_kept (begun_of_claims (runs.inv.cells _) announcing.claims)]
        exact announcing.task
  | finished token _ _ _ member fallback _ _ _ finished =>
      have wait := runs.token_wait token member
      have begun := Moves.begun_of_returned runs.inv wait
        (runs.sound.tokens op stage runs.running token member)
      obtain ⟨task, route, primary⟩ :=
        (runs.inv.cells mine.home).initialised (Nat.lt_of_lt_of_le begun.1 begun.2)
      obtain ⟨keepsTask, keepsRoute, keepsPrimary, keepsFallback⟩ :=
        (moves.change mine.home).targets_known
      refine ⟨⟨wait.trans (moves.id_eq mine.home).symm, ?_, ?_, ?_⟩, keepsTask task,
        keepsRoute route, keepsPrimary primary, fun uses => keepsFallback (fallback uses)⟩
      · rw [after_finisher]
        exact if_pos rfl
      · rw [Shared.record, after_self]
        exact finished
      · rw [after_log]
        by_contra recorded
        have some := runs.inv.resumed _ recorded
        rw [(runs.finisher_new rfl).2.1] at some
        cases some
  | rejected _ _ _ _ select =>
      cases registered : mine.registration with
      | none => trivial
      | some task =>
          rw [registered] at moves
          refine .refusal ?_
          apply moves.returned
          apply runs.sound.tokens op stage runs.running
          rw [select]
          rfl
  | plain => trivial

theorem after_select (runs : Runs thread shared mine origin op stage cell' pc stance) :
    SelectFact (shared.after thread mine.home cell' stance) mine.home mine.registration pc := by
  have moves := runs.moves
  have select := runs.sound.select
  rw [runs.running] at select
  cases pcEq : pc with
  | run op' stage' =>
      have same := runs.op_eq op' stage' pcEq
      subst same
      cases op' with
      | select token cause =>
          rcases select with ⟨passed, unowed⟩ | ⟨some, named⟩
          · refine .inl ⟨(moves.change mine.home).passed passed, ?_⟩
            have turn := runs.turn
            rw [pcEq] at turn
            cases turn with
            | claimed _ _ _ word active _ works =>
                -- A generation that is over is not active.
                have fact := runs.sound.calls mine.home
                rw [Local.view_self, runs.running] at fact
                have tokenEq : word.generation = token.generation :=
                  fact.fact.1.generation token rfl _ works
                rcases passed with older | ⟨-, -, inactive⟩
                · omega
                · exact (inactive active).elim
            | offered _ _ _ _ _ _ reads =>
                rw [reads] at unowed
                cases unowed
            | plain _ _ _ owes =>
                rcases owes with none | same
                · exact none
                · exact same.trans unowed
          · have wait := runs.token_wait token rfl
            have begun := Moves.begun_of_returned runs.inv wait
              (runs.sound.tokens _ stage runs.running token rfl)
            have below := Nat.le_trans begun.2 (issued_le_generation (runs.inv.cells mine.home))
            exact .inr ⟨some, named.trans (moves.task_kept below).symm⟩
      | _ => trivial
  | _ => trivial

theorem after_rank (runs : Runs thread shared mine origin op stage cell' pc stance)
    (outside : stance.isCall = false) : pc.rank ≤ 6 := by
  have turn := runs.turn
  cases turn with
  | begun | finished | rejected => exact Nat.zero_le _
  | claimed | plain => cases outside
  | offered => exact Nat.le_refl 6

/-- A step that finishes a generation owes its resumption. -/
theorem resumes_of_finishes {wait : WaitKey} (finishes : stance.finishes? = some wait) :
    stance.resumes? = some wait := by
  unfold Stance.finishes? at finishes
  split at finishes
  · exact finishes
  · cases finishes

/-- A claim of the thread after its step is new and unannounced, or the one it works on. -/
theorem claims_cases (runs : Runs thread shared mine origin op stage cell' pc stance)
    {home : κ} {generation : Nat} {cause : WakeCause}
    (claims' : ((shared.after thread mine.home cell' stance).record home generation).claims =
      [(thread, cause)])
    (published' : ((shared.after thread mine.home cell' stance).record home generation).published =
      []) :
    (shared.record home generation).claims = [] ∧ stance.Unannounced ∨
      (shared.record home generation).claims = [(thread, cause)] ∧
        (shared.record home generation).published = [] ∧
        (stance.Unannounced ↔ mine.stance.Unannounced) := by
  by_cases equal : home = mine.home
  · subst equal
    have owed' := runs.own.2.owes generation cause
    rw [Shared.record, after_self] at claims' published'
    have unpublished : (shared.record mine.home generation).published = [] := by
      rcases runs.turn.published generation with same | ⟨_, _, unpublished, _⟩
      · exact same.symm.trans published'
      · exact unpublished
    rcases runs.turn.claims generation with same | ⟨unclaimed, -, unannounced⟩
    · have claims := same.symm.trans claims'
      have owes := (runs.owed claims unpublished).2
      refine .inr ⟨claims, unpublished, ?_⟩
      rw [runs.at_]
      exact runs.unannounced_iff (by simp [owes]) (by simp [owed' claims' published'])
    · exact .inl ⟨unclaimed, unannounced⟩
  · -- The thread has no unpublished claim on another cell.
    rw [Shared.record, after_ne equal] at claims' published'
    exact (equal (runs.owed claims' published').1.symm).elim

theorem after_mine (runs : Runs thread shared mine origin op stage cell' pc stance) :
    ({ mine with stance } : Local κ τ ρ η).Sound thread
      (shared.after thread mine.home cell' stance) := by
  have moves := runs.moves
  have pcEq := runs.turn.pc_eq
  refine ⟨?_, runs.after_stance, ?_, ?_, ?_, ?_, ?_, ?_, ?_⟩
  · intro home
    by_cases equal : mine.home = home
    · subst equal
      rw [after_self, Local.view, if_pos rfl, pcEq]
      exact runs.own.2
    · have here := runs.sound.calls home
      rw [Local.view, if_neg equal] at here
      rw [after_ne (Ne.symm equal), Local.view, if_neg equal]
      exact here
  · intro op' stage' run token member
    have same := runs.op_eq op' stage' (pcEq.symm.trans run)
    subst same
    exact moves.returned (runs.sound.tokens op' stage runs.running token member)
  · have select := runs.after_select
    rw [← pcEq] at select
    exact select
  · intro outside
    rw [pcEq]
    exact runs.after_rank outside
  · intro wait beginner unpublished
    rw [after_beginner] at beginner
    rw [after_log] at unpublished
    split at beginner
    · assumption
    · have owed := runs.sound.publishes wait beginner unpublished
      rw [runs.at_] at owed
      cases owed
  · intro wait finisher unresumed
    rw [after_finisher] at finisher
    rw [after_log] at unresumed
    split at finisher
    · exact resumes_of_finishes ‹_›
    · have owed := runs.sound.resumes wait finisher unresumed
      rw [runs.at_] at owed
      cases owed
  · intro home generation cause claims' published' unannounced
    rw [moves.key_eq, after_log]
    rcases runs.claims_cases claims' published' with
      ⟨unclaimed, -⟩ | ⟨claims, published, same⟩
    · exact runs.inv.unclaimed home generation unclaimed
    · exact runs.sound.unannounced home generation cause claims published (same.mp unannounced)
  · intro home generation cause claims' published' announced
    rw [moves.key_eq, after_log]
    rcases runs.claims_cases claims' published' with
      ⟨-, unannounced⟩ | ⟨claims, published, same⟩
    · exact (announced unannounced).elim
    · rw [moves.task_kept (begun_of_claims (runs.inv.cells home) claims)]
      exact runs.sound.announced home generation cause claims published
        fun unannounced => announced (same.mpr unannounced)

end Runs

end Calls

end VThread.Recorded
