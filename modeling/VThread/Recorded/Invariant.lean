import VThread.Recorded.Turns

/-!
# The invariant of recorded cells

The sequence agrees with the history of every cell, up to the events that threads owe.  A
thread owes the publication of what it began, the selection of what it claimed and the
resumption of what it finished, and what it is about to record is true.
-/

namespace VThread.Recorded

open VThread.Lib VThread.Wait

variable {κ ι τ ρ η : Type}

/-! ## What a thread owes -/

def Reader.resumes? : Reader τ ρ η → Option WaitKey
  | .resumed wait _ _ => some wait
  | .registration _ => none

namespace Stance

/-- The generation whose publication is recorded next. -/
def publishes? : Stance τ ρ η → Option WaitKey
  | .recording (.waitPublished _ wait _) _ _ => some wait
  | _ => none

/-- The generation whose resumption is still to be recorded. -/
def resumes? : Stance τ ρ η → Option WaitKey
  | .recording (.resumed _ wait _) _ _ => some wait
  | .readTask reader _ | .readRoute reader _ _ | .readHub reader _ _ => reader.resumes?
  | _ => none

/-- A winner that has not recorded its selection. -/
def Unannounced : Stance τ ρ η → Prop
  | .call pc => 6 < pc.rank
  | .recording (.wakeOffered ..) [.wakeSelected ..] _ => True
  | .recording (.wakeSelected ..) _ _ => True
  | _ => False

def isCall : Stance τ ρ η → Bool
  | .call _ => true
  | _ => false

end Stance

namespace Shared

variable (shared : Shared κ ι τ ρ η)

/-- The key of a generation of a cell. -/
def key (home : κ) (generation : Nat) : WaitKey := ⟨(shared.cells home).cell.id, generation⟩

abbrev record (home : κ) (generation : Nat) : Record ι τ ρ η :=
  (shared.cells home).history generation

/-- The task a generation is bound to. -/
def taskOf (home : κ) (generation : Nat) : Option τ :=
  (shared.record home generation).target.map (·.task)

theorem key_generation {home : κ} {token : WaitKey}
    (wait : token.wait = (shared.cells home).cell.id) :
    shared.key home token.generation = token := by
  rw [key, ← wait]

/-- What holds of the cells and the sequence. -/
structure Sound (shared : Shared κ ι τ ρ η) : Prop where
  cells : ∀ home, (shared.cells home).Inv
  distinct : ∀ left right,
    (shared.cells left).cell.id = (shared.cells right).cell.id → left = right
  beginner : ∀ home generation, (shared.beginner (shared.key home generation)).isSome ↔
    0 < generation ∧ generation ≤ (shared.cells home).issued
  published : ∀ wait, publications shared.log wait ≠ [] → (shared.beginner wait).isSome
  unclaimed : ∀ home generation, (shared.record home generation).claims = [] →
    selections shared.log (shared.key home generation) = []
  announced : ∀ home generation, (shared.record home generation).published ≠ [] →
    ∃ winner cause task, (shared.record home generation).claims = [(winner, cause)] ∧
      shared.taskOf home generation = some task ∧
      selections shared.log (shared.key home generation) = [(task, cause)]
  finisher : ∀ home generation, (shared.finisher (shared.key home generation)).isSome ↔
    (shared.record home generation).finishes ≠ []
  resumed : ∀ wait, resumptions shared.log wait ≠ [] → (shared.finisher wait).isSome

end Shared

section Facts

variable (thread : ι) (shared : Shared κ ι τ ρ η) (home : κ)

/-- The thread has claimed the generation for `cause` and not published its claim. -/
structure Announcing (task : τ) (token : WaitKey) (cause : WakeCause) : Prop where
  wait : token.wait = (shared.cells home).cell.id
  claims : (shared.record home token.generation).claims = [(thread, cause)]
  published : (shared.record home token.generation).published = []
  task : shared.taskOf home token.generation = some task

/-- The thread has finished the generation and not recorded it. -/
structure Resuming (token : WaitKey) (cause : WakeCause) : Prop where
  wait : token.wait = (shared.cells home).cell.id
  finisher : shared.finisher token = some thread
  finishes : (shared.record home token.generation).finishes = [cause]
  resumptions : resumptions shared.log token = []

/-- The events a thread is about to record. -/
inductive Script : List (EventKind τ) → Prop where
  | publication {task : τ} {token : WaitKey} {hasDeadline : Bool} :
      shared.beginner token = some thread → publications shared.log token = [] →
      Script [.waitPublished task token hasDeadline]
  | offer {task : τ} {token : WaitKey} {cause : WakeCause} {origin : WakeOrigin} :
      Announcing thread shared home task token cause →
      Script [.wakeOffered task token cause origin, .wakeSelected task token cause origin]
  | selection {task : τ} {token : WaitKey} {cause : WakeCause} {origin : WakeOrigin} :
      Announcing thread shared home task token cause →
      Script [.wakeSelected task token cause origin]
  | refusal {task : τ} {token : WaitKey} {cause : WakeCause} {origin : WakeOrigin}
      {reason : WakeRejection} : Returned shared.log token →
      Script [.wakeOffered task token cause origin,
        .wakeRejected task token cause origin reason]
  | rejection {task : τ} {token : WaitKey} {cause : WakeCause} {origin : WakeOrigin}
      {reason : WakeRejection} : Script [.wakeRejected task token cause origin reason]
  | resumption {task : τ} {token : WaitKey} {cause : WakeCause} :
      Resuming thread shared home token cause → Script [.resumed task token cause]

/-- What a registration knows: of every generation begun when it looked at the cell, that it
is over, or its task. -/
def Knows (since : Nat) (task : Option τ) : Prop :=
  since ≤ (shared.cells home).issued ∧ ∀ generation, 0 < generation → generation ≤ since →
    (shared.cells home).Passed generation ∨
      task.isSome ∧ task = shared.taskOf home generation

/-- The target can be read for a word. -/
structure Readable (cell : Cell τ ρ η) (word : WaitWord) : Prop where
  task : cell.task.isSome
  route : cell.route.isSome
  primary : cell.primaryHub.isSome
  fallback : word.fallbackHub = true → cell.fallbackHub.isSome

/-- What a reader of the target relies on. -/
def ReaderFact (word : WaitWord) : Reader τ ρ η → Prop
  | .resumed token cause _ => Resuming thread shared home token cause ∧
      Readable (shared.cells home).cell word
  | .registration since => since ≤ (shared.cells home).issued

/-- What holds once the task was read. -/
def ReadFact (word : WaitWord) (task : τ) : Reader τ ρ η → Prop
  | .resumed token cause _ => Resuming thread shared home token cause ∧
      Readable (shared.cells home).cell word
  | .registration since => Knows shared home since (some task)

def StanceFact : Stance τ ρ η → Prop
  | .recording event later _ => Script thread shared home (event :: later)
  | .readTask reader word => ReaderFact thread shared home word reader
  | .readRoute reader word task | .readHub reader word task =>
      ReadFact thread shared home word task reader
  | .registered registration => Knows shared home registration.since registration.task
  | .call _ | .registering _ | .panicked _ => True

/-- A selection names the task of its generation, or cannot win it any more. -/
def SelectFact (registration : Option τ) : Pc τ ρ η → Prop
  | .run (.select token _) stage =>
      (shared.cells home).Passed token.generation ∧ stage.owes = none ∨
        registration.isSome ∧ registration = shared.taskOf home token.generation
  | _ => True

/-- The call a thread runs on a cell. -/
def Local.view [DecidableEq κ] (mine : Local κ τ ρ η) (home : κ) : Pc τ ρ η :=
  if mine.home = home then mine.stance.pc else .rest none

/-- What holds of a thread. -/
structure Local.Sound [DecidableEq κ] (thread : ι) (shared : Shared κ ι τ ρ η)
    (mine : Local κ τ ρ η) : Prop where
  calls : ∀ home, Wait.Local thread (shared.cells home) (mine.view home)
  stance : StanceFact thread shared mine.home mine.stance
  tokens : ∀ op stage, mine.stance.pc = .run op stage → ∀ token ∈ op.token?,
    Returned shared.log token
  select : SelectFact shared mine.home mine.registration mine.stance.pc
  rank : mine.stance.isCall = false → mine.stance.pc.rank ≤ 6
  publishes : ∀ wait, shared.beginner wait = some thread →
    publications shared.log wait = [] → mine.stance.publishes? = some wait
  resumes : ∀ wait, shared.finisher wait = some thread →
    resumptions shared.log wait = [] → mine.stance.resumes? = some wait
  unannounced : ∀ home generation cause,
    (shared.record home generation).claims = [(thread, cause)] →
    (shared.record home generation).published = [] → mine.stance.Unannounced →
    selections shared.log (shared.key home generation) = []
  announced : ∀ home generation cause,
    (shared.record home generation).claims = [(thread, cause)] →
    (shared.record home generation).published = [] → ¬ mine.stance.Unannounced →
    ∃ task, shared.taskOf home generation = some task ∧
      selections shared.log (shared.key home generation) = [(task, cause)]

end Facts

/-! ## Changes -/

/-- Events that a thread alone may record. -/
def Records (thread : ι) (shared : Shared κ ι τ ρ η) : EventKind τ → Prop
  | .waitPublished _ token _ => shared.beginner token = some thread
  | .wakeSelected task token cause _ => ∃ home, Announcing thread shared home task token cause
  | .resumed _ token _ => shared.finisher token = some thread
  | .wakeOffered .. | .wakeRejected .. => True

/-- Everything a step of `thread` can do to the cells and the sequence. -/
structure Moves (thread : ι) (shared shared' : Shared κ ι τ ρ η) : Prop where
  change : ∀ home, Change thread (shared.cells home) (shared'.cells home)
  beginner : ∀ wait, shared'.beginner wait = shared.beginner wait ∨
    shared.beginner wait = none ∧ shared'.beginner wait = some thread
  finisher : ∀ wait, shared'.finisher wait = shared.finisher wait ∨
    shared.finisher wait = none ∧ shared'.finisher wait = some thread
  log : shared'.log = shared.log ∨
    ∃ event, shared'.log = shared.log ++ [event] ∧ Records thread shared event

theorem Moves.refl (thread : ι) (shared : Shared κ ι τ ρ η) : Moves thread shared shared :=
  ⟨fun _ => .same, fun _ => .inl rfl, fun _ => .inl rfl, .inl rfl⟩

/-- The target of a generation that was begun stays. -/
theorem target_kept {thread : ι} {cell cell' : Wait.Shared ι τ ρ η}
    (change : Change thread cell cell') {generation : Nat}
    (begun : generation ≤ cell.cell.state.generation) :
    (cell'.history generation).target = (cell.history generation).target := by
  cases change with
  | activate target next =>
      have different : generation ≠ next.generation := by omega
      let start (record : Record ι τ ρ η) : Record ι τ ρ η :=
        { record with target := some target }
      exact congrArg Record.target
        ((cell.setState next).note_ne next.generation start different)
  | bind _ next =>
      have different : generation ≠ next.generation := by omega
      exact congrArg Record.target (Wait.Shared.note_ne _ _ different)
  | claim | interest | hand | publish | complete | retire =>
      exact Wait.Shared.note_view _ _ Record.target (by rfl) generation
  | _ => rfl

/-- A claimed generation was begun. -/
theorem begun_of_claims {cell : Wait.Shared ι τ ρ η} (inv : cell.Inv) {generation : Nat}
    {entry : ι × WakeCause} (claims : (cell.history generation).claims = [entry]) :
    generation ≤ cell.cell.state.generation := by
  by_contra above
  rw [inv.future generation (by omega)] at claims
  cases claims

theorem issued_le_generation {cell : Wait.Shared ι τ ρ η} (inv : cell.Inv) :
    cell.issued ≤ cell.cell.state.generation := by
  have equal := inv.issued_eq
  omega

/-! ## Steps of other threads -/

namespace Moves

variable {thread other : ι} {shared shared' : Shared κ ι τ ρ η} {home : κ}

theorem id_eq (moves : Moves thread shared shared') (home : κ) :
    (shared'.cells home).cell.id = (shared.cells home).cell.id :=
  (moves.change home).id_eq

theorem key_eq (moves : Moves thread shared shared') (home : κ) (generation : Nat) :
    shared'.key home generation = shared.key home generation := by
  rw [Shared.key, Shared.key, moves.id_eq]

/-- Events that are not of a kind leave the others of that kind alone. -/
theorem log_kept (moves : Moves thread shared shared') {α : Type} {view : EventKind τ → Option α}
    (kept : ∀ event, Records thread shared event → view event = none) :
    shared'.log.filterMap view = shared.log.filterMap view := by
  rcases moves.log with same | ⟨event, appended, records⟩
  · rw [same]
  · rw [appended, filterMap_snoc, kept event records]
    simp

theorem publications_kept (moves : Moves thread shared shared') {wait : WaitKey}
    (foreign : shared.beginner wait ≠ some thread) :
    publications shared'.log wait = publications shared.log wait := by
  apply moves.log_kept
  intro event records
  cases event with
  | waitPublished _ token =>
      by_cases equal : token = wait
      · subst equal
        exact (foreign records).elim
      · simp [EventKind.publication?, equal]
  | _ => rfl

theorem resumptions_kept (moves : Moves thread shared shared') {wait : WaitKey}
    (foreign : shared.finisher wait ≠ some thread) :
    resumptions shared'.log wait = resumptions shared.log wait := by
  apply moves.log_kept
  intro event records
  cases event with
  | resumed _ token =>
      by_cases equal : token = wait
      · subst equal
        exact (foreign records).elim
      · simp [EventKind.resumption?, equal]
  | _ => rfl

/-- Only its winner records the selection of a generation, before it publishes. -/
theorem selections_kept (moves : Moves thread shared shared') (sound : shared.Sound)
    {generation : Nat}
    (foreign : ∀ cause, (shared.record home generation).claims = [(thread, cause)] →
      (shared.record home generation).published ≠ []) :
    selections shared'.log (shared.key home generation) =
      selections shared.log (shared.key home generation) := by
  apply moves.log_kept
  intro event records
  cases event with
  | wakeSelected _ token cause =>
      by_cases equal : token = shared.key home generation
      · subst equal
        obtain ⟨winner, announcing⟩ := records
        have same : home = winner := sound.distinct _ _ announcing.wait
        subst same
        exact (foreign cause announcing.claims announcing.published).elim
      · simp [EventKind.selection?, equal]
  | _ => rfl

/-- A returned token stays returned. -/
theorem returned (moves : Moves thread shared shared') {token : WaitKey}
    (returned : Returned shared.log token) : Returned shared'.log token := by
  rcases moves.log with same | ⟨event, appended, -⟩
  · rwa [same]
  · rw [Returned, appended, publications_snoc]
    intro empty
    exact returned (List.append_eq_nil_iff.mp empty).1

theorem task_kept (moves : Moves thread shared shared') {generation : Nat}
    (begun : generation ≤ (shared.cells home).cell.state.generation) :
    shared'.taskOf home generation = shared.taskOf home generation := by
  rw [Shared.taskOf, Shared.taskOf, target_kept (moves.change home) begun]

theorem announcing (moves : Moves thread shared shared') (sound : shared.Sound)
    (ne : other ≠ thread) {task : τ} {token : WaitKey} {cause : WakeCause}
    (announcing : Announcing other shared home task token cause) :
    Announcing other shared' home task token cause := by
  have inv := sound.cells home
  obtain ⟨interest, finishes, retired, marked⟩ :=
    (moves.change home).claimed_frame inv ne announcing.claims
  refine ⟨announcing.wait.trans (moves.id_eq home).symm, ?_, ?_, ?_⟩
  · rw [Shared.record, marked]
    exact announcing.claims
  · rw [Shared.record, marked]
    exact announcing.published
  · rw [moves.task_kept (begun_of_claims inv announcing.claims)]
    exact announcing.task

theorem resuming (moves : Moves thread shared shared') (sound : shared.Sound)
    (ne : other ≠ thread) {token : WaitKey} {cause : WakeCause}
    (resuming : Resuming other shared home token cause) :
    Resuming other shared' home token cause := by
  have finisher : shared'.finisher token = some other := by
    rcases moves.finisher token with same | ⟨none, -⟩
    · rw [same]
      exact resuming.finisher
    · rw [resuming.finisher] at none
      cases none
  refine ⟨resuming.wait.trans (moves.id_eq home).symm, finisher,
    (moves.change home).finishes_eq (sound.cells home) resuming.finishes, ?_⟩
  rw [moves.resumptions_kept, resuming.resumptions]
  rw [resuming.finisher]
  intro same
  exact ne (Option.some.inj same)

theorem knows (moves : Moves thread shared shared') (sound : shared.Sound) {since : Nat}
    {task : Option τ} (knows : Knows shared home since task) :
    Knows shared' home since task := by
  have inv := sound.cells home
  refine ⟨Nat.le_trans knows.1 ((moves.change home).issued_le inv), ?_⟩
  intro generation positive begun
  rcases knows.2 generation positive begun with passed | ⟨known, same⟩
  · exact .inl ((moves.change home).passed passed)
  · have below := Nat.le_trans begun (Nat.le_trans knows.1 (issued_le_generation inv))
    rw [moves.task_kept below]
    exact .inr ⟨known, same⟩

theorem script (moves : Moves thread shared shared') (sound : shared.Sound)
    (ne : other ≠ thread) {events : List (EventKind τ)}
    (script : Script other shared home events) : Script other shared' home events := by
  cases script with
  | @publication task token hasDeadline beginner unpublished =>
      have foreign : shared.beginner token ≠ some thread := by
        rw [beginner]
        intro same
        exact ne (Option.some.inj same)
      have kept := moves.publications_kept foreign
      rcases moves.beginner token with same | ⟨none, -⟩
      · exact .publication (same.trans beginner) (kept.trans unpublished)
      · rw [beginner] at none
        cases none
  | offer winner => exact .offer (moves.announcing sound ne winner)
  | selection winner => exact .selection (moves.announcing sound ne winner)
  | refusal returned => exact .refusal (moves.returned returned)
  | rejection => exact .rejection
  | resumption owner => exact .resumption (moves.resuming sound ne owner)

theorem stanceFact (moves : Moves thread shared shared') (sound : shared.Sound)
    (ne : other ≠ thread) {stance : Stance τ ρ η}
    (fact : StanceFact other shared home stance) : StanceFact other shared' home stance := by
  have readable : ∀ {word}, Readable (shared.cells home).cell word →
      Readable (shared'.cells home).cell word := by
    intro word readable
    obtain ⟨task, route, primary, fallback⟩ := (moves.change home).targets_known
    exact ⟨task readable.task, route readable.route, primary readable.primary,
      fun uses => fallback (readable.fallback uses)⟩
  have reads : ∀ {reader : Reader τ ρ η} {word : WaitWord} {task : τ},
      ReadFact other shared home word task reader →
      ReadFact other shared' home word task reader := by
    intro reader word task read
    cases reader with
    | resumed => exact ⟨moves.resuming sound ne read.1, readable read.2⟩
    | registration since => exact moves.knows sound read
  cases stance with
  | recording => exact moves.script sound ne fact
  | readTask reader word =>
      cases reader with
      | resumed => exact ⟨moves.resuming sound ne fact.1, readable fact.2⟩
      | registration since =>
          exact Nat.le_trans fact ((moves.change home).issued_le (sound.cells home))
  | readRoute | readHub => exact reads fact
  | registered => exact moves.knows sound fact
  | call | registering | panicked => trivial

/-- A returned token is one of a generation that was begun. -/
theorem begun_of_returned (sound : shared.Sound) {token : WaitKey}
    (wait : token.wait = (shared.cells home).cell.id) (returned : Returned shared.log token) :
    0 < token.generation ∧ token.generation ≤ (shared.cells home).issued := by
  apply (sound.beginner home token.generation).mp
  rw [shared.key_generation wait]
  exact sound.published token returned

theorem selectFact (moves : Moves thread shared shared') (sound : shared.Sound)
    {registration : Option τ} {pc : Pc τ ρ η}
    (tokens : ∀ op stage, pc = .run op stage → ∀ token ∈ op.token?,
      token.wait = (shared.cells home).cell.id ∧ Returned shared.log token)
    (fact : SelectFact shared home registration pc) :
    SelectFact shared' home registration pc := by
  cases pc with
  | run op stage =>
      cases op with
      | select token cause =>
          rcases fact with ⟨passed, owes⟩ | ⟨some, same⟩
          · exact .inl ⟨(moves.change home).passed passed, owes⟩
          · obtain ⟨own, returned⟩ := tokens _ _ rfl token rfl
            have begun := begun_of_returned sound own returned
            have below := Nat.le_trans begun.2 (issued_le_generation (sound.cells home))
            exact .inr ⟨some, same.trans (moves.task_kept below).symm⟩
      | _ => trivial
  | _ => trivial

/-- A claim of another thread is as old as the change. -/
theorem claimed_back (moves : Moves thread shared shared') (sound : shared.Sound)
    (ne : other ≠ thread) {generation : Nat} {cause : WakeCause}
    (claims : (shared'.record home generation).claims = [(other, cause)])
    (published : (shared'.record home generation).published = []) :
    (shared.record home generation).claims = [(other, cause)] ∧
      (shared.record home generation).published = [] := by
  have inv := sound.cells home
  have before := (moves.change home).claims_back inv ne claims
  obtain ⟨interest, finishes, retired, marked⟩ := (moves.change home).claimed_frame inv ne before
  refine ⟨before, ?_⟩
  rw [Shared.record, marked] at published
  exact published

theorem claimed_log (moves : Moves thread shared shared') (sound : shared.Sound)
    (ne : other ≠ thread) {generation : Nat} {cause : WakeCause}
    (claims : (shared.record home generation).claims = [(other, cause)]) :
    selections shared'.log (shared'.key home generation) =
      selections shared.log (shared.key home generation) := by
  rw [moves.key_eq]
  apply moves.selections_kept sound
  intro own owned
  rw [claims] at owned
  cases owned
  exact (ne rfl).elim

variable [DecidableEq κ]

theorem view_token {mine : Local κ τ ρ η} (sound : mine.Sound other shared) (op : Op τ ρ η)
    (stage : Stage τ ρ η) (pc : mine.stance.pc = .run op stage) :
    ∀ token ∈ op.token?, token.wait = (shared.cells mine.home).cell.id := by
  have fact := (sound.calls mine.home).fact
  rw [Local.view, if_pos rfl, pc] at fact
  exact fact.1.wait

/-- What holds of a thread survives the steps of the others. -/
theorem others (moves : Moves thread shared shared') (sound : shared.Sound)
    (ne : other ≠ thread) {mine : Local κ τ ρ η} (local_ : mine.Sound other shared) :
    mine.Sound other shared' where
  calls home := (moves.change home).keeps_local (sound.cells home) ne (local_.calls home)
  stance := moves.stanceFact sound ne local_.stance
  tokens op stage pc token member := moves.returned (local_.tokens op stage pc token member)
  select := moves.selectFact sound (fun op stage pc token member =>
    ⟨view_token local_ op stage pc token member, local_.tokens op stage pc token member⟩)
    local_.select
  rank := local_.rank
  publishes wait beginner unpublished := by
    have before : shared.beginner wait = some other := by
      rcases moves.beginner wait with same | ⟨-, own⟩
      · rwa [← same]
      · rw [own] at beginner
        exact (ne (Option.some.inj beginner).symm).elim
    apply local_.publishes wait before
    rw [← unpublished]
    apply (moves.publications_kept ?_).symm
    rw [before]
    intro same
    exact ne (Option.some.inj same)
  resumes wait finisher unresumed := by
    have before : shared.finisher wait = some other := by
      rcases moves.finisher wait with same | ⟨-, own⟩
      · rwa [← same]
      · rw [own] at finisher
        exact (ne (Option.some.inj finisher).symm).elim
    apply local_.resumes wait before
    rw [← unresumed]
    apply (moves.resumptions_kept ?_).symm
    rw [before]
    intro same
    exact ne (Option.some.inj same)
  unannounced home generation cause claims' published' unannounced := by
    obtain ⟨claims, published⟩ := moves.claimed_back sound ne claims' published'
    rw [moves.claimed_log sound ne claims]
    exact local_.unannounced home generation cause claims published unannounced
  announced home generation cause claims' published' announced := by
    obtain ⟨claims, published⟩ := moves.claimed_back sound ne claims' published'
    rw [moves.claimed_log sound ne claims,
      moves.task_kept (begun_of_claims (sound.cells home) claims)]
    exact local_.announced home generation cause claims published announced

end Moves

end VThread.Recorded
