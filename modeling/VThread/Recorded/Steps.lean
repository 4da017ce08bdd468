import VThread.Recorded.Invariant

/-!
# Steps of recorded cells

One lemma for each kind of step: a decision of a thread that rests, the record of an event,
a read of the target, and an atomic step of a call.
-/

namespace VThread.Recorded

open VThread.Lib VThread.Wait

variable {κ ι τ ρ η : Type} {thread : ι} {shared : Shared κ ι τ ρ η} {mine : Local κ τ ρ η}

/-! ## Events -/

/-- The sequence with one more event. -/
def Shared.append (shared : Shared κ ι τ ρ η) (event : EventKind τ) : Shared κ ι τ ρ η :=
  { shared with log := shared.log ++ [event] }

section Event

variable {event : EventKind τ} {later : List (EventKind τ)} {pc : Pc τ ρ η}

theorem append_moves (records : Records thread shared event) :
    Moves thread shared (shared.append event) :=
  ⟨fun _ => .same, fun _ => .inl rfl, fun _ => .inl rfl, .inr ⟨event, rfl, records⟩⟩

theorem append_sound (inv : shared.Sound) (records : Records thread shared event) :
    (shared.append event).Sound where
  cells := inv.cells
  distinct := inv.distinct
  beginner := inv.beginner
  published wait recorded := by
    by_cases own : shared.beginner wait = some thread
    · exact Option.isSome_iff_exists.mpr ⟨thread, own⟩
    · rw [(append_moves records).publications_kept own] at recorded
      exact inv.published wait recorded
  unclaimed home generation claims := by
    refine ((append_moves records).selections_kept inv ?_).trans
      (inv.unclaimed home generation claims)
    intro cause own
    rw [show (shared.record home generation).claims = [] from claims] at own
    cases own
  announced home generation published := by
    obtain ⟨winner, cause, task, claims, taskEq, selected⟩ :=
      inv.announced home generation published
    refine ⟨winner, cause, task, claims, taskEq, ?_⟩
    exact ((append_moves records).selections_kept inv fun _ _ => published).trans selected
  finisher := inv.finisher
  resumed wait recorded := by
    by_cases own : shared.finisher wait = some thread
    · exact Option.isSome_iff_exists.mpr ⟨thread, own⟩
    · rw [(append_moves records).resumptions_kept own] at recorded
      exact inv.resumed wait recorded

/-- What a thread is about to record is its own. -/
theorem Script.records {home : κ} (script : Script thread shared home (event :: later)) :
    Records thread shared event := by
  cases script with
  | publication beginner => exact beginner
  | offer | refusal | rejection => trivial
  | selection winner => exact ⟨home, winner⟩
  | resumption owner => exact owner.finisher

/-- A record pays what it is about. -/
theorem recording_publishes {wait : WaitKey}
    (owed : (Stance.recording event later pc : Stance τ ρ η).publishes? = some wait) :
    event.publication? wait ≠ none := by
  cases event with
  | waitPublished =>
      cases owed
      simp [EventKind.publication?]
  | _ => cases owed

theorem recording_resumes {wait : WaitKey}
    (owed : (Stance.recording event later pc : Stance τ ρ η).resumes? = some wait) :
    event.resumption? wait ≠ none := by
  cases event with
  | resumed =>
      cases owed
      simp [EventKind.resumption?]
  | _ => cases owed

/-- Where a thread stands after a record. -/
def Stance.next (later : List (EventKind τ)) (pc : Pc τ ρ η) : Stance τ ρ η :=
  match later with
  | [] => .call pc
  | event :: rest => .recording event rest pc

theorem Stance.next_pc (later : List (EventKind τ)) (pc : Pc τ ρ η) :
    (Stance.next later pc).pc = pc := by
  cases later <;> rfl

/-- The stance after a record: a selection that was offered is announced next, and an
announced one is so for good. -/
theorem Script.next {home : κ} (script : Script thread shared home (event :: later))
    (rank : pc.rank ≤ 6) :
    StanceFact thread (shared.append event) home (Stance.next later pc) ∧
      ((∃ task token cause origin, event = .wakeSelected task token cause origin ∧
        Announcing thread shared home task token cause ∧
        (Stance.recording event later pc).Unannounced ∧ ¬ (Stance.next later pc).Unannounced) ∨
      ((∀ wait, event.selection? wait = none) ∧
        ((Stance.next later pc).Unannounced ↔ (Stance.recording event later pc).Unannounced))) := by
  have called : ¬ (Stance.call pc).Unannounced := Nat.not_lt.mpr rank
  cases script with
  | publication | rejection | resumption =>
      exact ⟨trivial, .inr ⟨fun _ => rfl, iff_of_false called id⟩⟩
  | offer winner =>
      exact ⟨.selection ⟨winner.wait, winner.claims, winner.published, winner.task⟩,
        .inr ⟨fun _ => rfl, Iff.rfl⟩⟩
  | selection winner => exact ⟨trivial, .inl ⟨_, _, _, _, rfl, winner, trivial, called⟩⟩
  | refusal => exact ⟨.rejection, .inr ⟨fun _ => rfl, Iff.rfl⟩⟩

end Event

/-! ## Registrations -/

/-- A registration that reads the task while the cell is live knows the task of its
generation. -/
theorem knows_of_read {home : κ} (inv : (shared.cells home).Inv) {since : Nat} {task : τ}
    (begun : since ≤ (shared.cells home).issued)
    (read : (shared.cells home).cell.task = some task) : Knows shared home since (some task) := by
  refine ⟨begun, fun generation positive old => ?_⟩
  by_cases passed : (shared.cells home).Passed generation
  · exact .inl passed
  right
  have issued := inv.issued_eq
  have current : generation = (shared.cells home).cell.state.generation := by
    by_contra different
    exact passed (.inl (by omega))
  have bound : (shared.cells home).cell.state.phase ≠ .binding := by
    intro binding
    rw [if_pos binding] at issued
    omega
  have live : (shared.cells home).cell.state.phase ≠ .idle := by
    intro idle
    exact passed (.inr ⟨current, bound, by simp [idle]⟩)
  obtain ⟨-, target, targetEq⟩ := inv.started live
  have holds := (inv.bound live bound target targetEq).1
  refine ⟨rfl, ?_⟩
  rw [Shared.taskOf, Shared.record, current, targetEq, ← read, holds]
  rfl

/-- A registration of an idle or binding cell finds every begun generation over. -/
theorem knows_none {home : κ} (inv : (shared.cells home).Inv)
    (phase : (shared.cells home).cell.state.phase = .idle ∨
      (shared.cells home).cell.state.phase = .binding) :
    Knows shared home (shared.cells home).issued none := by
  refine ⟨Nat.le_refl _, fun generation positive old => .inl ?_⟩
  have issued := inv.issued_eq
  rcases phase with idle | binding
  · exact Wait.Shared.passed_of_phase ⟨by simp [idle], by simp [idle]⟩ (by omega)
  · rw [if_pos binding] at issued
    exact .inl (by omega)

/-! ## Decisions -/

section Own

variable [DecidableEq κ]

/-- What a step has to establish. -/
structure Own (thread : ι) (shared shared' : Shared κ ι τ ρ η) (mine' : Local κ τ ρ η) :
    Prop where
  sound : shared'.Sound
  moves : Moves thread shared shared'
  mine : mine'.Sound thread shared'

theorem rest_local {cell : Wait.Shared ι τ ρ η} {last : Option (Op τ ρ η × Outcome η)}
    (resting : Wait.Local thread cell (.rest last)) : Wait.Local thread cell (.rest none) :=
  ⟨trivial, resting.owes, resting.owesCompletion⟩

theorem Local.view_self : mine.view mine.home = mine.stance.pc := if_pos rfl

/-- A claim a thread has not published is the one its call works on. -/
theorem Local.Sound.claim_owed (sound : mine.Sound thread shared) {home : κ} {generation : Nat}
    {cause : WakeCause} (claims : (shared.record home generation).claims = [(thread, cause)])
    (published : (shared.record home generation).published = []) :
    mine.home = home ∧ mine.stance.pc.owes = some generation := by
  have owes := (sound.calls home).owes generation cause claims published
  rw [Local.view] at owes
  split at owes
  · exact ⟨‹_›, owes⟩
  · cases owes

/-- A thread that rests owes nothing and may take any stance that owes nothing. -/
theorem Local.Sound.decide (sound : mine.Sound thread shared) (inv : shared.Sound)
    (rests : ∃ last, mine.stance.pc = .rest last) (publishes : mine.stance.publishes? = none)
    (resumes : mine.stance.resumes? = none) {mine' : Local κ τ ρ η}
    (calls : ∀ home, Wait.Local thread (shared.cells home) (mine'.view home))
    (stance : StanceFact thread shared mine'.home mine'.stance)
    (tokens : ∀ op stage, mine'.stance.pc = .run op stage → ∀ token ∈ op.token?,
      Returned shared.log token)
    (select : SelectFact shared mine'.home mine'.registration mine'.stance.pc)
    (rank : mine'.stance.pc.rank ≤ 6) : Own thread shared shared mine' := by
  obtain ⟨last, pc⟩ := rests
  have unclaimed : ∀ {home generation cause},
      (shared.record home generation).claims = [(thread, cause)] →
      (shared.record home generation).published = [] → False := by
    intro home generation cause claims published
    have owes := (sound.claim_owed claims published).2
    rw [pc] at owes
    cases owes
  refine ⟨inv, .refl .., calls, stance, tokens, select, fun _ => rank, ?_, ?_, ?_, ?_⟩
  · intro wait beginner unpublished
    have owed := sound.publishes wait beginner unpublished
    rw [publishes] at owed
    cases owed
  · intro wait finisher unresumed
    have owed := sound.resumes wait finisher unresumed
    rw [resumes] at owed
    cases owed
  · exact fun home generation cause claims published _ => (unclaimed claims published).elim
  · exact fun home generation cause claims published _ => (unclaimed claims published).elim

/-- A thread that rests everywhere. -/
theorem Local.Sound.resting (sound : mine.Sound thread shared)
    (rests : ∃ last, mine.stance.pc = .rest last) (home : κ) :
    Wait.Local thread (shared.cells home) (.rest none) := by
  obtain ⟨last, pc⟩ := rests
  have here := sound.calls home
  rw [Local.view] at here
  split at here
  · rw [pc] at here
    exact rest_local here
  · exact here

/-- A thread that rests takes a stance that rests too. -/
theorem Local.Sound.pause (sound : mine.Sound thread shared) (inv : shared.Sound)
    (rests : ∃ last, mine.stance.pc = .rest last) (publishes : mine.stance.publishes? = none)
    (resumes : mine.stance.resumes? = none) {mine' : Local κ τ ρ η}
    (pc : mine'.stance.pc = .rest none)
    (stance : StanceFact thread shared mine'.home mine'.stance) :
    Own thread shared shared mine' := by
  apply sound.decide inv rests publishes resumes
  · intro home
    rw [Local.view, pc, ite_self]
    exact sound.resting rests home
  · exact stance
  · intro op stage run
    rw [pc] at run
    cases run
  · rw [pc]
    trivial
  · rw [pc]
    exact Nat.zero_le _

/-- A thread that rests starts a call with returned tokens. -/
theorem Local.Sound.start [DecidableEq ι] [DecidableEq τ] [DecidableEq ρ] [DecidableEq η]
    (sound : mine.Sound thread shared)
    (inv : shared.Sound) (rests : ∃ last, mine.stance.pc = .rest last)
    (publishes : mine.stance.publishes? = none) (resumes : mine.stance.resumes? = none)
    {op : Op τ ρ η} {mine' : Local κ τ ρ η} (home : mine'.home = mine.home)
    (pc : mine'.stance.pc = op.call (shared.cells mine.home).cell.id)
    (returned : ∀ token ∈ op.token?, Returned shared.log token)
    (stance : StanceFact thread shared mine.home mine'.stance)
    (select : SelectFact shared mine.home mine'.registration mine'.stance.pc) :
    Own thread shared shared mine' := by
  have idle := sound.resting rests
  have permits : (shared.cells mine.home).Permits op := by
    intro owner token member wait
    exact (Moves.begun_of_returned inv wait (returned token member)).2
  have started := (advance_own (inv.cells mine.home) (idle mine.home)
    ⟨⟨op, false, false⟩, permits, rfl, rfl⟩).2
  apply sound.decide inv rests publishes resumes
  · intro other
    rw [Local.view, home]
    split
    · rename_i equal
      rw [← equal, pc]
      exact started
    · exact idle other
  · rw [home]
    exact stance
  · intro op' stage run token member
    rw [pc, Op.call] at run
    split at run
    · cases run
      exact returned token member
    · cases run
  · rw [home]
    exact select
  · rw [pc, Op.call]
    split
    · cases op <;> exact Nat.zero_le _
    · exact Nat.zero_le _

/-! ## Records -/

/-- A thread records an event. -/
theorem Local.Sound.record {event : EventKind τ} {later : List (EventKind τ)} {pc : Pc τ ρ η}
    (sound : mine.Sound thread shared) (inv : shared.Sound)
    (stance : mine.stance = .recording event later pc) :
    Own thread shared (shared.append event)
      { mine with stance := Stance.next later pc } := by
  have script := sound.stance
  have rank := sound.rank
  rw [stance] at script rank
  have records := Script.records script
  have moves := append_moves records
  obtain ⟨fact, selection⟩ := Script.next script (rank rfl)
  have pcEq : (Stance.next later pc).pc = mine.stance.pc := by rw [Stance.next_pc, stance]; rfl
  refine ⟨append_sound inv records, moves, ?_, fact, ?_, ?_, ?_, ?_, ?_, ?_, ?_⟩
  · intro home
    have here := sound.calls home
    rw [Local.view] at here ⊢
    rw [pcEq]
    exact here
  · intro op stage run token member
    exact moves.returned (sound.tokens op stage (pcEq.symm.trans run) token member)
  · have here := sound.select
    rw [← pcEq] at here
    exact here
  · intro _
    rw [Stance.next_pc]
    exact rank rfl
  · intro wait beginner unpublished
    rw [Shared.append, publications_snoc, List.append_eq_nil_iff, Option.toList_eq_nil_iff]
      at unpublished
    have owed := sound.publishes wait beginner unpublished.1
    rw [stance] at owed
    exact (recording_publishes owed unpublished.2).elim
  · intro wait finisher unresumed
    rw [Shared.append, resumptions_snoc, List.append_eq_nil_iff, Option.toList_eq_nil_iff]
      at unresumed
    have owed := sound.resumes wait finisher unresumed.1
    rw [stance] at owed
    exact (recording_resumes owed unresumed.2).elim
  · intro home generation cause claims published unannounced
    rcases selection with ⟨_, _, _, _, -, -, -, announced⟩ | ⟨other, same⟩
    · exact (announced unannounced).elim
    · have before := sound.unannounced home generation cause claims published
      rw [stance] at before
      show selections (shared.log ++ [event]) _ = []
      rw [selections_snoc, other, Option.toList_none, List.append_nil]
      exact before (same.mp unannounced)
  · intro home generation cause claims published announced
    show ∃ task, _ ∧ selections (shared.log ++ [event]) _ = [(task, cause)]
    rcases selection with ⟨task, token, own, origin, rfl, announcing, unannounced, -⟩ |
      ⟨other, same⟩
    · -- The event is about the claim, the only one the thread has not published.
      obtain ⟨sameHome, owes⟩ := sound.claim_owed claims published
      obtain ⟨-, owes'⟩ := sound.claim_owed announcing.claims announcing.published
      subst sameHome
      rw [owes] at owes'
      cases owes'
      have before := sound.unannounced _ _ cause claims published (by rwa [stance])
      have causeEq := announcing.claims
      rw [show (shared.record mine.home token.generation).claims = [(thread, cause)] from claims]
        at causeEq
      cases causeEq
      refine ⟨task, announcing.task, ?_⟩
      have key : shared.key mine.home token.generation = token :=
        shared.key_generation announcing.wait
      show selections _ (shared.key mine.home token.generation) = _
      rw [selections_snoc, before, key]
      simp [EventKind.selection?]
    · have before := sound.announced home generation cause claims published
      rw [stance] at before
      rw [selections_snoc, other, Option.toList_none, List.append_nil]
      exact before fun unannounced => announced (same.mpr unannounced)

/-! ## Reads -/

/-- A thread takes another stance outside of its call. -/
theorem Local.Sound.shift (sound : mine.Sound thread shared) (inv : shared.Sound)
    {stance' : Stance τ ρ η} (pc : stance'.pc = mine.stance.pc)
    (fact : StanceFact thread shared mine.home stance') (outside : mine.stance.isCall = false)
    (publishes : mine.stance.publishes? = none)
    (resumes : ∀ wait, mine.stance.resumes? = some wait → stance'.resumes? = some wait)
    (before : ¬ mine.stance.Unannounced) (after : ¬ stance'.Unannounced) :
    Own thread shared shared { mine with stance := stance' } := by
  refine ⟨inv, .refl .., ?_, fact, ?_, ?_, fun _ => ?_, ?_, ?_, ?_, ?_⟩
  · intro home
    have here := sound.calls home
    rw [Local.view] at here ⊢
    rw [pc]
    exact here
  · intro op stage run
    exact sound.tokens op stage (pc.symm.trans run)
  · have here := sound.select
    rw [← pc] at here
    exact here
  · rw [pc]
    exact sound.rank outside
  · intro wait beginner unpublished
    have owed := sound.publishes wait beginner unpublished
    rw [publishes] at owed
    cases owed
  · exact fun wait finisher unresumed => resumes wait (sound.resumes wait finisher unresumed)
  · exact fun home generation cause claims published unannounced => (after unannounced).elim
  · exact fun home generation cause claims published _ =>
      sound.announced home generation cause claims published before

variable {reader : Reader τ ρ η} {word : WaitWord} {task : τ}

/-- A read goes on, or ends in a panic of a registration. -/
theorem Local.Sound.reads (sound : mine.Sound thread shared) (inv : shared.Sound)
    {stance' : Stance τ ρ η} (pc : mine.stance.pc = reader.pc)
    (outside : mine.stance.isCall = false) (publishes : mine.stance.publishes? = none)
    (before : ¬ mine.stance.Unannounced)
    (resumes : mine.stance.resumes? = reader.resumes?)
    (goes : (stance'.pc = reader.pc ∧ StanceFact thread shared mine.home stance' ∧
        ¬ stance'.Unannounced ∧ stance'.resumes? = mine.stance.resumes?) ∨
      (∃ since message, reader = .registration since ∧ stance' = .panicked message)) :
    Own thread shared shared { mine with stance := stance' } := by
  rcases goes with ⟨same, fact, after, owed⟩ | ⟨since, message, rfl, rfl⟩
  · exact sound.shift inv (same.trans pc.symm) fact outside publishes
      (fun wait owing => owed.trans owing) before after
  · refine sound.shift inv pc.symm trivial outside publishes (fun wait owing => ?_) before id
    rw [resumes] at owing
    cases owing

theorem Local.Sound.readTask (sound : mine.Sound thread shared) (inv : shared.Sound)
    (stance : mine.stance = .readTask reader word) :
    Own thread shared shared { mine with
      stance := match (shared.cells mine.home).cell.task with
        | none => .panicked "task identity zero is reserved"
        | some task => .readRoute reader word task } := by
  have fact := sound.stance
  rw [stance] at fact
  refine @sound.reads _ _ _ _ _ _ _ _ _ reader inv _ (by rw [stance]; rfl) (by rw [stance]; rfl)
    (by rw [stance]; rfl) (by rw [stance]; exact id) (by rw [stance]; rfl) ?_
  cases reader with
  | resumed =>
      obtain ⟨task, taskEq⟩ := Option.isSome_iff_exists.mp fact.2.task
      rw [taskEq, stance]
      exact .inl ⟨rfl, fact, id, rfl⟩
  | registration since =>
      split
      · exact .inr ⟨since, _, rfl, rfl⟩
      · rename_i task taskEq
        rw [stance]
        exact .inl ⟨rfl, knows_of_read (inv.cells _) fact taskEq, id, rfl⟩

theorem Local.Sound.readRoute (sound : mine.Sound thread shared) (inv : shared.Sound)
    (stance : mine.stance = .readRoute reader word task) :
    Own thread shared shared { mine with
      stance := match (shared.cells mine.home).cell.route with
        | none => .panicked "encoded task key is nonzero"
        | some _ => .readHub reader word task } := by
  have fact := sound.stance
  rw [stance] at fact
  refine @sound.reads _ _ _ _ _ _ _ _ _ reader inv _ (by rw [stance]; rfl) (by rw [stance]; rfl)
    (by rw [stance]; rfl) (by rw [stance]; exact id) (by rw [stance]; rfl) ?_
  cases reader with
  | resumed =>
      obtain ⟨route, routeEq⟩ := Option.isSome_iff_exists.mp fact.2.route
      rw [routeEq, stance]
      exact .inl ⟨rfl, fact, id, rfl⟩
  | registration since =>
      split
      · exact .inr ⟨since, _, rfl, rfl⟩
      · rw [stance]
        exact .inl ⟨rfl, fact, id, rfl⟩

theorem Readable.hub {cell : Cell τ ρ η} (readable : Readable cell word) :
    ∃ hub, cell.hubFor word = .ok hub := by
  rw [Cell.hubFor]
  split
  · rename_i uses
    obtain ⟨hub, known⟩ := Option.isSome_iff_exists.mp (readable.fallback uses)
    exact ⟨hub, by rw [known]; rfl⟩
  · obtain ⟨hub, known⟩ := Option.isSome_iff_exists.mp readable.primary
    exact ⟨hub, by rw [known]; rfl⟩

theorem Local.Sound.readHub (sound : mine.Sound thread shared) (inv : shared.Sound)
    (stance : mine.stance = .readHub reader word task) :
    Own thread shared shared { mine with
      stance := match (shared.cells mine.home).cell.hubFor word with
        | .error message => .panicked message
        | .ok _ => reader.done task } := by
  have fact := sound.stance
  rw [stance] at fact
  refine @sound.reads _ _ _ _ _ _ _ _ _ reader inv _ (by rw [stance]; rfl) (by rw [stance]; rfl)
    (by rw [stance]; rfl) (by rw [stance]; exact id) (by rw [stance]; rfl) ?_
  cases reader with
  | resumed =>
      obtain ⟨hub, hubEq⟩ := fact.2.hub
      rw [hubEq, stance]
      exact .inl ⟨rfl, .resumption fact.1, id, rfl⟩
  | registration since =>
      split
      · exact .inr ⟨since, _, rfl, rfl⟩
      · rw [stance]
        exact .inl ⟨rfl, fact, id, rfl⟩

end Own

end VThread.Recorded
