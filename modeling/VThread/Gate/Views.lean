import VThread.Gate.Invariant

/-!
# What other threads can do to a view

A thread's view changes under it only when its cell is selected, published or queried, when
its queue entry is popped, and when the gate is closed.  None of this invalidates what the
thread knows.
-/

namespace VThread.Gate

open VThread.Lib VThread.Wait

variable {ι : Type}

/-! ## Decisions under the lock -/

section Decided

variable {word next : WaitWord} {selection : ResourceSelection} {changed : Bool}

/-- An accepted offer finds an idle or active cell without a selection. -/
structure Offered (selection : ResourceSelection) (word next : WaitWord) : Prop where
  openCell : word.closed = false
  permit : word.permit = false
  resource : word.resource = none
  taken : word.phase = .idle ∧ next = (word.withResource (some selection)).withPermit true ∨
    word.phase = .active ∧
      next = (word.withResource (some selection)).withPhase (.selected .ready)

theorem offered (offer : offerResource selection word = some (next, true)) :
    Offered selection word next := by
  rw [offerResource, claimResource] at offer
  split at offer
  · cases offer
  rw [WaitWord.resourceOffer] at offer
  split at offer
  · cases offer
  · rename_i accepts
    split at accepts
    · cases accepts
    · rename_i candidate
      obtain ⟨openCell, candidate⟩ := not_or.mp candidate
      obtain ⟨phase, candidate⟩ := not_or.mp candidate
      obtain ⟨permit, resource⟩ := not_or.mp candidate
      have openCell := (Bool.not_eq_true _).mp openCell
      have permit := (Bool.not_eq_true _).mp permit
      have resource : word.resource = none := by simpa using resource
      cases accepts
      split at offer
      · rename_i active
        cases offer
        exact ⟨openCell, permit, resource, .inr ⟨active, rfl⟩⟩
      · rename_i inactive
        cases offer
        exact ⟨openCell, permit, resource,
          .inl ⟨(Decidable.not_not.mp phase).resolve_right inactive, rfl⟩⟩

/-- A refused offer changes nothing, and no offer would be accepted. -/
theorem refused (offer : offerResource selection word = some (next, false)) :
    next = word ∧ word.phase ≠ .binding ∧ ∀ other, word.resourceOffer other = none := by
  rw [offerResource, claimResource] at offer
  split at offer
  · cases offer
  rename_i unbound
  split at offer
  · rename_i rejects
    cases offer
    refine ⟨rfl, unbound, fun other => ?_⟩
    rw [WaitWord.resourceOffer] at rejects ⊢
    split at rejects
    · rename_i reason
      rw [if_pos reason]
    · cases rejects
  · split at offer <;> cases offer

/-- A close reaches every cell that is not being bound or published. -/
structure Closes (word next : WaitWord) : Prop where
  unclaimed : word.isClaimed = false
  unbound : word.phase ≠ .binding
  next : word.closed = true ∧ next = word ∨
    word.closed = false ∧
      (word.phase = .active ∧
          next = ((word.withClosed true).withPermit false).withPhase (.selected .closed) ∨
        word.phase ≠ .active ∧ next = (word.withClosed true).withPermit false)

theorem closes (closing : closeWait word = some (next, changed)) : Closes word next := by
  rw [closeWait, Wait.close] at closing
  split at closing
  · cases closing
  rename_i ready
  obtain ⟨unbound, unclaimed⟩ := not_or.mp ready
  refine ⟨(Bool.not_eq_true _).mp unclaimed, unbound, ?_⟩
  split at closing
  · rename_i already
    cases closing
    exact .inl ⟨already, rfl⟩
  · rename_i isOpen
    refine .inr ⟨(Bool.not_eq_true _).mp isOpen, ?_⟩
    dsimp only at closing
    split at closing
    · rename_i active
      cases closing
      exact .inl ⟨active, rfl⟩
    · rename_i inactive
      cases closing
      exact .inr ⟨inactive, rfl⟩

end Decided

/-! ## Moves -/

/-- Changes of a view by the step of another thread. -/
inductive View.Move (view : View) : View → Prop where
  | same : Move view view
  | selected (cause : WakeCause) : view.word.phase = .active → Denies view.timed cause →
      Move view { view with word := view.word.claimed cause }
  | published (cause : WakeCause) : view.word.phase = .claim cause →
      Move view
        { view with word := (view.word.withPhase (.selected cause)).withPermit false }
  | queried : view.word.isClaimed →
      Move view { view with word := view.word.withPermit true }
  | offered (selection : ResourceSelection) (next : WaitWord) : view.queued →
      Offered selection view.word next →
      Move view { view with
        word := next, queued := False
        selected := view.selected + permitsOf (some selection) }
  | refused : view.queued → view.word.phase ≠ .binding →
      (∀ selection, view.word.resourceOffer selection = none) →
      Move view { view with queued := False }
  | closed (next : WaitWord) : view.queued → Closes view.word next →
      Move view { view with word := next, queued := False, closed := true }
  | gate : ¬ view.queued → Move view { view with closed := true }

/-! ## The word of a waiting ticket -/

section Words

variable {word next : WaitWord} {timed : Bool} {stage : Parking} {status : Status}
  {cause : WakeCause}

/-- A live word belongs to a suspended ticket, and any other live word of its generation
may take its place. -/
theorem waits_suspended (fits : stage.Fits word) (live : word.phase ≠ .idle)
    (unbound : word.phase ≠ .binding) (waits : Waits timed word stage status) :
    Suspended timed word status ∧
      ∀ next status', next.generation = word.generation → next.phase ≠ .idle →
        next.phase ≠ .binding → Suspended timed next status' →
        stage.Fits next ∧ Waits timed next stage status' := by
  cases stage with
  | begin => exact absurd fits live
  | bind => exact absurd fits.2 unbound
  | parked =>
      exact ⟨waits, fun next status' same live' unbound' suspended =>
        ⟨⟨same.trans fits.1, live', unbound'⟩, suspended⟩⟩
  | rollback =>
      exact ⟨waits, fun next status' same live' unbound' suspended =>
        ⟨⟨same.trans fits.1, live', unbound'⟩, suspended⟩⟩

/-- Only a queued ticket has an active word. -/
theorem Suspended.queued_of_active (suspended : Suspended timed word status)
    (active : word.phase = .active) : status = .queued ∧ word.permit = false := by
  cases status with
  | queued =>
      obtain ⟨_, permit⟩ | ⟨cause, _, ends⟩ := suspended
      · exact ⟨rfl, permit⟩
      · simp [Ends, active] at ends
  | granted | shut => simp [Suspended, active] at suspended
  | lost => simp [Suspended, Ends, active] at suspended

/-- A claimed word belongs to a ticket that is failing. -/
theorem Suspended.denied_of_claim (suspended : Suspended timed word status)
    (claimed : word.phase = .claim cause) :
    Denies timed cause ∧ (status = .queued ∨ status = .lost) := by
  cases status with
  | queued =>
      obtain ⟨active, _⟩ | ⟨cause', denies, ends | ends⟩ := suspended
      · rw [claimed] at active
        cases active
      · rw [claimed] at ends
        cases ends
        exact ⟨denies, .inl rfl⟩
      · rw [claimed] at ends
        cases ends
  | granted =>
      rw [Suspended, claimed] at suspended
      cases suspended
  | lost =>
      obtain ⟨cause', denies, ends | ends⟩ := suspended
      · rw [claimed] at ends
        cases ends
        exact ⟨denies, .inr rfl⟩
      · rw [claimed] at ends
        cases ends
  | shut =>
      obtain ⟨cause', -, phase⟩ := suspended
      rw [claimed] at phase
      cases phase

/-- A ticket that is failing may be queued or passed over. -/
theorem suspended_of_denied (denies : Denies timed cause) (ends : Ends next cause)
    (failing : status = .queued ∨ status = .lost) : Suspended timed next status := by
  rcases failing with rfl | rfl
  · exact .inr ⟨cause, denies, ends⟩
  · exact ⟨cause, denies, ends⟩

/-- A refused offer finds a ticket that has already failed. -/
theorem Suspended.refused (suspended : Suspended timed word .queued)
    (openCell : word.closed = false) (resource : word.resource = none)
    (offer : word.resourceOffer .permit = none) : Suspended timed word .lost := by
  obtain ⟨active, permit⟩ | ends := suspended
  · simp [WaitWord.resourceOffer, active, permit, resource, openCell] at offer
  · exact ends

end Words

section Moves

variable {view view' : View} {pc : Pc ι}

theorem View.Is.of_queued {status : Status} (stands : view.Is status) (queued : view.queued) :
    status = .queued :=
  stands.queued.mp queued

theorem View.Is.word {status : Status} (stands : view.Is status) (word : WaitWord) :
    { view with word }.Is status :=
  ⟨stands.queued, stands.selected, stands.closed, stands.carried⟩

/-- A live word belongs to a ticket that waits. -/
theorem Fits.waiting (fits : Fits view pc) (live : view.word.phase ≠ .idle) :
    ∃ stage, pc = .waiting stage := by
  cases pc with
  | waiting stage => exact ⟨stage, rfl⟩
  | rest | enter | publish | reset | signal => exact absurd fits.idle live
  | tryTake | reserve | subscribe | complete | dropClosed | release => exact absurd fits.1.idle live
  | check | loadClosed =>
      obtain ⟨status, -, keeps⟩ := fits
      exact absurd keeps.idle live
  | takeResource =>
      obtain ⟨selection, keeps⟩ := fits
      exact absurd keeps.idle live
  | dropTicket =>
      obtain ⟨status, keeps⟩ := fits
      exact absurd keeps.idle live
  | panicked => exact fits.elim

/-- Only a ticket that waits or is being dropped is queued. -/
theorem Fits.queued (fits : Fits view pc) (queued : view.queued) :
    (∃ stage, pc = .waiting stage) ∨ ∃ error, pc = .dropTicket error := by
  cases pc with
  | waiting stage => exact .inl ⟨stage, rfl⟩
  | dropTicket error => exact .inr ⟨error, rfl⟩
  | rest | enter | publish | reset | signal => exact absurd queued fits.queued
  | tryTake | reserve | complete | dropClosed | release => exact absurd queued fits.1.queued
  | subscribe => exact absurd queued fits.2.1
  | check | loadClosed =>
      obtain ⟨status, ended, keeps⟩ := fits
      rw [keeps.stands.of_queued queued] at ended
      exact ended.elim
  | takeResource =>
      obtain ⟨selection, keeps⟩ := fits
      cases keeps.stands.of_queued queued
  | panicked => exact fits.elim

/-- A queued ticket has no selection, and its cell is open. -/
theorem Fits.stands_queued (fits : Fits view pc) (queued : view.queued) :
    view.Is .queued ∧ Bears view.word .queued := by
  obtain ⟨stage, rfl⟩ | ⟨error, rfl⟩ := fits.queued queued
  · obtain ⟨-, -, status, stands, bears, -⟩ := fits
    cases stands.of_queued queued
    exact ⟨stands, bears⟩
  · obtain ⟨status, keeps⟩ := fits
    cases keeps.stands.of_queued queued
    exact ⟨keeps.stands, keeps.bears⟩

/-- A word that changes under a ticket without changing its status. -/
theorem Fits.word (fits : Fits view pc) (word : WaitWord) (live : view.word.phase ≠ .idle)
    (unbound : view.word.phase ≠ .binding)
    (changed : word.generation = view.word.generation ∧ word.closed = view.word.closed ∧
      word.resource = view.word.resource ∧ word.phase ≠ .idle ∧ word.phase ≠ .binding)
    (keeps : ∀ status, Suspended view.timed view.word status →
      Suspended view.timed word status) :
    Fits { view with word } pc := by
  obtain ⟨stage, rfl⟩ := fits.waiting live
  obtain ⟨reserved, stageFits, status, stands, bears, waits⟩ := fits
  obtain ⟨generation, closed, resource, live', unbound'⟩ := changed
  obtain ⟨suspended, next⟩ := waits_suspended stageFits live unbound waits
  obtain ⟨stageFits', waits'⟩ := next word status generation live' unbound' (keeps _ suspended)
  exact ⟨reserved, stageFits', status, stands.word _,
    ⟨closed.trans bears.closed, resource.trans bears.resource⟩, waits'⟩

/-- The entry of a ticket is popped, which gives the ticket another status. -/
theorem Fits.popped (fits : Fits view pc) (queued : view.queued) {word : WaitWord}
    {closed : Bool} (status : Status) (popped : status ≠ .queued)
    (gate : status = .shut → closed = true) (bears : Bears word status)
    (idle : view.word.phase = .idle → word.phase = .idle)
    (waits : ∀ stage : Parking, stage.Fits view.word →
      Waits view.timed view.word stage .queued →
      stage.Fits word ∧ Waits view.timed word stage status) :
    Fits { view with
      word, closed, queued := False
      selected := view.selected + permitsOf status.selection? } pc := by
  have stands : View.Is { view with
      word, closed, queued := False
      selected := view.selected + permitsOf status.selection? } status := by
    have before := (fits.stands_queued queued).1
    refine ⟨⟨False.elim, fun same => popped same⟩, ?_, gate, before.carried⟩
    dsimp only
    rw [before.selected]
    exact Nat.zero_add _
  obtain ⟨stage, rfl⟩ | ⟨error, rfl⟩ := fits.queued queued
  · obtain ⟨reserved, stageFits, status', stands', -, waits'⟩ := fits
    cases stands'.of_queued queued
    obtain ⟨stageFits', waits''⟩ := waits stage stageFits waits'
    exact ⟨reserved, stageFits', status, stands, bears, waits''⟩
  · obtain ⟨status', keeps⟩ := fits
    exact ⟨status, idle keeps.idle, keeps.reserved, stands, bears⟩

/-- What an offer does to the word of a queued ticket that waits. -/
theorem offered_waits {word next : WaitWord} {timed : Bool} {selection : ResourceSelection}
    (offer : Offered selection word next) (stage : Parking) (fits : stage.Fits word)
    (waits : Waits timed word stage .queued) :
    stage.Fits next ∧ Waits timed next stage (.granted selection) := by
  obtain ⟨openCell, permit, resource, ⟨idle, rfl⟩ | ⟨active, rfl⟩⟩ := offer
  · cases stage with
    | begin => exact ⟨idle, rfl⟩
    | bind =>
        have bound := fits.2
        rw [idle] at bound
        cases bound
    | parked | rollback => exact absurd idle fits.2.1
  · have live : word.phase ≠ .idle := by simp [active]
    have unbound : word.phase ≠ .binding := by simp [active]
    exact (waits_suspended fits live unbound waits).2 _ (.granted selection) rfl nofun nofun rfl

/-- A refused ticket that waits has failed. -/
theorem refused_waits {word : WaitWord} {timed : Bool} (bears : Bears word .queued)
    (unbound : word.phase ≠ .binding)
    (refuses : ∀ selection, word.resourceOffer selection = none) (stage : Parking)
    (fits : stage.Fits word) (waits : Waits timed word stage .queued) :
    Waits timed word stage .lost := by
  have openCell : word.closed = false := bears.closed
  have resource : word.resource = none := bears.resource
  cases stage with
  | begin =>
      have refuses := refuses .permit
      have permit : word.permit = false := waits
      have idle : word.phase = .idle := fits
      simp [WaitWord.resourceOffer, idle, openCell, permit, resource] at refuses
  | bind => exact absurd fits.2 unbound
  | parked | rollback => exact Suspended.refused waits openCell resource (refuses .permit)

/-- A closed ticket that waits is selected, or it has failed before. -/
theorem closed_waits {word next : WaitWord} {timed : Bool} (closes : Closes word next)
    (bears : Bears word .queued) (stage : Parking) (fits : stage.Fits word)
    (waits : Waits timed word stage .queued) :
    stage.Fits next ∧ Waits timed next stage .shut := by
  obtain ⟨unclaimed, unbound, ⟨already, -⟩ | ⟨-, ⟨active, rfl⟩ | ⟨inactive, rfl⟩⟩⟩ := closes
  · have openCell : word.closed = false := bears.closed
    rw [already] at openCell
    cases openCell
  · exact (waits_suspended fits (by simp [active]) unbound waits).2 _ .shut rfl nofun nofun
      ⟨.closed, .inr rfl, rfl⟩
  · by_cases idle : word.phase = .idle
    · cases stage with
      | begin => exact ⟨idle, trivial⟩
      | bind => exact absurd fits.2 unbound
      | parked | rollback => exact absurd idle fits.2.1
    · obtain ⟨suspended, replaced⟩ := waits_suspended fits idle unbound waits
      apply replaced ((word.withClosed true).withPermit false) .shut rfl idle unbound
      obtain ⟨active, -⟩ | ⟨cause, denies, ends | ends⟩ := suspended
      · exact absurd active inactive
      · exact absurd unclaimed (by simp [WaitWord.isClaimed, ends])
      · exact ⟨cause, .inl denies, ends⟩

theorem View.Is.gate {status : Status} (stands : view.Is status) :
    { view with closed := true }.Is status :=
  ⟨stands.queued, stands.selected, fun _ => rfl, stands.carried⟩

theorem View.Keeps.gate {status : Status} (keeps : view.Keeps status) :
    { view with closed := true }.Keeps status :=
  ⟨keeps.idle, keeps.reserved, keeps.stands.gate, keeps.bears⟩

theorem View.Away.gate {carried : Nat} (away : view.Away carried) :
    { view with closed := true }.Away carried :=
  ⟨away.idle, away.openCell, away.queued, away.reserved, away.selected, away.carried⟩

theorem View.Leaves.gate {selection : Option ResourceSelection} (leaves : view.Leaves selection) :
    { view with closed := true }.Leaves selection :=
  ⟨leaves.idle, leaves.queued, leaves.reserved, leaves.selected, leaves.carried⟩

/-- The gate is closed while the thread is not queued. -/
theorem Fits.gate (fits : Fits view pc) : Fits { view with closed := true } pc := by
  cases pc with
  | waiting stage =>
      obtain ⟨reserved, stageFits, status, stands, bears, waits⟩ := fits
      exact ⟨reserved, stageFits, status, stands.gate, bears, waits⟩
  | check | loadClosed =>
      obtain ⟨status, ended, keeps⟩ := fits
      exact ⟨status, ended, keeps.gate⟩
  | takeResource =>
      obtain ⟨selection, keeps⟩ := fits
      exact ⟨selection, keeps.gate⟩
  | dropTicket error =>
      obtain ⟨status, keeps⟩ := fits
      exact ⟨status, keeps.gate⟩
  | reserve | tryTake => exact ⟨View.Away.gate fits.1, fits.2⟩
  | subscribe => exact fits
  | complete | release => exact ⟨fits.1.gate, fits.2⟩
  | dropClosed => exact ⟨fits.1.gate, fun _ => rfl⟩
  | reset => exact View.Leaves.gate fits
  | panicked => exact fits.elim
  | rest | enter | publish | signal => exact View.Away.gate fits

/-- What a thread knows survives the steps of other threads. -/
theorem Fits.move (fits : Fits view pc) (moved : view.Move view') : Fits view' pc := by
  cases moved with
  | same => exact fits
  | selected cause active denies =>
      apply fits.word (view.word.claimed cause) (by simp [active]) (by simp [active])
        ⟨rfl, rfl, rfl, nofun, nofun⟩
      intro status suspended
      obtain ⟨rfl, _⟩ := suspended.queued_of_active active
      exact .inr ⟨cause, denies, .inl rfl⟩
  | published cause claimed =>
      apply fits.word ((view.word.withPhase (.selected cause)).withPermit false)
        (by simp [claimed]) (by simp [claimed]) ⟨rfl, rfl, rfl, nofun, nofun⟩
      intro status suspended
      obtain ⟨denies, failing⟩ := suspended.denied_of_claim claimed
      exact suspended_of_denied denies (.inr rfl) failing
  | queried claimed =>
      obtain ⟨cause, phase⟩ := WaitWord.isClaimed_iff.mp claimed
      have phase' : (view.word.withPermit true).phase = .claim cause := phase
      apply fits.word (view.word.withPermit true) (by simp [phase]) (by simp [phase])
        ⟨rfl, rfl, rfl, by simp [phase'], by simp [phase']⟩
      intro status suspended
      obtain ⟨denies, failing⟩ := suspended.denied_of_claim phase
      exact suspended_of_denied denies (.inl phase) failing
  | offered selection next queued offer =>
      have bears : Bears next (.granted selection) := by
        obtain ⟨openCell, -, -, ⟨-, rfl⟩ | ⟨-, rfl⟩⟩ := offer
        · exact ⟨openCell, rfl⟩
        · exact ⟨openCell, rfl⟩
      refine fits.popped queued (.granted selection) nofun nofun bears ?_
        (offered_waits offer)
      intro idle
      obtain ⟨-, -, -, ⟨-, rfl⟩ | ⟨active, -⟩⟩ := offer
      · exact idle
      · rw [idle] at active
        cases active
  | refused queued unbound refuses =>
      have bears := (fits.stands_queued queued).2
      refine fits.popped queued .lost nofun nofun ⟨bears.closed, bears.resource⟩ id ?_
      exact fun stage stageFits waits =>
        ⟨stageFits, refused_waits bears unbound refuses stage stageFits waits⟩
  | closed next queued closes =>
      have bears := (fits.stands_queued queued).2
      have openCell : view.word.closed = false := bears.closed
      have resource : view.word.resource = none := bears.resource
      have bears' : Bears next .shut := by
        obtain ⟨-, -, ⟨already, -⟩ | ⟨-, ⟨-, rfl⟩ | ⟨-, rfl⟩⟩⟩ := closes
        · rw [openCell] at already
          cases already
        · exact ⟨rfl, resource⟩
        · exact ⟨rfl, resource⟩
      refine fits.popped queued .shut nofun (fun _ => rfl) bears' ?_
        (closed_waits closes bears)
      intro idle
      obtain ⟨-, -, ⟨-, rfl⟩ | ⟨-, ⟨active, -⟩ | ⟨-, rfl⟩⟩⟩ := closes
      · exact idle
      · rw [idle] at active
        cases active
      · exact idle
  | gate absent =>
      exact fits.gate

/-- Active words store no permit. -/
theorem Fits.active (fits : Fits view pc) (active : view.word.phase = .active) :
    view.word.permit = false := by
  obtain ⟨stage, rfl⟩ := fits.waiting (by simp [active])
  obtain ⟨_, stageFits, status, _, _, waits⟩ := fits
  obtain ⟨suspended, _⟩ := waits_suspended stageFits (by simp [active]) (by simp [active]) waits
  exact (suspended.queued_of_active active).2

end Moves

/-! ## The steps of a waiting ticket -/

/-- Where `park_wait` continues. -/
def Pc.afterPark : ParkNext → Pc ι
  | .stay stage => .waiting stage
  | .returns (.ok _) => .check
  | .returns (.error error) => .dropTicket error
  | .panics message => .panicked message

/-- A selected generation returns success exactly for a ticket that was selected or closed. -/
theorem selected_ended {timed : Bool} {word : WaitWord} {status : Status} {cause : WakeCause}
    (suspended : Suspended timed word status) (phase : word.phase = .selected cause) :
    status.Ended ∨ ∃ error, selected cause timed = .error error := by
  have denied : Denies timed cause → ∃ error, selected cause timed = .error error := by
    rintro (rfl | ⟨rfl, timed⟩)
    · exact ⟨_, rfl⟩
    · exact ⟨_, by rw [selected, timed]; rfl⟩
  cases status with
  | queued =>
      obtain ⟨active, _⟩ | ⟨cause', denies, ends | ends⟩ := suspended
      · rw [phase] at active
        cases active
      · rw [phase] at ends
        cases ends
      · rw [phase] at ends
        cases ends
        exact .inr (denied denies)
  | granted => exact .inl trivial
  | lost =>
      obtain ⟨cause', denies, ends | ends⟩ := suspended
      · rw [phase] at ends
        cases ends
      · rw [phase] at ends
        cases ends
        exact .inr (denied denies)
  | shut => exact .inl trivial

/-- A step of `park_wait`, for the waiting ticket itself. -/
theorem park_fits {view : View} {stage : Parking} {word : WaitWord} {next : ParkNext}
    (fits : Fits view (.waiting stage : Pc ι))
    (effect : ParkEffect false view.timed view.word stage word next) :
    Fits { view with word } (Pc.afterPark next : Pc ι) := by
  obtain ⟨reserved, stageFits, status, stands, bears, waits⟩ := fits
  cases effect with
  | failed error => exact ⟨status, stageFits, reserved, stands, bears⟩
  | closed closed =>
      rw [bears.closed, decide_eq_true_eq] at closed
      cases closed
      exact ⟨.shut, trivial, stageFits, reserved, stands, bears⟩
  | stored _ permit =>
      cases status with
      | queued =>
          rw [show view.word.permit = false from waits] at permit
          cases permit
      | granted selection =>
          exact ⟨.granted selection, trivial, stageFits, reserved, stands.word _,
            bears.closed, bears.resource⟩
      | lost => exact waits.elim
      | shut =>
          exact ⟨.shut, trivial, stageFits, reserved, stands.word _, bears.closed, bears.resource⟩
  | activated fallback isOpen permit =>
      refine ⟨reserved, ⟨rfl, nofun, nofun⟩, status, stands.word _,
        ⟨bears.closed, bears.resource⟩, ?_⟩
      cases status with
      | queued => exact .inl ⟨rfl, waits⟩
      | granted => exact absurd waits permit
      | lost => exact waits.elim
      | shut => exact absurd bears.closed isOpen
  | binds isOpen permit =>
      refine ⟨reserved, ⟨rfl, rfl⟩, status, stands.word _, ⟨bears.closed, bears.resource⟩, ?_⟩
      cases status with
      | queued => exact waits
      | granted => exact absurd waits permit
      | lost => exact waits.elim
      | shut => exact absurd bears.closed isOpen
  | bound =>
      refine ⟨reserved, ⟨rfl, nofun, nofun⟩, status, stands.word _,
        ⟨bears.closed, bears.resource⟩, ?_⟩
      cases status with
      | queued => exact .inl ⟨rfl, waits⟩
      | granted => exact waits.elim
      | lost => exact waits.elim
      | shut => exact waits.elim
  | fails error => exact ⟨reserved, stageFits, status, stands, bears, waits⟩
  | finished cause phase =>
      have keeps : { view with word := view.word.retire }.Keeps status :=
        ⟨rfl, reserved, stands.word _, bears.closed, bears.resource⟩
      rw [if_neg (by simp)]
      rcases selected_ended waits phase with ended | ⟨error, failing⟩
      · cases result : selected cause view.timed with
        | ok => exact ⟨status, ended, keeps⟩
        | error error => exact ⟨status, keeps⟩
      · rw [failing]
        exact ⟨status, keeps⟩
  | deferred error claimed =>
      obtain ⟨cause, phase⟩ := WaitWord.isClaimed_iff.mp claimed
      obtain ⟨denies, failing⟩ := Suspended.denied_of_claim waits phase
      exact ⟨reserved, stageFits, status, stands.word _, ⟨bears.closed, bears.resource⟩,
        suspended_of_denied denies (.inl phase) failing⟩
  | retired =>
      exact ⟨status, rfl, reserved, stands.word _, bears.closed, bears.resource⟩

/-- A step of `park_wait` leaves a claimed word to its claimant. -/
theorem park_unclaimed {word word' : WaitWord} {timed : Bool} {stage : Parking}
    {next : ParkNext} (fits : stage.Fits word)
    (effect : ParkEffect false timed word stage word' next) :
    word.isClaimed = false ∨ word' = word.withPermit true ∨ word' = word := by
  cases effect with
  | failed | closed | stored | activated | binds => exact .inl (unclaimed_of_idle fits)
  | bound => exact .inl (WaitWord.isClaimed_eq_false (by simp [fits.2]))
  | fails => exact .inr (.inr rfl)
  | finished cause phase => exact .inl (WaitWord.isClaimed_eq_false (by simp [phase]))
  | deferred => exact .inr (.inl rfl)
  | retired _ unclaimed => exact .inl ((Bool.not_eq_true _).mp unclaimed)

end VThread.Gate
