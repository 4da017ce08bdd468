import VThread.Mutex.Invariant

/-!
# What other threads can do to a view

A thread's view changes under it only when its cell is selected, published or queried, or
when its queue entry is popped.  None of this invalidates what the thread knows.
-/

namespace VThread.Mutex

open VThread.Lib VThread.Wait

variable {ι : Type}

/-- Changes of a view by the step of another thread. -/
inductive View.Move (view : View) : View → Prop where
  | same : Move view view
  | selected (cause : WakeCause) : view.word.phase = .active → Denies view.timed cause →
      Move view { view with word := view.word.claimed cause }
  | published (cause : WakeCause) : view.word.phase = .claim cause →
      Move view
        { view with word := (view.word.withPhase (.selected cause)).withPermit false }
  | queried : view.word.isClaimed →
      Move view { view with word := view.word.withPermit true }
  | offered (next : WaitWord) : view.Is .queued → view.word.phase ≠ .binding →
      view.word.resourceOffer .permit = some next →
      Move view { view with
        word := next, queued := False, standing := .granted, fate := some .granted }
  | rejected : view.Is .queued → view.word.phase ≠ .binding →
      view.word.resourceOffer .permit = none →
      Move view { view with queued := False, fate := some .abandoned }

/-! ## The word of a waiting ticket -/

section Words

variable {word next : WaitWord} {timed : Bool} {stage : Parking} {status : Status}
  {cause : WakeCause}

/-- A live word belongs to a suspended ticket, and any other live word of its generation
may take its place. -/
theorem waits_suspended (fits : stage.Fits word) (live : word.phase ≠ .idle)
    (unbound : word.phase ≠ .binding) (waits : Waits timed word stage status) :
    Suspended timed word status ∧
      ∀ next status', next.generation = word.generation → next.phase ≠ .idle →
        next.phase ≠ .binding → Suspended timed next status' →
        stage.Fits next ∧ Waits timed next stage status' := by
  cases stage with
  | begin => exact absurd fits live
  | bind => exact absurd fits.2 unbound
  | parked =>
      exact ⟨waits, fun next status' same live' unbound' suspended =>
        ⟨⟨same.trans fits.1, live', unbound'⟩, suspended⟩⟩
  | rollback =>
      exact ⟨waits, fun next status' same live' unbound' suspended =>
        ⟨⟨same.trans fits.1, live', unbound'⟩, suspended⟩⟩

/-- Only a queued ticket has an active word. -/
theorem Suspended.queued_of_active (suspended : Suspended timed word status)
    (active : word.phase = .active) :
    status = .queued ∧ word.resource = none ∧ word.permit = false := by
  cases status with
  | queued =>
      obtain ⟨resource, ⟨_, permit⟩ | ⟨cause, _, ends⟩⟩ := suspended
      · exact ⟨rfl, resource, permit⟩
      · simp [Ends, active] at ends
  | granted | lost => simp [Suspended, Ends, active] at suspended

theorem Ends.published {cause' : WakeCause} (ends : Ends word cause')
    (claimed : word.phase = .claim cause) :
    Ends ((word.withPhase (.selected cause)).withPermit false) cause' := by
  rcases ends with ends | ends
  · rw [claimed] at ends
    cases ends
    exact .inr rfl
  · rw [claimed] at ends
    cases ends

/-- A publication keeps the status of a ticket. -/
theorem Suspended.published (suspended : Suspended timed word status)
    (claimed : word.phase = .claim cause) :
    Suspended timed ((word.withPhase (.selected cause)).withPermit false) status := by
  cases status with
  | queued =>
      obtain ⟨resource, ⟨active, _⟩ | ⟨cause', denies, ends⟩⟩ := suspended
      · rw [claimed] at active
        cases active
      · exact ⟨resource, .inr ⟨cause', denies, ends.published claimed⟩⟩
  | granted => exact ⟨suspended.1, suspended.2.published claimed⟩
  | lost =>
      obtain ⟨resource, cause', denies, ends⟩ := suspended
      exact ⟨resource, cause', denies, ends.published claimed⟩

/-- The interest of the owner keeps the status of a ticket. -/
theorem Suspended.queried (suspended : Suspended timed word status)
    (claimed : word.isClaimed) : Suspended timed (word.withPermit true) status := by
  obtain ⟨cause, claimed⟩ := WaitWord.isClaimed_iff.mp claimed
  cases status with
  | queued =>
      obtain ⟨resource, ⟨active, _⟩ | ends⟩ := suspended
      · rw [claimed] at active
        cases active
      · exact ⟨resource, .inr ends⟩
  | granted => exact suspended
  | lost => exact suspended

/-- An accepted offer grants the ownership to a queued ticket. -/
theorem Suspended.offered (suspended : Suspended timed word .queued)
    (offer : word.resourceOffer .permit = some next) :
    next.generation = word.generation ∧ next.phase = .claim .ready ∧
      Suspended timed next .granted := by
  obtain ⟨resource, ⟨active, permit⟩ | ⟨cause, _, ends⟩⟩ := suspended
  · simp only [WaitWord.resourceOffer, active, permit, resource] at offer
    split at offer
    · cases offer
    · cases offer
      exact ⟨rfl, rfl, rfl, .inl rfl⟩
  · rcases ends with ends | ends <;> simp [WaitWord.resourceOffer, ends] at offer

/-- A rejected offer finds a ticket that has already failed. -/
theorem Suspended.rejected (suspended : Suspended timed word .queued)
    (openCell : word.closed = false) (offer : word.resourceOffer .permit = none) :
    Suspended timed word .lost := by
  obtain ⟨resource, ⟨active, permit⟩ | ends⟩ := suspended
  · simp [WaitWord.resourceOffer, active, permit, resource, openCell] at offer
  · exact ⟨resource, ends⟩

/-- What an accepted offer does to an idle word. -/
theorem offered_idle (idle : word.phase = .idle)
    (offer : word.resourceOffer .permit = some next) :
    next = (word.withResource (some .permit)).withPermit true := by
  simp only [WaitWord.resourceOffer, idle] at offer
  split at offer
  · cases offer
  · cases offer
    rfl

end Words

/-! ## Moves -/

section Moves

variable {view view' : View} {pc : Pc ι}

/-- A live word belongs to a ticket that waits. -/
theorem Fits.waiting (fits : Fits view pc) (live : view.word.phase ≠ .idle) :
    ∃ stage, pc = .waiting stage := by
  cases pc with
  | waiting stage => exact ⟨stage, rfl⟩
  | rest | enter | publish | acquired | tryRelease | reclaim => exact absurd fits.1 live
  | reserve | subscribe | claim | release => exact absurd fits.1.1 live
  | resumed | takeHandoff | complete | dropTicket | retire | takeResource | takeSelected =>
      exact absurd fits.2.1 live
  | panicked => exact fits.elim

/-- Only a ticket that waits or is being dropped is queued. -/
theorem Fits.queued (fits : Fits view pc) (queued : view.queued) :
    (∃ stage, pc = .waiting stage) ∨
      ∃ error, pc = .dropTicket false error ∧ Keeps view .queued := by
  cases pc with
  | waiting stage => exact .inl ⟨stage, rfl⟩
  | rest | enter | publish | subscribe | acquired | tryRelease | reclaim =>
      exact absurd queued fits.2.1
  | reserve | claim | release => exact absurd queued fits.1.2.1
  | resumed | takeHandoff | complete | takeSelected => exact absurd queued fits.2.2.1
  | dropTicket selected error =>
      obtain ⟨_, _, kept⟩ := fits
      cases selected with
      | true => exact absurd queued kept.1
      | false =>
          rcases kept with kept | kept | kept
          · exact .inr ⟨error, rfl, kept⟩
          · exact absurd queued kept.1.1
          · exact absurd queued kept.1.1
  | retire queued' selected error =>
      obtain ⟨_, _, kept⟩ := fits
      cases queued' with
      | true => exact absurd queued kept.1
      | false =>
          cases selected with
          | true => exact absurd queued kept.1
          | false =>
              rcases kept with kept | kept
              · exact absurd queued kept.1.1
              · exact absurd queued kept.1.1
  | takeResource =>
      rcases fits.2.2 with kept | kept
      · exact absurd queued kept.1.1
      · exact absurd queued kept.1.1
  | panicked => exact fits.elim

/-- A word that changes under a ticket without changing its status. -/
theorem Fits.word (fits : Fits view pc) (word : WaitWord) (live : view.word.phase ≠ .idle)
    (unbound : view.word.phase ≠ .binding)
    (changed : word.generation = view.word.generation ∧ word.closed = view.word.closed ∧
      word.phase ≠ .idle ∧ word.phase ≠ .binding)
    (keeps : ∀ status, Suspended view.timed view.word status →
      Suspended view.timed word status) :
    Fits { view with word } pc := by
  obtain ⟨stage, rfl⟩ := fits.waiting live
  obtain ⟨reserved, openCell, stageFits, status, stands, waits⟩ := fits
  obtain ⟨generation, closed, live', unbound'⟩ := changed
  obtain ⟨suspended, next⟩ := waits_suspended stageFits live unbound waits
  obtain ⟨stageFits', waits'⟩ := next word status generation live' unbound' (keeps _ suspended)
  refine ⟨reserved, closed.trans openCell, stageFits', status, ?_, waits'⟩
  cases status <;> exact stands

/-- What a thread knows survives the steps of other threads. -/
theorem Fits.move (fits : Fits view pc) (moved : view.Move view') : Fits view' pc := by
  cases moved with
  | same => exact fits
  | selected cause active denies =>
      apply fits.word (view.word.claimed cause) (by simp [active]) (by simp [active])
        ⟨rfl, rfl, nofun, nofun⟩
      intro status suspended
      obtain ⟨rfl, resource, _⟩ := suspended.queued_of_active active
      exact ⟨resource, .inr ⟨cause, denies, .inl rfl⟩⟩
  | published cause claimed =>
      apply fits.word ((view.word.withPhase (.selected cause)).withPermit false)
        (by simp [claimed]) (by simp [claimed]) ⟨rfl, rfl, nofun, nofun⟩
      exact fun status suspended => suspended.published claimed
  | queried claimed =>
      obtain ⟨cause, phase⟩ := WaitWord.isClaimed_iff.mp claimed
      apply fits.word (view.word.withPermit true) (by simp [phase]) (by simp [phase])
        ⟨rfl, rfl, by simp [WaitWord.withPermit, phase], by simp [WaitWord.withPermit, phase]⟩
      exact fun status suspended => suspended.queried claimed
  | offered next isQueued unbound offer =>
      have closed : next.closed = view.word.closed := by
        simp only [WaitWord.resourceOffer] at offer
        split at offer
        · cases offer
        · cases offer
          split <;> rfl
      obtain ⟨stage, rfl⟩ | ⟨error, rfl, _, resource⟩ := fits.queued isQueued.1
      · obtain ⟨reserved, openCell, stageFits, status, stands, waits⟩ := fits
        have granted : status = .queued := by
          cases status with
          | queued => rfl
          | granted => exact absurd isQueued.1 stands.1
          | lost => exact absurd isQueued.1 stands.1
        subst granted
        refine ⟨reserved, closed.trans openCell, ?_⟩
        by_cases live : view.word.phase = .idle
        · have next_eq := offered_idle live offer
          subst next_eq
          cases stage with
          | begin => exact ⟨live, .granted, ⟨id, rfl, rfl⟩, rfl, rfl⟩
          | bind => exact absurd stageFits.2 unbound
          | parked => exact absurd live stageFits.2.1
          | rollback => exact absurd live stageFits.2.1
        · obtain ⟨suspended, continues⟩ := waits_suspended stageFits live unbound waits
          obtain ⟨generation, claimed, suspended'⟩ := suspended.offered offer
          obtain ⟨stageFits', waits'⟩ := continues next .granted generation
            (by simp [claimed]) (by simp [claimed]) suspended'
          exact ⟨stageFits', .granted, ⟨id, rfl, rfl⟩, waits'⟩
      · obtain ⟨reserved, idle, _⟩ := fits
        have next_eq := offered_idle idle offer
        subst next_eq
        exact ⟨reserved, idle, .inr (.inl ⟨⟨id, rfl, rfl⟩, rfl⟩)⟩
  | rejected isQueued unbound offer =>
      obtain ⟨stage, rfl⟩ | ⟨error, rfl, _, resource⟩ := fits.queued isQueued.1
      · obtain ⟨reserved, openCell, stageFits, status, stands, waits⟩ := fits
        have granted : status = .queued := by
          cases status with
          | queued => rfl
          | granted => exact absurd isQueued.1 stands.1
          | lost => exact absurd isQueued.1 stands.1
        subst granted
        refine ⟨reserved, openCell, ?_⟩
        by_cases live : view.word.phase = .idle
        · cases stage with
          | begin =>
              obtain ⟨permit, resource⟩ := waits
              simp [WaitWord.resourceOffer, live, openCell, permit, resource] at offer
          | bind => exact absurd stageFits.2 unbound
          | parked => exact absurd live stageFits.2.1
          | rollback => exact absurd live stageFits.2.1
        · obtain ⟨suspended, continues⟩ := waits_suspended stageFits live unbound waits
          obtain ⟨stageFits', waits'⟩ := continues view.word .lost rfl live unbound
            (suspended.rejected openCell offer)
          exact ⟨stageFits', .lost, ⟨id, isQueued.2.1, rfl⟩, waits'⟩
      · obtain ⟨reserved, idle, _⟩ := fits
        exact ⟨reserved, idle, .inr (.inr ⟨⟨id, isQueued.2.1, rfl⟩, resource⟩)⟩

/-- Active words store no permit. -/
theorem Fits.active (fits : Fits view pc) (active : view.word.phase = .active) :
    view.word.permit = false := by
  obtain ⟨stage, rfl⟩ := fits.waiting (by simp [active])
  obtain ⟨_, _, stageFits, status, _, waits⟩ := fits
  obtain ⟨suspended, _⟩ := waits_suspended stageFits (by simp [active]) (by simp [active]) waits
  exact (suspended.queued_of_active active).2.2

end Moves

/-! ## The steps of a waiting ticket -/

/-- A status does not depend on the word. -/
theorem View.Is.word {view : View} {status : Status} (stands : view.Is status)
    (word : WaitWord) : { view with word }.Is status := by
  cases status <;> exact stands

/-- What a ticket knows when `park_wait` returns. -/
def Returned (view : View) : Except Error ParkOutcome → Prop
  | .ok _ => view.Is .granted
  | .error _ => Keeps view .queued ∨ Keeps view .granted ∨ Keeps view .lost

/-- A selected generation returns success exactly for the ticket it was granted to. -/
theorem returned_of_selected {view : View} {status : Status} {cause : WakeCause}
    (stands : view.Is status) (suspended : Suspended view.timed view.word status)
    (phase : view.word.phase = .selected cause) :
    Returned { view with word := if true = true ∧ cause = .ready then
      (view.word.withResource none).retire else view.word.retire }
      (selected cause view.timed) := by
  have denied : ∀ cause', Denies view.timed cause' → Ends view.word cause' →
      ∃ error, selected cause view.timed = .error error ∧ cause ≠ .ready := by
    rintro cause' denies (ends | ends)
    · rw [phase] at ends
      cases ends
    · rw [phase] at ends
      cases ends
      rcases denies with rfl | ⟨rfl, timed⟩
      · exact ⟨_, rfl, nofun⟩
      · exact ⟨_, by rw [selected, timed]; rfl, nofun⟩
  cases status with
  | queued =>
      obtain ⟨resource, ⟨active, _⟩ | ⟨cause', denies, ends⟩⟩ := suspended
      · rw [phase] at active
        cases active
      · obtain ⟨error, result, unready⟩ := denied cause' denies ends
        rw [result, if_neg (by simp [unready])]
        exact .inl ⟨stands.word _, resource⟩
  | granted =>
      obtain ⟨resource, ends | ends⟩ := suspended
      · rw [phase] at ends
        cases ends
      · rw [phase] at ends
        cases ends
        exact stands.word _
  | lost =>
      obtain ⟨resource, cause', denies, ends⟩ := suspended
      obtain ⟨error, result, unready⟩ := denied cause' denies ends
      rw [result, if_neg (by simp [unready])]
      exact .inr (.inr ⟨stands.word _, resource⟩)

/-- Where `park_wait` continues. -/
def Pc.afterPark : ParkNext → Pc ι
  | .stay stage => .waiting stage
  | .returns (.ok _) => .resumed
  | .returns (.error error) => .dropTicket false error
  | .panics message => .panicked message

/-- A step of `park_wait`, for the waiting ticket itself. -/
theorem park_fits {view : View} {stage : Parking} {word : WaitWord} {next : ParkNext}
    (fits : Fits view (.waiting stage : Pc ι))
    (effect : ParkEffect true view.timed view.word stage word next) :
    Fits { view with word } (Pc.afterPark next : Pc ι) := by
  obtain ⟨reserved, openCell, stageFits, status, stands, waits⟩ := fits
  cases effect with
  | failed error =>
      refine ⟨reserved, stageFits, ?_⟩
      cases status with
      | queued => exact .inl ⟨stands, waits.2⟩
      | granted => exact .inr (.inl ⟨stands, waits.2⟩)
      | lost => exact waits.elim
  | closed closed =>
      rw [openCell] at closed
      cases closed
  | stored _ permit =>
      refine ⟨reserved, stageFits, ?_⟩
      cases status with
      | queued =>
          rw [waits.1] at permit
          cases permit
      | granted => exact stands.word _
      | lost => exact waits.elim
  | activated fallback _ permit =>
      refine ⟨reserved, openCell, ⟨rfl, nofun, nofun⟩, status, stands.word _, ?_⟩
      cases status with
      | queued => exact ⟨waits.2, .inl ⟨rfl, waits.1⟩⟩
      | granted => exact absurd waits.1 permit
      | lost => exact waits.elim
  | binds _ permit =>
      refine ⟨reserved, openCell, ⟨rfl, rfl⟩, status, stands.word _, ?_⟩
      cases status with
      | queued => exact waits
      | granted => exact absurd waits.1 permit
      | lost => exact waits.elim
  | bound =>
      refine ⟨reserved, openCell, ⟨rfl, nofun, nofun⟩, status, stands.word _, ?_⟩
      cases status with
      | queued => exact ⟨waits.2, .inl ⟨rfl, waits.1⟩⟩
      | granted => exact waits.elim
      | lost => exact waits.elim
  | fails error => exact ⟨reserved, openCell, stageFits, status, stands, waits⟩
  | finished cause phase =>
      have returned := returned_of_selected stands waits phase
      have idle : (if true = true ∧ cause = .ready then
          (view.word.withResource none).retire else view.word.retire).phase = .idle := by
        split <;> rfl
      cases result : selected cause view.timed with
      | ok =>
          rw [result] at returned
          exact ⟨reserved, idle, returned⟩
      | error error =>
          rw [result] at returned
          exact ⟨reserved, idle, returned⟩
  | deferred error claimed =>
      refine ⟨reserved, openCell, stageFits, status, stands.word _, ?_⟩
      exact Suspended.queried waits claimed
  | retired =>
      refine ⟨reserved, rfl, ?_⟩
      cases status with
      | queued => exact .inl ⟨stands.word _, waits.1⟩
      | granted => exact .inr (.inl ⟨stands.word _, waits.1⟩)
      | lost => exact .inr (.inr ⟨stands.word _, waits.1⟩)

/-- A step of `park_wait` leaves a claimed word to its claimant. -/
theorem park_unclaimed {word word' : WaitWord} {timed : Bool} {stage : Parking}
    {next : ParkNext} (fits : stage.Fits word)
    (effect : ParkEffect true timed word stage word' next) :
    word.isClaimed = false ∨ word' = word.withPermit true ∨ word' = word := by
  cases effect with
  | failed | closed | stored | activated | binds => exact .inl (unclaimed_of_idle fits)
  | bound => exact .inl (WaitWord.isClaimed_eq_false (by simp [fits.2]))
  | fails => exact .inr (.inr rfl)
  | finished cause phase => exact .inl (WaitWord.isClaimed_eq_false (by simp [phase]))
  | deferred => exact .inr (.inl rfl)
  | retired _ unclaimed => exact .inl ((Bool.not_eq_true _).mp unclaimed)

end VThread.Mutex
