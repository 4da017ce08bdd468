import VThread.Wait.Interference

/-!
# What a call decides on the current word

Each decision on the word that is now in the cell leads to a stage whose fact holds.
-/

namespace VThread.Wait

open VThread.Lib

variable {ι τ ρ η : Type} {thread : ι} {shared : Shared ι τ ρ η}

section Attempts

variable (shared : Shared ι τ ρ η) (op : Op τ ρ η)

/-- A decision taken on the current word. -/
def AttemptFact : Attempt τ ρ η → Prop
  | .reload => True
  | .give outcome => RestFact shared op outcome
  | .exchange next won => ExchangeFact shared op shared.cell.state next won ∧
      ∀ token ∈ op.token?, shared.cell.state.generation = token.generation
  | .lookup _ => Beginnable shared shared.cell.state ∧ op.token? = none
  | .cloneHub => Cloning shared shared.cell.state ∧
      ∀ token ∈ op.token?, shared.cell.state.generation = token.generation
  | .panic _ => False

end Attempts

/-- Outcomes that promise nothing. -/
theorem restFact_plain {op : Op τ ρ η} {outcome : Outcome η} (plain : outcome.isPlain = true) :
    RestFact shared op outcome := by
  constructor
  · intro pending
    rcases pending with pending | pending
    · rw [pending] at plain
      cases plain
    · rw [pending] at plain
      cases plain
  · intro cause resumed
    rw [resumed] at plain
    cases plain

/-- Following a decision. -/
theorem settle_fact {op : Op τ ρ η} {attempt : Attempt τ ρ η}
    (wait : ∀ token ∈ op.token?, token.wait = shared.cell.id)
    (issued : op.isOwner → ∀ token ∈ op.token?, token.generation ≤ shared.issued)
    (fact : AttemptFact shared op attempt) :
    PcFact thread shared (settle op shared.cell.state attempt) := by
  cases attempt with
  | reload =>
      exact ⟨⟨wait, issued, (fun _ _ _ none => nomatch none), (fun none => nomatch none)⟩, trivial⟩
  | give | panic => exact fact
  | exchange | cloneHub =>
      refine ⟨⟨wait, issued, ?_, fun none => nomatch none⟩, fact.1⟩
      intro token member generation works
      cases works
      exact fact.2 token member
  | lookup target =>
      obtain ⟨begins, none⟩ := fact
      exact ⟨⟨wait, issued, by simp [none], fun _ => none⟩, begins⟩

/-- A decision owes nothing. -/
theorem settle_owes (op : Op τ ρ η) (word : WaitWord) (attempt : Attempt τ ρ η) :
    (settle op word attempt).owes = none ∧ (settle op word attempt).owesCompletion = none := by
  cases attempt <;> exact ⟨rfl, rfl⟩

/-- Interest is what the permit bit of a claimed word means. -/
theorem Shared.Inv.interested (inv : shared.Inv)
    (claimed : shared.cell.state.isClaimed = true) (permit : shared.cell.state.permit = true) :
    shared.now.interest = true := by
  have equal := inv.permit_eq
  rw [permit, claimed] at equal
  exact equal.symm

/-- An active or selected word of this cell has a target that can be read. -/
theorem Shared.Inv.cloning (inv : shared.Inv) (live : shared.cell.state.phase ≠ .idle)
    (unbound : shared.cell.state.phase ≠ .binding)
    (unclaimed : shared.cell.state.isClaimed = false) : Cloning shared shared.cell.state := by
  obtain ⟨positive, target, target_eq⟩ := inv.started live
  have holds := inv.bound live unbound target target_eq
  refine ⟨?_, ?_, ?_⟩
  · cases phase : shared.cell.state.phase with
    | idle => exact (live phase).elim
    | binding => exact (unbound phase).elim
    | active => exact .inl rfl
    | claim cause =>
        rw [WaitWord.isClaimed_iff.2 ⟨cause, phase⟩] at unclaimed
        cases unclaimed
    | selected cause => exact .inr ⟨cause, rfl⟩
  · rw [inv.generation_le_issued unbound]
    exact positive
  · intro fallback
    have hub := holds.2.2
    rw [if_pos fallback] at hub
    simp [hub]

/-! ## Decisions -/

section Decisions

variable {op : Op τ ρ η}

theorem beginResident_fact (target : Target τ ρ η) (expired : Bool) (token : op.token? = none) :
    AttemptFact shared op (beginResident target expired shared.cell.state) := by
  rw [beginResident]
  split
  · exact restFact_plain rfl
  rename_i idle
  have idle : shared.cell.state.phase = .idle := Decidable.not_not.1 idle
  split
  · exact restFact_plain rfl
  rename_i unclosed
  split
  · refine ⟨⟨by simp [idle], unclaimed_of_idle idle, rfl, rfl, rfl, ?_, rfl⟩, ?_⟩
    · simp [idle]
    · simp [token]
  rename_i unpermitted
  split
  · exact restFact_plain rfl
  split
  · exact restFact_plain rfl
  · exact ⟨⟨idle, by simpa using unclosed, by simpa using unpermitted, .inr ⟨rfl, idle⟩⟩, token⟩

theorem notify_fact (token : op.token? = none) :
    AttemptFact shared op (notify shared.cell.state) := by
  rw [notify]
  split
  · trivial
  rename_i unbound
  split
  · exact restFact_plain rfl
  split
  · rename_i active
    exact ⟨⟨active, rfl, rfl, rfl, id, rfl⟩, by simp [token]⟩
  rename_i inactive
  split
  · trivial
  · rename_i unclaimed
    refine ⟨⟨unbound, by simpa using unclaimed, rfl, rfl, rfl, ?_, rfl⟩, ?_⟩
    · exact fun active => (inactive active).elim
    · simp [token]

theorem selectCurrent_fact (cause : WakeCause) (token : op.token? = none) :
    AttemptFact shared op (selectCurrent cause shared.cell.state) := by
  rw [selectCurrent]
  split
  · trivial
  split
  · exact restFact_plain rfl
  · rename_i active
    exact ⟨⟨Decidable.not_not.1 active, rfl, rfl, rfl, id, rfl⟩, by simp [token]⟩

theorem selectGeneration_fact (token : ParkToken) (cause : WakeCause)
    (same : op.token? = some token) :
    AttemptFact shared op (selectGeneration token cause shared.cell.state) := by
  rw [selectGeneration]
  split
  · trivial
  split
  · exact restFact_plain rfl
  split
  · exact restFact_plain rfl
  rename_i generation
  split
  · exact restFact_plain rfl
  · rename_i active
    refine ⟨⟨Decidable.not_not.1 active, rfl, rfl, rfl, id, rfl⟩, ?_⟩
    intro other member
    rw [same] at member
    cases member
    exact Decidable.not_not.1 generation

theorem close_fact (token : op.token? = none) :
    AttemptFact shared op (close shared.cell.state) := by
  rw [close]
  split
  · trivial
  rename_i open_
  have unbound : shared.cell.state.phase ≠ .binding := fun binding => open_ (.inl binding)
  have unclaimed : shared.cell.state.isClaimed = false := by
    rw [← Bool.not_eq_true]
    exact fun claimed => open_ (.inr claimed)
  split
  · exact restFact_plain rfl
  dsimp only
  split
  · rename_i active
    exact ⟨⟨active, rfl, rfl, rfl, fun _ => rfl, rfl⟩, by simp [token]⟩
  · rename_i inactive
    refine ⟨⟨unbound, unclaimed, rfl, rfl, rfl, ?_, rfl⟩, by simp [token]⟩
    exact fun active => (inactive active).elim

theorem claimResource_fact (selection : ResourceSelection) (token : op.token? = none) :
    AttemptFact shared op (claimResource selection shared.cell.state) := by
  rw [claimResource]
  split
  · trivial
  rename_i unbound
  split
  · exact restFact_plain rfl
  rename_i next offered
  rw [WaitWord.resourceOffer] at offered
  split at offered
  · cases offered
  cases offered
  split
  · rename_i active
    refine ⟨⟨active, ?_, ?_, ?_, ?_, rfl⟩, by simp [token]⟩
    all_goals simp [active, WaitWord.claimed, WaitWord.withPhase, WaitWord.withResource]
  · rename_i rejected inactive
    have idle : shared.cell.state.phase = .idle := by tauto
    refine ⟨⟨unbound, unclaimed_of_idle idle, ?_, ?_, ?_, ?_, rfl⟩,
      by simp [token]⟩
    · simp [idle, WaitWord.withPermit, WaitWord.withResource]
    · simp [idle, WaitWord.withPermit, WaitWord.withResource]
    · simp [idle, WaitWord.withPermit, WaitWord.withResource]
    · exact fun active => (inactive active).elim

theorem tryTakeResource_fact (token : op.token? = none) :
    AttemptFact shared op (tryTakeResource shared.cell.state) := by
  rw [tryTakeResource]
  split
  · exact restFact_plain rfl
  split
  · trivial
  rename_i next taken equal
  rw [WaitWord.resourceTake] at equal
  split at equal
  · cases equal
  rename_i free
  simp only [Option.map_eq_some_iff, Prod.mk.injEq] at equal
  obtain ⟨resource, -, rfl, rfl⟩ := equal
  refine ⟨⟨fun binding => free (.inl binding), ?_, rfl, rfl, rfl, fun _ => ⟨rfl, rfl⟩, rfl⟩,
    by simp [token]⟩
  rw [← Bool.not_eq_true]
  exact fun claimed => free (.inr claimed)

theorem finishSlow_fact (takePermit : Bool) (token : ParkToken)
    (same : op.token? = some token) :
    AttemptFact shared op (finishSlow takePermit token shared.cell.state) := by
  rw [finishSlow]
  split
  · exact restFact_plain rfl
  rename_i generation
  have generation : shared.cell.state.generation = token.generation :=
    Decidable.not_not.1 generation
  split
  · trivial
  split
  · exact restFact_plain rfl
  rename_i cause selected
  have phase : shared.cell.state.phase = .selected cause := by
    cases phase : shared.cell.state.phase <;> simp_all [WaitWord.selectedCause]
  refine ⟨⟨phase, ?_, ?_, ?_, token, same, generation.symm⟩, ?_⟩
  · split <;> rfl
  · split <;> rfl
  · split <;> rfl
  · intro other member
    rw [same] at member
    cases member
    exact generation

theorem publication_fact (inv : shared.Inv) (token : ParkToken) (same : op.token? = some token) :
    AttemptFact shared op (publication token shared.cell.state) := by
  rw [publication]
  split
  · exact restFact_plain rfl
  rename_i generation
  have generation : shared.cell.state.generation = token.generation :=
    Decidable.not_not.1 generation
  split
  · exact restFact_plain rfl
  split
  · exact restFact_plain rfl
  rename_i claimed
  have claimed : shared.cell.state.isClaimed = true := Decidable.not_not.1 claimed
  split
  · rename_i permit
    refine ⟨fun _ => ⟨token, same, ?_⟩, fun cause equal => nomatch equal⟩
    rw [← generation]
    exact inv.interested claimed permit
  · rename_i unpermitted
    refine ⟨⟨.inl rfl, claimed, by simpa using unpermitted, rfl, token, same,
      generation.symm⟩, ?_⟩
    intro other member
    rw [same] at member
    cases member
    exact generation

theorem retireWait_fact (inv : shared.Inv) (token : ParkToken) (same : op.token? = some token) :
    AttemptFact shared op (retireWait token shared.cell.state) := by
  rw [retireWait]
  split
  · exact restFact_plain rfl
  rename_i current
  split
  · trivial
  rename_i free
  have unbound : shared.cell.state.phase ≠ .binding := fun binding => free (.inr binding)
  have unclaimed : shared.cell.state.isClaimed = false := by
    rw [← Bool.not_eq_true]
    exact fun claimed => free (.inl claimed)
  refine ⟨inv.cloning (fun idle => current (.inr idle)) unbound unclaimed, ?_⟩
  intro other member
  rw [same] at member
  cases member
  exact Decidable.not_not.1 fun other => current (.inl other)

theorem tryRetire_fact (inv : shared.Inv) (token : ParkToken) (same : op.token? = some token)
    (issued : token.generation ≤ shared.issued) :
    AttemptFact shared op (tryRetire token shared.cell.state) := by
  rw [tryRetire]
  split
  · exact restFact_plain rfl
  rename_i current
  have generation : shared.cell.state.generation = token.generation :=
    Decidable.not_not.1 fun other => current (.inl other)
  split
  · -- The token of an owner was returned after the binding of its generation.
    rename_i binding
    have bound := inv.issued_eq
    rw [if_pos binding] at bound
    change False
    omega
  rename_i unbound
  split
  · rename_i claimed
    split
    · rename_i permit
      refine ⟨fun _ => ⟨token, same, ?_⟩, fun cause equal => nomatch equal⟩
      rw [← generation]
      exact inv.interested claimed permit
    · rename_i unpermitted
      refine ⟨⟨.inr rfl, claimed, by simpa using unpermitted, rfl, token, same,
        generation.symm⟩, ?_⟩
      intro other member
      rw [same] at member
      cases member
      exact generation
  · rename_i unclaimed
    refine ⟨inv.cloning (fun idle => current (.inr idle)) unbound (by simpa using unclaimed), ?_⟩
    intro other member
    rw [same] at member
    cases member
    exact generation

theorem recycle_fact (token : op.token? = none) :
    AttemptFact shared op (recycle shared.cell.state) := by
  rw [recycle]
  split
  · exact restFact_plain rfl
  rename_i clean
  have idle : shared.cell.state.phase = .idle :=
    Decidable.not_not.1 fun live => clean (.inl live)
  split
  · exact restFact_plain rfl
  · refine ⟨⟨by simp [idle], unclaimed_of_idle idle, rfl, rfl, rfl, ?_, rfl⟩, ?_⟩
    · simp [idle]
    · simp [token]

theorem resetClosedGate_fact (token : op.token? = none) :
    AttemptFact shared op (resetClosedGate shared.cell.state) := by
  rw [resetClosedGate]
  split
  · exact restFact_plain rfl
  rename_i idle
  have idle : shared.cell.state.phase = .idle := Decidable.not_not.1 idle
  split
  · exact restFact_plain rfl
  · refine ⟨⟨by simp [idle], unclaimed_of_idle idle, rfl, rfl, rfl, ?_, rfl⟩, ?_⟩
    · simp [idle]
    · simp [token]

/-- The decision of every call. -/
theorem attempt_fact (inv : shared.Inv) (op : Op τ ρ η) (expired : Bool)
    (issued : op.isOwner → ∀ token ∈ op.token?, token.generation ≤ shared.issued) :
    AttemptFact shared op (op.attempt expired shared.cell.state) := by
  cases op with
  | begin target => exact beginResident_fact target expired rfl
  | notify => exact notify_fact rfl
  | cancel => exact selectCurrent_fact .cancelled rfl
  | close => exact close_fact rfl
  | select token cause => exact selectGeneration_fact token cause rfl
  | offer selection => exact claimResource_fact selection rfl
  | take => exact tryTakeResource_fact rfl
  | finish token => exact finishSlow_fact false token rfl
  | finishPlainReady token => exact finishSlow_fact false token rfl
  | finishPermitReady token => exact finishSlow_fact true token rfl
  | publication token => exact publication_fact inv token rfl
  | retire token => exact retireWait_fact inv token rfl
  | tryRetire token => exact tryRetire_fact inv token rfl (issued rfl token rfl)
  | recycle => exact recycle_fact rfl
  | resetClosedGate => exact resetClosedGate_fact rfl

end Decisions

end VThread.Wait
