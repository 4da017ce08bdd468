import VThread.Checkpoint.Invariant

/-!
# Checkpoints agree with the tokens

A cached epoch that equals the one of the domain means that no cancellation above the token
has advanced it, as long as the 64-bit epoch has not come around.
-/

namespace VThread.Checkpoint

open VThread.Lib VThread.Lib.Program VThread.Cancellation

variable {ι : Type}

/-- The epoch has not come around to an earlier value. -/
def Shared.Unwrapped (shared : Shared ι) : Prop := shared.advanced.length + 1 < 2 ^ 64

/-! ## Verdicts -/

namespace Verdict

/-- An unmasked checkpoint that starts after a cancellation above its token has returned
reports it. -/
def Complete (verdict : Verdict) (reference : Reference) : Prop :=
  verdict.before.masked = 0 → verdict.before.closing = false →
    (∃ root ∈ verdict.returned, reference.Descends root verdict.before.cancellation) →
      verdict.decision = .cancelled

/-- A reported cancellation has started above the token, and a masked checkpoint neither
reports nor consumes one. -/
structure Sound (verdict : Verdict) (reference : Reference) : Prop where
  caused : verdict.decision = .cancelled →
    ∃ root ∈ verdict.started, reference.Descends root verdict.before.cancellation
  masked : verdict.before.masked ≠ 0 →
    verdict.after = verdict.before ∧ verdict.decision ≠ .cancelled

/-- Once one checkpoint of a task has reported a cancellation, so do the later ones. -/
def Persists (later earlier : Verdict) : Prop :=
  later.task = earlier.task → earlier.decision = .cancelled → later.before.masked = 0 →
    later.before.closing = false → later.decision = .cancelled

end Verdict

/-! ## The invariant of a thread -/

/-- What a policy has cached is no news from the future. -/
structure Policy.Valid (policy : Policy) (shared : Shared ι) : Prop where
  flagged : policy.cancelled = true → shared.domain.flags policy.cancellation = true
  observed : policy.observedEpoch.toNat ≤ 1 + shared.advanced.length

/-- No cancellation above the token has advanced the epoch that the policy has observed. -/
def Policy.Fresh (policy : Policy) (shared : Shared ι) : Prop :=
  policy.cancelled = false → shared.Unwrapped →
    policy.observedEpoch = shared.domain.epoch →
      ∀ root ∈ shared.advanced, ¬ shared.reference.Descends root policy.cancellation

/-- Whether a checkpoint has observed an epoch and not looked at the token yet. -/
def Pc.probes : Pc → Bool
  | .probing _ _ => true
  | _ => false

/-- What a thread knows in the middle of a call. -/
def Pc.Valid (thread : ι) (shared : Shared ι) (policy : Option Policy) : Pc → Prop
  | .cancelling root .lock => root ∈ shared.started
  | .cancelling root .mark =>
      root ∈ shared.marked ∧ ∃ nodes, shared.lock = some (thread, nodes)
  | .cancelling root .unlock => root ∈ shared.advanced ∧ shared.lock = some (thread, [])
  | .cancelling root .select => root ∈ shared.advanced
  | .probing before returned =>
      (∃ epoch, policy = some { before with observedEpoch := epoch }) ∧
        before.closing = false ∧ before.masked = 0 ∧ before.cancelled = false ∧
        ∀ root ∈ returned, root ∈ shared.returned
  | _ => True

/-- What holds of a finished checkpoint. -/
structure Verdict.Valid (verdict : Verdict) (shared : Shared ι) (mine : Local) : Prop where
  born : verdict.before.cancellation < shared.reference.count
  sound : verdict.Sound shared.reference
  complete : shared.Unwrapped → verdict.Complete shared.reference
  task : verdict.task ≤ mine.task
  kept : verdict.task = mine.task → verdict.decision = .cancelled →
    ∃ policy, mine.policy = some policy ∧ policy.cancelled = true

/-- The invariant of a thread. -/
structure Local.Valid (thread : ι) (shared : Shared ι) (mine : Local) : Prop where
  stage : mine.pc.Valid thread shared mine.policy
  policy : ∀ policy, mine.policy = some policy → policy.Valid shared
  fresh : mine.pc.probes = false → ∀ policy, mine.policy = some policy → policy.Fresh shared
  verdicts : ∀ verdict ∈ mine.log, verdict.Valid shared mine
  ordered : mine.log.Pairwise Verdict.Persists

/-! ## What the steps of others leave -/

section Frame

variable {before after : Shared ι} {thread : ι} {mine : Local}

theorem Policy.Valid.mono {policy : Policy} (valid : policy.Valid before)
    (evolves : Evolves before after) (born : policy.cancellation < before.reference.count) :
    policy.Valid after where
  flagged cancelled := evolves.flags _ born (valid.flagged cancelled)
  observed := by
    have grown := evolves.length_le
    have observed := valid.observed
    omega

theorem Shared.Valid.epoch_toNat (valid : before.Valid) (unwrapped : before.Unwrapped) :
    before.domain.epoch.toNat = 1 + before.advanced.length := by
  rw [valid.epoch, BitVec.toNat_ofNat]
  exact Nat.mod_eq_of_lt (by rw [Nat.add_comm]; exact unwrapped)

/-- A policy stays fresh: an epoch that advances is one that no policy has observed. -/
theorem Policy.Fresh.mono {policy : Policy} (fresh : policy.Fresh before)
    (isValid : policy.Valid before) (valid : after.Valid) (evolves : Evolves before after)
    (born : policy.cancellation < before.reference.count) : policy.Fresh after := by
  intro uncancelled unwrapped same root member path
  rw [evolves.descends _ _ born] at path
  rcases evolves.advanced with ⟨advancedEq, epochEq⟩ | ⟨next, advancedEq⟩
  · rw [advancedEq] at member
    refine fresh uncancelled ?_ (same.trans epochEq) root member path
    rwa [Shared.Unwrapped, ← advancedEq]
  · have epoch := valid.epoch_toNat unwrapped
    rw [← same, advancedEq, List.length_cons] at epoch
    have observed := isValid.observed
    omega

theorem Verdict.Sound.mono {verdict : Verdict} (sound : verdict.Sound before.reference)
    (evolves : Evolves before after)
    (born : verdict.before.cancellation < before.reference.count) :
    verdict.Sound after.reference where
  caused cancelled := by
    obtain ⟨root, member, path⟩ := sound.caused cancelled
    exact ⟨root, member, (evolves.descends _ _ born).2 path⟩
  masked := sound.masked

theorem Verdict.Valid.mono {verdict : Verdict} (valid : verdict.Valid before mine)
    (evolves : Evolves before after) : verdict.Valid after mine where
  born := valid.born.trans_le evolves.born
  sound := valid.sound.mono evolves valid.born
  complete unwrapped := by
    rintro unmasked open_ ⟨root, member, path⟩
    refine valid.complete ?_ unmasked open_ ⟨root, member,
      (evolves.descends _ _ valid.born).1 path⟩
    have grown := evolves.length_le
    rw [Shared.Unwrapped] at unwrapped ⊢
    omega
  task := valid.task
  kept := valid.kept

theorem Pc.Valid.mono {policy : Option Policy} {pc : Pc}
    (valid : pc.Valid thread before policy) (evolves : Evolves before after)
    (lock : ∀ nodes, before.lock = some (thread, nodes) →
      after.lock = some (thread, nodes)) : pc.Valid thread after policy := by
  cases pc with
  | rest => trivial
  | panicked => trivial
  | probing =>
      obtain ⟨observed, isOpen, unmasked, uncancelled, known⟩ := valid
      exact ⟨observed, isOpen, unmasked, uncancelled,
        fun root member => evolves.returned root (known root member)⟩
  | cancelling root stage =>
      cases stage with
      | lock => exact evolves.started root valid
      | mark =>
          obtain ⟨marked, nodes, held⟩ := valid
          exact ⟨evolves.marked root marked, nodes, lock nodes held⟩
      | unlock => exact ⟨evolves.advanced_subset root valid.1, lock [] valid.2⟩
      | select => exact evolves.advanced_subset root valid

/-- A thread's invariant survives what it may rely on. -/
theorem Local.Valid.mono (valid : mine.Valid thread before) (isValid : after.Valid)
    (evolves : Evolves before after)
    (lock : ∀ nodes, before.lock = some (thread, nodes) → after.lock = some (thread, nodes))
    (born : ∀ policy, mine.policy = some policy →
      policy.cancellation < before.reference.count) : mine.Valid thread after where
  stage := valid.stage.mono evolves lock
  policy policy known := (valid.policy policy known).mono evolves (born policy known)
  fresh resting policy known := (valid.fresh resting policy known).mono
    (valid.policy policy known) isValid evolves (born policy known)
  verdicts verdict member := (valid.verdicts verdict member).mono evolves
  ordered := valid.ordered

end Frame

/-! ## What a thread's own steps establish -/

section Own

variable {shared : Shared ι} {thread : ι} {mine : Local}

/-- Any other stage of a call keeps the rest of the invariant. -/
theorem Local.Valid.setPc (valid : mine.Valid thread shared) (resting : mine.pc.probes = false)
    {pc : Pc} (stage : pc.Valid thread shared mine.policy) :
    { mine with pc }.Valid thread shared where
  stage := stage
  policy := valid.policy
  fresh _ := valid.fresh resting
  verdicts verdict member :=
    have isValid := valid.verdicts verdict member
    ⟨isValid.born, isValid.sound, isValid.complete, isValid.task, isValid.kept⟩
  ordered := valid.ordered

/-- A change of the policy that keeps its token, its epoch and what it has found. -/
theorem Local.Valid.setPolicy (valid : mine.Valid thread shared) (rests : mine.pc = .rest)
    {policy changed : Policy} (known : mine.policy = some policy)
    (token : changed.cancellation = policy.cancellation)
    (epoch : changed.observedEpoch = policy.observedEpoch)
    (cancelled : changed.cancelled = policy.cancelled) :
    { mine with policy := some changed }.Valid thread shared where
  stage := by
    dsimp only
    rw [rests]
    trivial
  policy other equal := by
    cases equal
    have isValid := valid.policy policy known
    exact ⟨by rw [cancelled, token]; exact isValid.flagged,
      by rw [epoch]; exact isValid.observed⟩
  fresh resting other equal := by
    cases equal
    have fresh := valid.fresh (by rw [rests]; rfl) policy known
    intro uncancelled unwrapped same
    rw [token]
    exact fresh (cancelled.symm.trans uncancelled) unwrapped (epoch.symm.trans same)
  verdicts verdict member := by
    have isValid := valid.verdicts verdict member
    refine ⟨isValid.born, isValid.sound, isValid.complete, isValid.task,
      fun same reported => ⟨changed, rfl, ?_⟩⟩
    obtain ⟨old, found, bit⟩ := isValid.kept same reported
    rw [known] at found
    cases found
    rw [cancelled, bit]
  ordered := valid.ordered

/-- A context that is reused for the next task has observed no epoch. -/
theorem Local.Valid.reuse (valid : mine.Valid thread shared) (isValid : shared.Valid)
    (rests : mine.pc = .rest) {policy : Policy} (epoch : policy.observedEpoch = 0#64)
    (uncancelled : policy.cancelled = false) :
    { mine with policy := some policy, task := mine.task + 1 }.Valid thread shared where
  stage := by
    dsimp only
    rw [rests]
    trivial
  policy other equal := by
    cases equal
    refine ⟨fun cancelled => ?_, ?_⟩
    · rw [uncancelled] at cancelled
      cases cancelled
    · rw [epoch]
      exact Nat.zero_le _
  fresh _ other equal := by
    cases equal
    intro _ unwrapped same
    have advanced := isValid.epoch_toNat unwrapped
    rw [← same, epoch, BitVec.toNat_zero] at advanced
    omega
  verdicts verdict member := by
    have old := valid.verdicts verdict member
    have earlier := old.task
    refine ⟨old.born, old.sound, old.complete, earlier.trans (Nat.le_succ _),
      fun same => ?_⟩
    dsimp only at same
    omega
  ordered := valid.ordered

/-- A checkpoint that ends with a sound verdict about a valid policy. -/
theorem Local.Valid.decide (valid : mine.Valid thread shared) {before after : Policy}
    {returned : List Nat} {decision : Decision} (known : ∃ old, mine.policy = some old ∧
      (old.cancelled = true → after.cancelled = true ∧
        (before.masked = 0 → before.closing = false → decision = .cancelled)))
    (born : before.cancellation < shared.reference.count) (isValid : after.Valid shared)
    (fresh : after.Fresh shared)
    (sound : Verdict.Sound ⟨mine.task, before, after, decision, returned, shared.started⟩
      shared.reference)
    (complete : shared.Unwrapped → Verdict.Complete
      ⟨mine.task, before, after, decision, returned, shared.started⟩ shared.reference)
    (reported : decision = .cancelled → after.cancelled = true) :
    (mine.decide shared before after returned decision).Valid thread shared where
  stage := trivial
  policy other equal := by
    cases equal
    exact isValid
  fresh _ other equal := by
    cases equal
    exact fresh
  verdicts verdict member := by
    rcases List.mem_cons.1 member with rfl | member
    · exact ⟨born, sound, complete, le_rfl, fun _ isReported => ⟨after, rfl, reported isReported⟩⟩
    · have old := valid.verdicts verdict member
      refine ⟨old.born, old.sound, old.complete, old.task, fun same isReported => ?_⟩
      obtain ⟨policy, found, bit⟩ := old.kept same isReported
      obtain ⟨known, equal, keeps⟩ := known
      rw [found] at equal
      cases equal
      exact ⟨after, rfl, (keeps bit).1⟩
  ordered := by
    refine List.pairwise_cons.2 ⟨fun earlier member sameTask isReported unmasked isOpen => ?_,
      valid.ordered⟩
    obtain ⟨policy, found, bit⟩ := (valid.verdicts earlier member).kept sameTask.symm isReported
    obtain ⟨known, equal, keeps⟩ := known
    rw [found] at equal
    cases equal
    exact (keeps bit).2 unmasked isOpen

/-- The clock decides between other verdicts. -/
theorem Decision.resolve_eq_cancelled {decision : Decision} {expired : Bool} :
    decision.resolve expired = .cancelled ↔ decision = .cancelled := by
  cases decision <;> cases expired <;> decide

/-- The ways through the first part of a checkpoint. -/
theorem Policy.observe_cases (policy : Policy) (epoch : BitVec 64) :
    (policy.closing = true ∧ policy.observe epoch = (policy, some .runtimeStopped)) ∨
    (policy.closing = false ∧ policy.masked ≠ 0 ∧
      policy.observe epoch = (policy, some .continue)) ∨
    (policy.closing = false ∧ policy.masked = 0 ∧ policy.cancelled = true ∧
      policy.observe epoch = (policy, some .cancelled)) ∨
    (policy.closing = false ∧ policy.masked = 0 ∧ policy.cancelled = false ∧
      policy.observe epoch = ({ policy with observedEpoch := epoch }, none)) ∨
    (policy.closing = false ∧ policy.masked = 0 ∧ policy.cancelled = false ∧
      policy.observedEpoch = epoch ∧ ∃ decision, decision ≠ .cancelled ∧
        policy.observe epoch = (policy, some decision)) := by
  unfold Policy.observe
  by_cases closing : policy.closing = true
  · exact .inl ⟨closing, if_pos closing⟩
  have isOpen : policy.closing = false := by simpa using closing
  rw [if_neg closing]
  by_cases masked : policy.masked ≠ 0
  · exact .inr (.inl ⟨isOpen, masked, if_pos masked⟩)
  have unmasked : policy.masked = 0 := not_not.1 masked
  rw [if_neg masked]
  by_cases cancelled : policy.cancelled = true
  · exact .inr (.inr (.inl ⟨isOpen, unmasked, cancelled, if_pos cancelled⟩))
  have uncancelled : policy.cancelled = false := by simpa using cancelled
  rw [if_neg cancelled]
  by_cases moved : epoch ≠ policy.observedEpoch
  · exact .inr (.inr (.inr (.inl ⟨isOpen, unmasked, uncancelled, if_pos moved⟩)))
  rw [if_neg moved]
  refine .inr (.inr (.inr (.inr
    ⟨isOpen, unmasked, uncancelled, (not_not.1 moved).symm, ?_⟩)))
  by_cases deadline : policy.deadline = true
  · exact ⟨.checkDeadline, nofun, if_pos deadline⟩
  · exact ⟨.continue, nofun, if_neg deadline⟩

/-- What a checkpoint does that starts now. -/
theorem Local.Valid.checkpoint (valid : mine.Valid thread shared) (isValid : shared.Valid)
    (rests : mine.pc = .rest) {policy : Policy} (known : mine.policy = some policy)
    (strong : policy.cancellation ∈ shared.domain.strong) (expired : Bool) :
    (match policy.observe shared.domain.epoch with
      | (after, some decision) =>
          mine.decide shared policy after shared.returned (decision.resolve expired)
      | (after, none) => { mine with
          policy := some after
          pc := .probing policy shared.returned } : Local).Valid thread shared := by
  have born := isValid.graphed.born strong
  have policyValid := valid.policy policy known
  have fresh := valid.fresh (by rw [rests]; rfl) policy known
  -- A verdict that is no report.
  have quiet : ∀ decision : Decision, decision ≠ .cancelled →
      (policy.closing = true ∨ policy.masked ≠ 0 ∨
        policy.cancelled = false ∧ policy.observedEpoch = shared.domain.epoch) →
      (mine.decide shared policy policy shared.returned
        (decision.resolve expired)).Valid thread shared := by
    intro decision silent why
    have unreported : decision.resolve expired ≠ .cancelled :=
      fun reported => silent (Decision.resolve_eq_cancelled.1 reported)
    refine valid.decide ⟨policy, known, fun bit => ⟨bit, fun unmasked isOpen => ?_⟩⟩ born
      policyValid fresh ⟨fun reported => (unreported reported).elim,
        fun _ => ⟨rfl, unreported⟩⟩ ?_ fun reported => (unreported reported).elim
    · rcases why with closing | masked | ⟨uncancelled, -⟩
      · rw [isOpen] at closing
        cases closing
      · exact (masked unmasked).elim
      · rw [uncancelled] at bit
        cases bit
    · rintro unwrapped unmasked isOpen ⟨root, member, path⟩
      dsimp only at unmasked isOpen member path
      rcases why with closing | masked | ⟨uncancelled, same⟩
      · rw [isOpen] at closing
        cases closing
      · exact (masked unmasked).elim
      · exact (fresh uncancelled unwrapped same root
          (isValid.returned_advanced root member) path).elim
  rcases policy.observe_cases shared.domain.epoch with ⟨closing, equal⟩ |
    ⟨-, masked, equal⟩ | ⟨isOpen, unmasked, cancelled, equal⟩ |
    ⟨isOpen, unmasked, uncancelled, equal⟩ | ⟨-, -, uncancelled, same, decision, silent, equal⟩
  · rw [equal]
    exact quiet .runtimeStopped nofun (.inl closing)
  · rw [equal]
    exact quiet .continue nofun (.inr (.inl masked))
  · -- The cancellation had been found before.
    rw [equal]
    have marked := isValid.flag_cancelled _ (policyValid.flagged cancelled)
    obtain ⟨root, isMarked, path⟩ := (isValid.cancelled_iff _).1 marked
    exact valid.decide ⟨policy, known, fun bit => ⟨bit, fun _ _ => rfl⟩⟩ born policyValid fresh
      ⟨fun _ => ⟨root, isValid.marked_started root isMarked, path⟩,
        fun masked => (masked unmasked).elim⟩ (fun _ _ _ _ => rfl) fun _ => cancelled
  · -- The epoch has moved.
    rw [equal]
    exact {
      stage := ⟨⟨shared.domain.epoch, rfl⟩, isOpen, unmasked, uncancelled,
        fun _ member => member⟩
      policy := by
        intro other found
        cases found
        refine ⟨policyValid.flagged, ?_⟩
        dsimp only
        rw [isValid.epoch, BitVec.toNat_ofNat]
        exact Nat.mod_le ..
      fresh := nofun
      verdicts := by
        intro verdict member
        have old := valid.verdicts verdict member
        refine ⟨old.born, old.sound, old.complete, old.task, fun sameTask reported => ?_⟩
        obtain ⟨other, found, bit⟩ := old.kept sameTask reported
        rw [known] at found
        cases found
        exact ⟨_, rfl, bit⟩
      ordered := valid.ordered }
  · rw [equal]
    exact quiet decision silent (.inr (.inr ⟨uncancelled, same⟩))

/-- What a checkpoint does that looks at the token now. -/
theorem Local.Valid.look (valid : mine.Valid thread shared) (isValid : shared.Valid)
    {before policy : Policy} {returned : List Nat} (probes : mine.pc = .probing before returned)
    (known : mine.policy = some policy) (strong : policy.cancellation ∈ shared.domain.strong)
    (expired : Bool) :
    (mine.decide shared before (policy.look (shared.domain.flags policy.cancellation)).1 returned
      ((policy.look (shared.domain.flags policy.cancellation)).2.resolve expired)).Valid
        thread shared := by
  have stage := valid.stage
  rw [probes] at stage
  obtain ⟨⟨epoch, observed⟩, isOpen, unmasked, uncancelled, snapshot⟩ := stage
  rw [known] at observed
  cases observed
  have born := isValid.graphed.born strong
  have policyValid := valid.policy _ known
  have known' : ∃ old, mine.policy = some old ∧ old.cancelled = false :=
    ⟨_, known, uncancelled⟩
  dsimp only at strong born ⊢
  cases flag : shared.domain.flags before.cancellation with
  | true =>
      have marked := isValid.flag_cancelled _ flag
      obtain ⟨root, isMarked, path⟩ := (isValid.cancelled_iff _).1 marked
      refine valid.decide ⟨_, known, fun _ => ⟨rfl, fun _ _ => rfl⟩⟩ born
        ⟨fun _ => flag, policyValid.observed⟩ nofun
        ⟨fun _ => ⟨root, isValid.marked_started root isMarked, path⟩,
          fun masked => (masked unmasked).elim⟩ (fun _ _ _ _ => rfl) fun _ => rfl
  | false =>
      have unreached : ∀ root ∈ shared.advanced,
          ¬ shared.reference.Descends root before.cancellation := by
        intro root member path
        rw [isValid.advanced_flagged root member _ strong path] at flag
        cases flag
      have quiet : ∀ decision : Decision, decision ≠ .cancelled →
          (mine.decide shared before { before with observedEpoch := epoch } returned
            (decision.resolve expired)).Valid thread shared := by
        intro decision silent
        have unreported : decision.resolve expired ≠ .cancelled :=
          fun reported => silent (Decision.resolve_eq_cancelled.1 reported)
        refine valid.decide ⟨_, known, fun bit => ?_⟩ born policyValid
          (fun _ _ _ => unreached) ⟨fun reported => (unreported reported).elim,
            fun masked => (masked unmasked).elim⟩ ?_ fun reported => (unreported reported).elim
        · dsimp only at bit
          rw [uncancelled] at bit
          cases bit
        · rintro - - - ⟨root, member, path⟩
          exact (unreached root (isValid.returned_advanced root (snapshot root member)) path).elim
      unfold Policy.look
      rw [if_neg Bool.false_ne_true]
      split
      next => exact quiet .checkDeadline nofun
      next => exact quiet .continue nofun

end Own

/-! ## Steps -/

/-- What a step of a thread achieves before it announces the nodes it keeps alive. -/
structure Runs (runner : ι) (before after : Shared ι) (mine : Local) : Prop where
  valid : after.Valid
  evolves : Evolves before after
  borrowed : after.borrowed = before.borrowed
  lock : ∀ other nodes, other ≠ runner → before.lock = some (other, nodes) →
    after.lock = some (other, nodes)
  own : mine.Valid runner after
  strong : ∀ node ∈ mine.nodes, node ∈ after.domain.strong

section Steps

variable {shared shared' : Shared ι} {thread : ι} {mine mine' : Local}

theorem Local.mem_nodes {policy : Policy} (known : mine.policy = some policy) :
    policy.cancellation ∈ mine.nodes := by
  simp [Local.nodes, known]

/-- The tokens of a thread's policy have been created. -/
theorem born_of_nodes (isValid : shared.Valid)
    (strong : ∀ node ∈ mine.nodes, node ∈ shared.domain.strong) :
    ∀ policy, mine.policy = some policy → policy.cancellation < shared.reference.count :=
  fun _ known => isValid.graphed.born (strong _ (Local.mem_nodes known))

/-- A step that only changes what the thread itself knows. -/
theorem Runs.still (isValid : shared.Valid) (valid : mine.Valid thread shared)
    (strong : ∀ node ∈ mine.nodes, node ∈ shared.domain.strong) :
    Runs thread shared shared mine :=
  ⟨isValid, .refl shared, rfl, fun _ _ _ held => held, valid, strong⟩

/-- Leaving a call drops its root. -/
theorem nodes_setPc (pc : Pc) (quiet : ∀ root stage, pc ≠ .cancelling root stage) :
    ∀ node ∈ ({ mine with pc } : Local).nodes, node ∈ mine.nodes := by
  intro node member
  cases pc with
  | cancelling root stage => exact (quiet root stage rfl).elim
  | rest | probing | panicked => exact List.mem_append_left _ (by simpa [Local.nodes] using member)

variable [DecidableEq ι]

theorem cancelStep_spec (isValid : shared.Valid) (valid : mine.Valid thread shared)
    (strong : ∀ node ∈ mine.nodes, node ∈ shared.domain.strong) {root : Nat}
    {stage : CancelStage} (cancelling : mine.pc = .cancelling root stage)
    (taken : cancelStep thread shared mine root stage = some (shared', mine')) :
    Runs thread shared shared' mine' := by
  have atStage := valid.stage
  rw [cancelling] at atStage
  have resting : mine.pc.probes = false := by rw [cancelling]; rfl
  have rootStrong : root ∈ shared.domain.strong := by
    refine strong root ?_
    simp [Local.nodes, cancelling]
  have born := born_of_nodes isValid strong
  -- The root stays alive through the whole call.
  have sameNodes : ∀ later : CancelStage,
      ({ mine with pc := .cancelling root later } : Local).nodes = mine.nodes := by
    intro later
    simp [Local.nodes, cancelling]
  cases stage with
  | lock =>
      unfold cancelStep at taken
      cases free : shared.lock with
      | some held =>
          rw [free] at taken
          cases taken
      | none =>
          obtain ⟨domain, nodes, marked, isValid', evolves⟩ :=
            isValid.mark free thread rootStrong atStage
          obtain ⟨world, _, marked', -⟩ := isValid.graphed.cancelNodes rootStrong
          rw [marked] at marked'
          cases marked'
          simp only [free, marked] at taken
          cases taken
          refine ⟨isValid', evolves, rfl, fun _ _ _ held => ?_, ?_, ?_⟩
          · rw [free] at held
            cases held
          · refine Local.Valid.setPc (valid.mono isValid' evolves (fun _ held => ?_) born) resting
              ⟨List.mem_cons_self .., nodes, rfl⟩
            rw [free] at held
            cases held
          · rw [sameNodes]
            exact strong
  | mark =>
      obtain ⟨marked, nodes, held⟩ := atStage
      unfold cancelStep at taken
      dsimp only at taken
      split at taken
      next => cases taken
      next holder owed locked =>
      rw [held] at locked
      cases locked
      rw [if_pos rfl] at taken
      cases nodes with
      | cons node nodes =>
          cases taken
          obtain ⟨isValid', evolves⟩ := isValid.visit held
          have sameStrong := (Shared.Valid.visit_strong shared.domain node).1
          refine ⟨isValid', evolves, rfl, fun other owed ne owns => ?_, ?_, ?_⟩
          · rw [held] at owns
            cases owns
            exact (ne rfl).elim
          · exact {
              stage := by
                rw [cancelling]
                exact ⟨marked, nodes, rfl⟩
              policy := fun policy known =>
                (valid.policy policy known).mono evolves (born policy known)
              fresh := fun _ policy known => (valid.fresh resting policy known).mono
                (valid.policy policy known) isValid' evolves (born policy known)
              verdicts := fun verdict member => (valid.verdicts verdict member).mono evolves
              ordered := valid.ordered }
          · dsimp only
            rw [sameStrong]
            exact strong
      | nil =>
          cases taken
          obtain ⟨isValid', evolves⟩ := isValid.advance held marked
          refine ⟨isValid', evolves, rfl, fun _ _ _ owns => owns, ?_, ?_⟩
          · exact (valid.mono isValid' evolves (fun _ owns => owns) born).setPc resting
              ⟨List.mem_cons_self .., held⟩
          · rw [sameNodes]
            exact strong
  | unlock =>
      obtain ⟨advanced, held⟩ := atStage
      cases taken
      obtain ⟨isValid', evolves⟩ := isValid.unlock held
      refine ⟨isValid', evolves, rfl, fun other nodes ne owns => ?_, ?_, ?_⟩
      · rw [held] at owns
        cases owns
        exact (ne rfl).elim
      · exact {
          stage := advanced
          policy := fun policy known =>
            (valid.policy policy known).mono evolves (born policy known)
          fresh := fun _ policy known => (valid.fresh resting policy known).mono
            (valid.policy policy known) isValid' evolves (born policy known)
          verdicts := by
            intro verdict member
            have old := (valid.verdicts verdict member).mono evolves
            exact ⟨old.born, old.sound, old.complete, old.task, old.kept⟩
          ordered := valid.ordered }
      · rw [sameNodes]
        exact strong
  | select =>
      cases taken
      obtain ⟨isValid', evolves⟩ := isValid.finish atStage
      refine ⟨isValid', evolves, rfl, fun _ _ _ owns => owns, ?_, ?_⟩
      · exact (valid.mono isValid' evolves (fun _ owns => owns) born).setPc resting trivial
      · exact fun node member => strong node (nodes_setPc .rest (fun _ _ => nofun) node member)

omit [DecidableEq ι] in
theorem callStep_spec (isValid : shared.Valid) (valid : mine.Valid thread shared)
    (strong : ∀ node ∈ mine.nodes, node ∈ shared.domain.strong) (rests : mine.pc = .rest)
    {request : Request} (taken : callStep shared mine request = some (shared', mine')) :
    Runs thread shared shared' mine' := by
  have resting : mine.pc.probes = false := by rw [rests]; rfl
  have born := born_of_nodes isValid strong
  cases request with
  | insert =>
      rw [callStep] at taken
      split at taken
      next permitted =>
        obtain ⟨free, known⟩ := permitted
        split at taken
        next domain inserted =>
          cases taken
          obtain ⟨isValid', evolves⟩ := isValid.insert free known inserted
          obtain ⟨-, world, cancelled, rfl, -⟩ := isValid.graphed.insert known inserted
          refine ⟨isValid', evolves, rfl, fun _ _ _ owns => owns,
            valid.mono isValid' evolves (fun _ owns => owns) born,
            fun node member => Finset.mem_insert_of_mem (strong node member)⟩
        next message failed =>
          cases taken
          exact .still isValid (valid.setPc resting trivial)
            fun node member =>
              strong node (nodes_setPc (.panicked message) (fun _ _ => nofun) node member)
      next => cases taken
  | cancel root =>
      rw [callStep] at taken
      split at taken
      next rootStrong =>
        cases taken
        obtain ⟨isValid', evolves⟩ := isValid.start root
        refine ⟨isValid', evolves, rfl, fun _ _ _ owns => owns, ?_, ?_⟩
        · exact (valid.mono isValid' evolves (fun _ owns => owns) born).setPc resting
            (List.mem_cons_self ..)
        · intro node member
          rcases List.mem_append.1 member with ofPolicy | isRoot
          · exact strong node (List.mem_append_left _ ofPolicy)
          · rw [List.mem_singleton.1 isRoot]
            exact rootStrong
      next => cases taken
  | reuse cancellation =>
      rw [callStep] at taken
      split at taken
      next tokenStrong =>
        cases taken
        have nodes : ∀ policy : Policy, policy.cancellation = cancellation →
            ∀ node ∈ ({ mine with policy := some policy, task := mine.task + 1 } : Local).nodes,
              node ∈ shared.domain.strong := by
          intro policy token node member
          simp only [Local.nodes, rests, Option.map_some, Option.toList_some, List.append_nil,
            List.mem_singleton] at member
          rw [member, token]
          exact tokenStrong
        cases known : mine.policy with
        | none => exact .still isValid (valid.reuse isValid rests rfl rfl) (nodes _ rfl)
        | some policy => exact .still isValid (valid.reuse isValid rests rfl rfl) (nodes _ rfl)
      next => cases taken
  | setMasked | close =>
      obtain ⟨policy, known, equal⟩ := Option.map_eq_some_iff.1 taken
      cases equal
      refine .still isValid (valid.setPolicy rests known rfl rfl rfl) fun node member => ?_
      refine strong node ?_
      simpa [Local.nodes, known] using member
  | checkpoint expired =>
      obtain ⟨policy, known, equal⟩ := Option.map_eq_some_iff.1 taken
      have tokenStrong := strong _ (Local.mem_nodes known)
      have checked := valid.checkpoint isValid rests known tokenStrong expired
      rcases policy.observe_cases shared.domain.epoch with ⟨-, observed⟩ | ⟨-, -, observed⟩ |
        ⟨-, -, -, observed⟩ | ⟨-, -, -, observed⟩ | ⟨-, -, -, -, decision, -, observed⟩
      all_goals
        rw [observed] at equal checked
        cases equal
        refine .still isValid checked fun node member => ?_
        have isToken : node = policy.cancellation := by
          simpa [Local.nodes, Local.decide, rests] using member
        rw [isToken]
        exact tokenStrong
  | release | retire | proceed => cases taken

theorem runStep_spec (isValid : shared.Valid) (valid : mine.Valid thread shared)
    (strong : ∀ node ∈ mine.nodes, node ∈ shared.domain.strong) {request : Request}
    (taken : runStep thread request shared mine = some (shared', mine')) :
    Runs thread shared shared' mine' := by
  unfold runStep at taken
  split at taken
  next pc request rests => exact callStep_spec isValid valid strong rests taken
  next root stage expired cancelling =>
    exact cancelStep_spec isValid valid strong cancelling taken
  next before returned expired probes =>
    obtain ⟨policy, known, equal⟩ := Option.map_eq_some_iff.1 taken
    have tokenStrong := strong _ (Local.mem_nodes known)
    have looked := valid.look isValid probes known tokenStrong expired
    have ended : (shared, mine.decide shared before
        (policy.look (shared.domain.flags policy.cancellation)).1 returned
        ((policy.look (shared.domain.flags policy.cancellation)).2.resolve expired)) =
          (shared', mine') := equal
    obtain ⟨rfl, rfl⟩ := Prod.mk.inj ended
    refine .still isValid looked fun node member => ?_
    have sameToken : (policy.look (shared.domain.flags policy.cancellation)).1.cancellation =
        policy.cancellation := by
      unfold Policy.look
      split
      · rfl
      · split <;> rfl
    have isToken : node = policy.cancellation := by
      simpa [Local.nodes, Local.decide, sameToken] using member
    rw [isToken]
    exact tokenStrong
  next => cases taken

/-- What a step of a thread achieves. -/
structure Advances (runner : ι) (before after : Shared ι) (mine : Local) : Prop where
  valid : after.Valid
  evolves : Evolves before after
  lock : ∀ other nodes, other ≠ runner → before.lock = some (other, nodes) →
    after.lock = some (other, nodes)
  own : mine.Valid runner after
  kept : ∀ node ∈ mine.nodes, (runner, node) ∈ after.borrowed
  others : ∀ other node, other ≠ runner → (other, node) ∈ before.borrowed →
    (other, node) ∈ after.borrowed

theorem nextStep_spec (isValid : shared.Valid) (valid : mine.Valid thread shared)
    (kept : ∀ node ∈ mine.nodes, (thread, node) ∈ shared.borrowed) {request : Request}
    (taken : nextStep thread request shared mine = some (shared', mine')) :
    Advances thread shared shared' mine' := by
  have strong : ∀ node ∈ mine.nodes, node ∈ shared.domain.strong :=
    fun node member => isValid.borrowed _ (kept node member)
  have born := born_of_nodes isValid strong
  unfold nextStep at taken
  split at taken
  next node =>
    split at taken
    next permitted =>
      cases taken
      obtain ⟨isValid', evolves⟩ := isValid.release permitted.1 permitted.2
      exact ⟨isValid', evolves, fun _ _ _ owns => owns,
        valid.mono isValid' evolves (fun _ owns => owns) born, kept, fun _ _ _ held => held⟩
    next => cases taken
  next node =>
    split at taken
    next permitted =>
      obtain ⟨domain, retired, isValid', evolves⟩ := isValid.retire permitted.1
      rw [retired] at taken
      cases taken
      exact ⟨isValid', evolves, fun _ _ _ owns => owns,
        valid.mono isValid' evolves (fun _ owns => owns) born, kept, fun _ _ _ held => held⟩
    next => cases taken
  next request =>
    obtain ⟨⟨ran, ended⟩, stepped, equal⟩ := Option.map_eq_some_iff.1 taken
    cases equal
    have runs := runStep_spec isValid valid strong stepped
    have announced := runs.valid.borrow thread runs.strong
    have evolves : Evolves ran { ran with
        borrowed := Inherited.borrow thread mine'.nodes ran.borrowed } :=
      { Evolves.refl ran with }
    refine ⟨announced, { runs.evolves with }, runs.lock, ?_, ?_, ?_⟩
    · exact runs.own.mono announced evolves (fun _ owns => owns)
        (born_of_nodes runs.valid runs.strong)
    · intro node member
      exact List.mem_append_left _ (List.mem_map_of_mem member)
    · intro other node ne held
      refine List.mem_append_right _ (List.mem_filter.2 ⟨?_, by simpa using ne⟩)
      rw [runs.borrowed]
      exact held

end Steps

/-! ## Runs -/

theorem initial_valid : (Shared.initial : Shared ι).Valid where
  graphed :=
    { agrees := World.agrees_initial
      handle := by simp [Shared.initial, Domain.initial, World.initial]
      strong_live := by simp [Shared.initial, Domain.initial]
      leaving_live := by simp [Shared.initial, Domain.initial]
      retired_live := by simp [Shared.initial, Domain.initial]
      nodup := List.nodup_nil }
  marked_born := nofun
  cancelled_iff node := by
    simp [Shared.reference, Shared.initial, Domain.initial, World.initial, Reference.empty]
  flag_cancelled := nofun
  visited := by simp [Shared.initial, Domain.initial]
  owed := nofun
  advanced_flagged := nofun
  advanced_marked := nofun
  marked_started := nofun
  returned_advanced := nofun
  epoch := rfl
  borrowed := nofun

theorem start_valid (thread : ι) (shared : Shared ι) :
    (⟨none, 0, [], .rest⟩ : Local).Valid thread shared where
  stage := trivial
  policy := nofun
  fresh _ := nofun
  verdicts := nofun
  ordered := .nil

variable [DecidableEq ι]

theorem reachable_valid {state : Threads ι (Shared ι) Local}
    (reachable : (program : Program ι (Shared ι) Local).system.Reachable state) :
    state.shared.Valid ∧ ∀ thread,
      (state.locals thread).Valid thread state.shared ∧
        ∀ node ∈ (state.locals thread).nodes, (thread, node) ∈ state.shared.borrowed := by
  refine @Program.invariant ι _ _ _ program Shared.Valid
    (fun thread shared mine => mine.Valid thread shared ∧
      ∀ node ∈ mine.nodes, (thread, node) ∈ shared.borrowed) ?_ ?_ ?_ state reachable
  · rintro shared rfl
    exact ⟨initial_valid, fun thread => ⟨start_valid thread _, by
      simp [program, Local.nodes]⟩⟩
  · rintro thread shared mine shared' mine' isValid ⟨valid, kept⟩ ⟨request, taken⟩
    have advances := nextStep_spec isValid valid kept taken
    exact ⟨advances.valid, advances.own, advances.kept⟩
  · rintro thread other shared mine theirs shared' mine' ne isValid ⟨valid, kept⟩
      ⟨theirValid, theirKept⟩ ⟨request, taken⟩
    have advances := nextStep_spec isValid valid kept taken
    refine ⟨theirValid.mono advances.valid advances.evolves
      (fun nodes owns => advances.lock other nodes ne owns)
      (born_of_nodes isValid fun node member => isValid.borrowed _ (theirKept node member)),
      fun node member => advances.others other node ne (theirKept node member)⟩

/-- In every run and for every thread: a reported cancellation has started above the token,
masked checkpoints neither report nor consume one, a report persists until the context is
reused, and unless the epoch has come around, every unmasked checkpoint that starts after a
cancellation above the token has returned reports it. -/
theorem checkpoints_agree {state : Threads ι (Shared ι) Local}
    (reachable : (program : Program ι (Shared ι) Local).system.Reachable state) (thread : ι) :
    (∀ verdict ∈ (state.locals thread).log,
      verdict.Sound state.shared.reference ∧
      (state.shared.Unwrapped → verdict.Complete state.shared.reference)) ∧
    (state.locals thread).log.Pairwise Verdict.Persists := by
  have valid := ((reachable_valid reachable).2 thread).1
  exact ⟨fun verdict member =>
    ⟨(valid.verdicts verdict member).sound, (valid.verdicts verdict member).complete⟩,
    valid.ordered⟩

/-! ## The epoch comes around -/

/-- A thread continues its call. -/
theorem take_step {shared ran : Shared ι} {locals : ι → Local} {thread : ι} {mine : Local}
    {request : Request}
    (reachable : (program : Program ι (Shared ι) Local).system.Reachable ⟨shared, locals⟩)
    (taken : runStep thread request shared (locals thread) = some (ran, mine))
    (called : ∀ node, request ≠ .release node ∧ request ≠ .retire node) :
    ∃ borrowed, (program : Program ι (Shared ι) Local).system.Reachable
      ⟨{ ran with borrowed }, Function.update locals thread mine⟩ := by
  have stepped : nextStep thread request shared (locals thread) =
      some ({ ran with borrowed := Inherited.borrow thread mine.nodes ran.borrowed }, mine) := by
    unfold nextStep
    split
    next node => exact ((called node).1 rfl).elim
    next node => exact ((called node).2 rfl).elim
    next => rw [taken]; rfl
  refine ⟨Inherited.borrow thread mine.nodes ran.borrowed, ?_⟩
  have moved := @Program.Step.mk ι _ _ _ program thread ⟨shared, locals⟩ _ _ ⟨request, stepped⟩
  have updated : Function.update locals thread mine =
      fun other => if other = thread then mine else locals other := by
    funext other
    rw [Function.update_apply]
  rw [updated]
  exact .step reachable moved

/-- A cancellation makes the visits it owes. -/
theorem visits_run {thread : ι} {root : Nat} {locals : ι → Local}
    (cancelling : (locals thread).pc = .cancelling root .mark) (nodes : List Nat)
    {shared : Shared ι} (held : shared.lock = some (thread, nodes))
    (reachable : (program : Program ι (Shared ι) Local).system.Reachable ⟨shared, locals⟩) :
    ∃ after : Shared ι,
      (program : Program ι (Shared ι) Local).system.Reachable ⟨after, locals⟩ ∧
      after.lock = some (thread, []) ∧ after.domain.strong = shared.domain.strong ∧
      after.advanced = shared.advanced ∧ after.returned = shared.returned := by
  induction nodes generalizing shared with
  | nil => exact ⟨shared, reachable, held, rfl, rfl, rfl⟩
  | cons node nodes ih =>
      have taken : runStep thread (.proceed false) shared (locals thread) =
          some ({ shared with domain := shared.domain.visit node, lock := some (thread, nodes) },
            locals thread) := by
        simp [runStep, cancelling, cancelStep, held]
      obtain ⟨borrowed, reachable⟩ := take_step reachable taken fun _ => ⟨nofun, nofun⟩
      rw [Function.update_eq_self] at reachable
      obtain ⟨after, reachable, free, strong, advanced, returned⟩ := ih rfl reachable
      exact ⟨after, reachable, free,
        strong.trans (Shared.Valid.visit_strong shared.domain node).1, advanced, returned⟩

theorem stage_run {shared ran : Shared ι} {locals : ι → Local} {thread : ι} {mine mine' : Local}
    {root : Nat} {stage : CancelStage}
    (reachable : (program : Program ι (Shared ι) Local).system.Reachable
      ⟨shared, Function.update locals thread mine⟩)
    (cancelling : mine.pc = .cancelling root stage)
    (taken : cancelStep thread shared mine root stage = some (ran, mine')) :
    ∃ borrowed, (program : Program ι (Shared ι) Local).system.Reachable
      ⟨{ ran with borrowed }, Function.update locals thread mine'⟩ := by
  have ran : runStep thread (.proceed false) shared (Function.update locals thread mine thread) =
      some (ran, mine') := by
    rw [Function.update_self]
    simp only [runStep, cancelling, taken]
  obtain ⟨borrowed, after⟩ := take_step reachable ran fun _ => ⟨nofun, nofun⟩
  rw [Function.update_idem] at after
  exact ⟨borrowed, after⟩

/-- A whole call of `cancel` while the other threads pause. -/
theorem cancel_run {thread : ι} {root : Nat} {locals : ι → Local} {shared : Shared ι}
    (rests : (locals thread).pc = .rest) (free : shared.lock = none)
    (strong : root ∈ shared.domain.strong)
    (reachable : (program : Program ι (Shared ι) Local).system.Reachable ⟨shared, locals⟩) :
    ∃ after : Shared ι,
      (program : Program ι (Shared ι) Local).system.Reachable ⟨after, locals⟩ ∧
      after.lock = none ∧ after.domain.strong = shared.domain.strong ∧
      after.advanced = root :: shared.advanced ∧ after.returned = root :: shared.returned := by
  have called : runStep thread (.cancel root) shared (locals thread) = some (
      { shared with started := root :: shared.started },
      { locals thread with pc := .cancelling root .lock }) := by
    simp only [runStep, rests]
    exact if_pos strong
  obtain ⟨first, reachable⟩ := take_step reachable called fun _ => ⟨nofun, nofun⟩
  obtain ⟨world, nodes, marked, -⟩ := (reachable_valid reachable).1.graphed.cancelNodes strong
  obtain ⟨second, reachable⟩ := stage_run reachable rfl
    (show cancelStep thread _ _ root .lock = some (_, _) by
      rw [cancelStep]
      dsimp only
      simp only [free, marked]
      rfl)
  obtain ⟨visited, reachable, held, sameStrong, sameAdvanced, sameReturned⟩ :=
    visits_run (by rw [Function.update_self]) nodes rfl reachable
  obtain ⟨third, reachable⟩ := stage_run reachable rfl
    (show cancelStep thread _ _ root .mark = some (_, _) by
      rw [cancelStep, held]
      dsimp only
      rw [if_pos rfl])
  obtain ⟨fourth, reachable⟩ := stage_run reachable rfl
    (show cancelStep thread _ _ root .unlock = some (_, _) by rw [cancelStep])
  obtain ⟨fifth, reachable⟩ := stage_run reachable rfl
    (show cancelStep thread _ _ root .select = some (_, _) by rw [cancelStep])
  have back : Function.update locals thread { locals thread with pc := .rest } = locals := by
    rw [← rests]
    exact Function.update_eq_self ..
  rw [back] at reachable
  exact ⟨_, reachable, rfl, sameStrong, by rw [sameAdvanced], by rw [sameReturned]⟩

/-- Any number of cancellations, one after the other. -/
theorem cancels_run {thread : ι} {root : Nat} {locals : ι → Local} {shared : Shared ι}
    (rests : (locals thread).pc = .rest) (free : shared.lock = none)
    (strong : root ∈ shared.domain.strong)
    (reachable : (program : Program ι (Shared ι) Local).system.Reachable ⟨shared, locals⟩)
    (count : Nat) :
    ∃ after : Shared ι,
      (program : Program ι (Shared ι) Local).system.Reachable ⟨after, locals⟩ ∧
      after.lock = none ∧ root ∈ after.domain.strong ∧
      after.advanced.length = shared.advanced.length + count ∧
      (0 < count → root ∈ after.returned) := by
  induction count with
  | zero => exact ⟨shared, reachable, free, strong, rfl, fun none => (none.false).elim⟩
  | succ count ih =>
      obtain ⟨before, reachable, free, strong, length, -⟩ := ih
      obtain ⟨after, reachable, free, sameStrong, advanced, returned⟩ :=
        cancel_run rests free strong reachable
      refine ⟨after, reachable, free, by rwa [sameStrong], ?_, fun _ => ?_⟩
      · rw [advanced, List.length_cons, length]
        rfl
      · rw [returned]
        exact List.mem_cons_self ..

/-- After `2 ^ 64 - 1` cancellations of its token, a context that has not looked yet finds
its initial epoch and passes its checkpoint. -/
theorem cancellation_missed :
    ∃ state : Threads Bool (Shared Bool) Local,
      (program : Program Bool (Shared Bool) Local).system.Reachable state ∧
      ∃ verdict ∈ (state.locals false).log, verdict.before.masked = 0 ∧
        verdict.before.closing = false ∧
        (∃ root ∈ verdict.returned,
          state.shared.reference.Descends root verdict.before.cancellation) ∧
        verdict.decision = .continue := by
  have run : (scheduler.run [(true, .insert []), (false, .reuse 0 false)]
      (origin : Threads Bool (Shared Bool) Local)).map (fun state =>
        (state.shared.lock.isNone, decide (0 ∈ state.shared.domain.strong),
          state.shared.advanced, state.locals true, state.locals false)) =
      some (true, true, [], ⟨none, 0, [], .rest⟩, ⟨some (.new 0 false), 1, [], .rest⟩) := by
    decide
  obtain ⟨⟨shared, locals⟩, ran, view⟩ := Option.map_eq_some_iff.1 run
  simp only [Prod.mk.injEq] at view
  obtain ⟨free, strong, advanced, cancels, checks⟩ := view
  have reachable := Scheduler.run_reachable scheduler origin_reachable ran
  have rests : (locals true).pc = .rest := by rw [cancels]
  obtain ⟨after, reachable, -, -, length, returned⟩ := cancels_run rests
    (Option.isNone_iff_eq_none.1 free) (of_decide_eq_true strong) reachable (2 ^ 64 - 1)
  have epoch : after.domain.epoch = 0#64 := by
    rw [(reachable_valid reachable).1.epoch, length, advanced, List.length_nil]
    rfl
  have checked : runStep false (.checkpoint false) after (locals false) = some (after,
      (locals false).decide after (.new 0 false) (.new 0 false) after.returned .continue) := by
    simp only [checks, runStep, callStep, Option.map_some, epoch]
    rfl
  obtain ⟨borrowed, reachable⟩ := take_step reachable checked fun _ => ⟨nofun, nofun⟩
  refine ⟨_, reachable, ⟨1, .new 0 false, .new 0 false, .continue, after.returned,
    after.started⟩, ?_, rfl, rfl, ⟨0, returned (by decide), .refl⟩, rfl⟩
  simp [Local.decide, checks]

/-- One thread cancels the token of another's context, which then checks twice. -/
theorem checkpoints_agree_pair :
    ∃ state : Threads Bool (Shared Bool) Local,
      (program : Program Bool (Shared Bool) Local).system.Reachable state ∧
      (state.locals false).log.map Verdict.decision = [.cancelled, .cancelled, .continue] ∧
      (state.locals false).log.Pairwise Verdict.Persists := by
  have run : (scheduler.run [(true, .insert []), (false, .reuse 0 false),
      (false, .checkpoint false), (false, .proceed false), (true, .cancel 0),
      (true, .proceed false), (true, .proceed false), (true, .proceed false),
      (true, .proceed false), (true, .proceed false), (false, .checkpoint false),
      (false, .proceed false), (false, .checkpoint false)]
      (origin : Threads Bool (Shared Bool) Local)).map
        (fun state => (state.locals false).log.map Verdict.decision) =
      some [.cancelled, .cancelled, .continue] := by
    decide
  obtain ⟨state, ran, decisions⟩ := Option.map_eq_some_iff.1 run
  have reachable := Scheduler.run_reachable scheduler origin_reachable ran
  exact ⟨state, reachable, decisions, (checkpoints_agree reachable false).2⟩

end VThread.Checkpoint
