import VThread.Inherited.Domain

/-!
# Rejected registrations

A registration on one node, run without interruption, as a function of the node's slot, its
entry in the fallback table and the epoch of the table.  Rejections on the primary and the
resident path leave the node as it was; the fallback path has already replaced the entry.
-/

namespace VThread.Inherited

open VThread.Lib VThread.Wait

/-- The part of a node and its domain that registrations read and write. -/
structure NodeWait where
  wait : WaitSlot
  fallback : Option FallbackWait
  epoch : Nat
  deriving DecidableEq

/-- `release`. -/
def WaitSlot.release (slot : WaitSlot) (active : Active) : Option WaitSlot :=
  if slot.active = active then some { slot with active := 0#64 } else none

theorem WaitSlot.setCell_known {slot : WaitSlot} {resident : Bool} {known : Nat}
    (found : slot.cell resident = some known) (cell : Nat) :
    slot.setCell resident cell = slot := by
  obtain ⟨active, primary, residentCell⟩ := slot
  cases resident <;> cases found <;> rfl

namespace NodeWait

def new : NodeWait := ⟨.new, none, 0⟩

/-- `active_wait`; `alive` tells which weak references to cells upgrade. -/
def activeWait (alive : Nat → Bool) (node : NodeWait) : Option (ParkToken × Nat) :=
  let active := node.wait.active
  if active = 0#64 then none
  else if active.kind ≠ Active.fallback then
    let known := if active.kind = 0#64 then node.wait.primary
      else if active.kind = Active.resident then node.wait.resident
      else none
    match known with
    | some cell => if alive cell then some (⟨cell, active.generation⟩, cell) else none
    | none => none
  else match node.fallback with
    | some ⟨some token, some cell⟩ => some (token, cell)
    | _ => none

/-- `claim`, with the result of the registration. -/
def claim (node : NodeWait) (active : Active) : Except String Active × NodeWait :=
  match node.wait.claim active with
  | some wait => (.ok active, { node with wait })
  | none => (.error concurrentWaitFault, node)

/-- The part of `register_wait` under the lock of the fallback table. -/
def registerFallback (node : NodeWait) (token : ParkToken) (cell : Nat) :
    Except String Active × NodeWait :=
  if node.epoch + 1 < 2 ^ 62 then
    let epoch := node.epoch + 1
    let cached := (node.fallback.getD ⟨none, none⟩).registration
    let registration := if cached = some cell then cached else some cell
    let active := Active.fallback ||| BitVec.ofNat 64 epoch
    match node.wait.claim active with
    | some wait => (.ok active, ⟨wait, some ⟨some token, registration⟩, epoch⟩)
    | none => (.error concurrentWaitFault, ⟨node.wait, some ⟨none, registration⟩, epoch⟩)
  else (.error fallbackGenerationFault, node)

/-- `register_wait` and `register_resident_wait`. -/
def register (node : NodeWait) (resident : Bool) (token : ParkToken) (cell : Nat) :
    Except String Active × NodeWait :=
  let node := { node with wait := node.wait.setCell resident cell }
  if node.wait.cell resident = some cell then
    node.claim (if resident then Active.resident ||| BitVec.ofNat 64 token.generation
      else BitVec.ofNat 64 token.generation)
  else if resident then (.error residentWaitFault, node)
  else node.registerFallback token cell

/-- `unregister_wait`. -/
def unregister (node : NodeWait) (active : Active) : NodeWait :=
  match node.wait.release active with
  | none => node
  | some wait =>
      if active &&& Active.fallback = 0#64 then { node with wait }
      else { node with
        wait, fallback := node.fallback.map fun entry => { entry with token := none } }

/-! ## Well-formed nodes -/

/-- A subscribed slot knows the cell of its subscription. -/
structure Valid (node : NodeWait) : Prop where
  primary : node.wait.active ≠ 0#64 → node.wait.active.kind = 0#64 → node.wait.primary ≠ none
  resident : node.wait.active.kind = Active.resident → node.wait.resident ≠ none

theorem valid_new : new.Valid where
  primary nonzero := (nonzero rfl).elim
  resident isResident := by
    have differ : Active.kind 0#64 ≠ Active.resident := by decide
    exact (differ isResident).elim

theorem Valid.setCell {node : NodeWait} (valid : node.Valid) (resident : Bool) (cell : Nat) :
    { node with wait := node.wait.setCell resident cell }.Valid := by
  cases resident with
  | false =>
      refine ⟨fun _ _ => ?_, valid.resident⟩
      simp [WaitSlot.setCell]
  | true =>
      refine ⟨valid.primary, fun _ => ?_⟩
      simp [WaitSlot.setCell]

/-- A registration on a valid node leaves a valid node. -/
theorem Valid.register {node : NodeWait} (valid : node.Valid) (resident : Bool)
    (token : ParkToken) (inRange : token.generation < 2 ^ 62) (cell : Nat) :
    (node.register resident token cell).2.Valid := by
  have low := Active.low_of_lt inRange
  have kinds : Active.resident ≠ 0#64 ∧ Active.fallback ≠ 0#64 ∧
      Active.fallback ≠ Active.resident ∧ (0#64 : Active) ≠ Active.resident := by decide
  have set := valid.setCell resident cell
  rw [NodeWait.register]
  split
  next matched =>
    unfold claim WaitSlot.claim
    split
    next wait claimed =>
      split at claimed
      next free =>
        cases claimed
        cases resident with
        | false =>
            refine ⟨fun _ _ => ?_, fun isResident => ?_⟩
            · have known : (node.wait.setCell false cell).primary = some cell := matched
              simp [known]
            · have kind := low.kind
              exact (kinds.2.2.2 (kind.symm.trans isResident)).elim
        | true =>
            have kind := low.kind_or Active.resident_and_mask
            refine ⟨fun _ isPrimary => ?_, fun _ => ?_⟩
            · exact (kinds.1 (kind.symm.trans isPrimary)).elim
            · have known : (node.wait.setCell true cell).resident = some cell := matched
              simp [known]
      next => cases claimed
    next => exact set
  next =>
    split
    next => exact set
    next notResident =>
      unfold registerFallback
      split
      next room =>
        have kind := (Active.low_of_lt room).kind_or Active.fallback_and_mask
        unfold WaitSlot.claim
        dsimp only
        split
        next wait claimed =>
          split at claimed
          next free =>
            cases claimed
            exact ⟨fun _ isPrimary => (kinds.2.1 (kind.symm.trans isPrimary)).elim,
              fun isResident => (kinds.2.2.1 (kind.symm.trans isResident)).elim⟩
          next => cases claimed
        next => exact ⟨set.primary, set.resident⟩
      next => exact set

/-- Dropping a subscription of a valid node leaves a valid node. -/
theorem Valid.unregister {node : NodeWait} (valid : node.Valid) (active : Active) :
    (node.unregister active).Valid := by
  have cleared : ∀ wait : WaitSlot, node.wait.release active = some wait →
      wait.active = 0#64 := by
    intro wait released
    unfold WaitSlot.release at released
    split at released
    next => cases released; rfl
    next => cases released
  have differ : Active.kind 0#64 ≠ Active.resident := by decide
  unfold NodeWait.unregister
  split
  next => exact valid
  next wait released =>
    have isFree := cleared wait released
    split
    next =>
      exact ⟨fun nonzero => (nonzero isFree).elim,
        fun isResident => (differ (isFree ▸ isResident)).elim⟩
    next =>
      exact ⟨fun nonzero => (nonzero isFree).elim,
        fun isResident => (differ (isFree ▸ isResident)).elim⟩

/-! ## What a rejection leaves -/

/-- The slot word, the fallback entry and the wait that a canceller would select are as
before. -/
structure Intact (alive : Nat → Bool) (before after : NodeWait) : Prop where
  active : after.wait.active = before.wait.active
  fallback : after.fallback = before.fallback
  selected : after.activeWait alive = before.activeWait alive

/-- The registration reaches the fallback table while the slot is taken. -/
def Reaches (node : NodeWait) (resident : Bool) (cell : Nat) : Prop :=
  resident = false ∧ (∃ primary, node.wait.primary = some primary ∧ primary ≠ cell) ∧
    node.epoch + 1 < 2 ^ 62 ∧ node.wait.active ≠ 0#64

/-- The node's slot is held by a subscription of its fallback entry. -/
def Entrusted (node : NodeWait) : Prop :=
  node.wait.active.kind = Active.fallback ∧
    ∃ token cell, node.fallback = some ⟨some token, some cell⟩

/-- Caching a cell in an empty place changes nothing that a canceller finds. -/
theorem activeWait_setCell {node : NodeWait} (valid : node.Valid) (alive : Nat → Bool)
    (resident : Bool) (cell : Nat) :
    { node with wait := node.wait.setCell resident cell }.activeWait alive =
      node.activeWait alive := by
  have differ : Active.resident ≠ 0#64 := by decide
  by_cases free : node.wait.active = 0#64
  · cases resident <;> simp [activeWait, WaitSlot.setCell, free]
  by_cases isPrimary : node.wait.active.kind = 0#64
  · obtain ⟨known, found⟩ := Option.ne_none_iff_exists'.1 (valid.primary free isPrimary)
    cases resident <;> simp [activeWait, WaitSlot.setCell, isPrimary, found]
  by_cases isResident : node.wait.active.kind = Active.resident
  · obtain ⟨known, found⟩ := Option.ne_none_iff_exists'.1 (valid.resident isResident)
    cases resident <;> simp [activeWait, WaitSlot.setCell, isResident, differ, found]
  · cases resident <;> simp [activeWait, WaitSlot.setCell, isPrimary, isResident]

theorem intact_setCell {node : NodeWait} (valid : node.Valid) (alive : Nat → Bool)
    (resident : Bool) (cell : Nat) :
    Intact alive node { node with wait := node.wait.setCell resident cell } where
  active := by cases resident <;> rfl
  fallback := rfl
  selected := activeWait_setCell valid alive resident cell

/-- Whichever cell was cached, the new one is. -/
theorem cached_eq (cached : Option Nat) (cell : Nat) :
    (if cached = some cell then cached else some cell) = some cell := by
  split
  next same => exact same
  next => rfl

theorem register_reaches {node : NodeWait} {resident : Bool} {cell : Nat}
    (reaches : node.Reaches resident cell) (token : ParkToken) :
    node.register resident token cell = (.error concurrentWaitFault,
      ⟨node.wait, some ⟨none, some cell⟩, node.epoch + 1⟩) := by
  obtain ⟨rfl, ⟨primary, known, differ⟩, room, taken⟩ := reaches
  have kept : node.wait.setCell false cell = node.wait :=
    WaitSlot.setCell_known (show node.wait.cell false = some primary from known) cell
  have unmatched : ¬ node.wait.cell false = some cell := by
    rw [WaitSlot.cell, if_neg Bool.false_ne_true, known]
    simpa using differ
  have refused : ∀ active, node.wait.claim active = none := fun active => if_neg taken
  simp only [register, kept, unmatched, if_false, Bool.false_eq_true, registerFallback, room,
    if_true, refused, cached_eq]

/-- Every other rejection only caches a cell. -/
theorem register_error {node node' : NodeWait} {resident : Bool} {token : ParkToken}
    {cell : Nat} {fault : String}
    (rejected : node.register resident token cell = (.error fault, node'))
    (apart : ¬ node.Reaches resident cell) :
    node' = { node with wait := node.wait.setCell resident cell } := by
  unfold register at rejected
  dsimp only at rejected
  split at rejected
  next =>
    unfold claim at rejected
    split at rejected
    next => cases rejected
    next => cases rejected; rfl
  next unmatched =>
    split at rejected
    next => cases rejected; rfl
    next shared =>
      have isShared : resident = false := by simpa using shared
      subst isShared
      unfold registerFallback at rejected
      split at rejected
      next room =>
        dsimp only at rejected
        split at rejected
        next => cases rejected
        next refused =>
          -- The slot was taken, so the table was reached.
          have taken : node.wait.active ≠ 0#64 := by
            intro free
            simp [WaitSlot.claim, WaitSlot.setCell, free] at refused
          cases known : node.wait.primary with
          | none => simp [WaitSlot.cell, WaitSlot.setCell, known] at unmatched
          | some primary =>
              refine (apart ⟨rfl, ⟨primary, known, ?_⟩, room, taken⟩).elim
              rintro rfl
              simp [WaitSlot.cell, WaitSlot.setCell, known] at unmatched
      next => cases rejected; rfl

/-- A rejection leaves the slot word, the fallback entry and the selected wait alone exactly
when it does not reach the fallback table with the slot taken, or finds an idle entry for
its own cell there; and it leaves the selected wait alone exactly when the slot that it
finds taken is not held by the fallback entry. -/
theorem rejected_registration {node : NodeWait} (valid : node.Valid) (alive : Nat → Bool)
    (resident : Bool) (token : ParkToken) (cell : Nat) :
    ((∀ fault node', node.register resident token cell = (.error fault, node') →
        Intact alive node node') ↔
      (node.Reaches resident cell → node.fallback = some ⟨none, some cell⟩)) ∧
    ((∀ fault node', node.register resident token cell = (.error fault, node') →
        node'.wait.active = node.wait.active ∧
          node'.activeWait alive = node.activeWait alive) ↔
      ¬ (node.Reaches resident cell ∧ node.Entrusted)) := by
  have untouched : ¬ node.Reaches resident cell → ∀ fault node',
      node.register resident token cell = (.error fault, node') → Intact alive node node' := by
    intro apart fault node' rejected
    rw [register_error rejected apart]
    exact intact_setCell valid alive resident cell
  refine ⟨⟨fun intact reaches => ?_, fun idle fault node' rejected => ?_⟩,
    ⟨?_, fun apart fault node' rejected => ?_⟩⟩
  · exact (intact _ _ (register_reaches reaches token)).fallback.symm
  · by_cases reaches : node.Reaches resident cell
    · rw [register_reaches reaches token] at rejected
      cases rejected
      refine ⟨rfl, (idle reaches).symm, ?_⟩
      simp [activeWait, idle reaches]
    · exact untouched reaches fault node' rejected
  · rintro kept ⟨reaches, isFallback, token', cell', held⟩
    have same := (kept _ _ (register_reaches reaches token)).2
    simp [activeWait, isFallback, reaches.2.2.2, held] at same
  · by_cases reaches : node.Reaches resident cell
    · rw [register_reaches reaches token] at rejected
      cases rejected
      refine ⟨rfl, ?_⟩
      by_cases isFallback : node.wait.active.kind = Active.fallback
      · have idle : ∀ token cell, node.fallback ≠ some ⟨some token, some cell⟩ :=
          fun token cell held => apart ⟨reaches, isFallback, token, cell, held⟩
        -- Neither entry selects a wait.
        simp only [activeWait, isFallback, ne_eq, not_true_eq_false, if_false]
      · simp only [activeWait, isFallback, ne_eq, not_false_eq_true, if_true]
    · have intact := untouched reaches fault node' rejected
      exact ⟨intact.active, intact.selected⟩

/-- The first cell is the primary one, a second cell is subscribed through the fallback
table, and the rejection of a third leaves nothing to select. -/
theorem rejection_forgets :
    ∃ node : NodeWait, node.Valid ∧
      (node.register false ⟨2, 1⟩ 2).1 = .error concurrentWaitFault ∧
      (node.register false ⟨2, 1⟩ 2).2.fallback ≠ node.fallback ∧
      node.activeWait (fun _ => true) = some (⟨1, 1⟩, 1) ∧
      (node.register false ⟨2, 1⟩ 2).2.activeWait (fun _ => true) = none := by
  have first := valid_new.register false ⟨0, 1⟩ (by decide) 0
  have second := (first.unregister 1#64).register false ⟨1, 1⟩ (by decide) 1
  exact ⟨_, second, by decide, by decide, by decide, by decide⟩

/-- The second registration of the same cell as the primary is rejected without a trace. -/
theorem rejected_registration_primary :
    ∃ node : NodeWait, node.Valid ∧ (node.register false ⟨0, 2⟩ 0).1 =
        .error concurrentWaitFault ∧
      ((∀ fault node', node.register false ⟨0, 2⟩ 0 = (.error fault, node') →
          Intact (fun _ => true) node node') ↔
        (node.Reaches false 0 → node.fallback = some ⟨none, some 0⟩)) := by
  have first := valid_new.register false ⟨0, 1⟩ (by decide) 0
  exact ⟨_, first, by decide,
    (rejected_registration first (fun _ => true) false ⟨0, 2⟩ 0).1⟩

end NodeWait

/-! ## Registrations in the domain -/

variable {ι τ ρ η : Type}

/-- What registrations on `node` see of the domain. -/
def Domain.nodeWait (domain : Domain ι τ ρ η) (node : Nat) : NodeWait :=
  ⟨domain.slots node, domain.fallbackWaits node, domain.fallbackEpoch⟩

/-- How the outcome of a registration shows in the call of its thread. -/
def Registration.Ends (registration : Registration) :
    Except String Active → Call → Prop
  | .error fault, call => call = .rest (some (.fault fault))
  | .ok active, call => ∃ subscription : Subscription,
      subscription.active = active ∧ call = .registering registration (.check subscription)

theorem fallbackSection_spec (domain : Domain ι τ ρ η) (registration : Registration) :
    let result := (domain.nodeWait registration.node).registerFallback registration.token
      registration.cell
    (fallbackSection domain registration).1.nodeWait registration.node = result.2 ∧
      registration.Ends result.1 (fallbackSection domain registration).2 := by
  intro result
  have resultEq : result = NodeWait.registerFallback _ _ _ := rfl
  by_cases room : domain.fallbackEpoch + 1 < 2 ^ 62
  · have nodeRoom : (domain.nodeWait registration.node).epoch + 1 < 2 ^ 62 := room
    rw [NodeWait.registerFallback, if_pos nodeRoom] at resultEq
    rw [fallbackSection, if_pos room]
    cases claimed : (domain.slots registration.node).claim
        (Active.fallback ||| BitVec.ofNat 64 (domain.fallbackEpoch + 1)) with
    | none =>
        simp [resultEq, Domain.nodeWait, claimed, Registration.Ends, Domain.setFallback]
        exact (NodeWait.cached_eq _ _).symm
    | some slot =>
        simp [resultEq, Domain.nodeWait, claimed, Registration.Ends, Domain.setFallback,
          Domain.setSlot, Domain.subscribe, Domain.subscription]
        exact (NodeWait.cached_eq _ _).symm
  · have noRoom : ¬ (domain.nodeWait registration.node).epoch + 1 < 2 ^ 62 := room
    rw [NodeWait.registerFallback, if_neg noRoom] at resultEq
    rw [fallbackSection, if_neg room, resultEq]
    exact ⟨rfl, rfl⟩

variable [DecidableEq ι] [DecidableEq τ] [DecidableEq ρ] [DecidableEq η]

/-- A step of a registration. -/
def Registers (thread : ι) (choice : Wait.Choice τ ρ η)
    (before after : Domain ι τ ρ η × Call) : Prop :=
  ∃ registration stage returned, before.2 = .registering registration stage ∧
    registerStep thread choice before.1 registration stage = some (after.1, after.2, returned)

/-- The first steps cache the cell, where no cell is cached. -/
theorem registers_cache (thread : ι) (choice : Wait.Choice τ ρ η) (domain : Domain ι τ ρ η)
    (registration : Registration) :
    ∃ domain', Relation.ReflTransGen (Registers thread choice)
        (domain, .registering registration .peek) (domain', .registering registration .compare) ∧
      domain'.nodeWait registration.node =
        ⟨(domain.slots registration.node).setCell registration.resident registration.cell,
          domain.fallbackWaits registration.node, domain.fallbackEpoch⟩ := by
  cases known : (domain.slots registration.node).cell registration.resident with
  | none =>
      have peeked : Registers thread choice (domain, .registering registration .peek)
          (domain, .registering registration .set) :=
        ⟨registration, .peek, none, rfl, by simp [registerStep, known]⟩
      refine ⟨_, .tail (.single peeked) ⟨registration, .set, none, rfl, rfl⟩, ?_⟩
      simp [Domain.nodeWait]
  | some cell =>
      refine ⟨domain, .single ⟨registration, .peek, none, rfl,
        by simp [registerStep, known]⟩, ?_⟩
      rw [WaitSlot.setCell_known known]
      rfl

/-- The steps of a registration that nothing interrupts are the function above. -/
theorem register_alone (thread : ι) (choice : Wait.Choice τ ρ η) (domain : Domain ι τ ρ η)
    (registration : Registration) :
    let result := (domain.nodeWait registration.node).register registration.resident
      registration.token registration.cell
    ∃ domain' call, Relation.ReflTransGen (Registers thread choice)
        (domain, .registering registration .peek) (domain', call) ∧
      domain'.nodeWait registration.node = result.2 ∧ registration.Ends result.1 call := by
  intro result
  obtain ⟨cached, runs, cachedWait⟩ := registers_cache thread choice domain registration
  have waitEq : cached.slots registration.node = (domain.slots registration.node).setCell
      registration.resident registration.cell := congrArg NodeWait.wait cachedWait
  have fallbackEq : cached.fallbackWaits registration.node =
      domain.fallbackWaits registration.node := congrArg NodeWait.fallback cachedWait
  have epochEq : cached.fallbackEpoch = domain.fallbackEpoch :=
    congrArg NodeWait.epoch cachedWait
  have resultEq : result = if (cached.slots registration.node).cell registration.resident =
        some registration.cell then
      (cached.nodeWait registration.node).claim registration.active
    else if registration.resident then
      (.error residentWaitFault, cached.nodeWait registration.node)
    else (cached.nodeWait registration.node).registerFallback registration.token
      registration.cell := by
    rw [waitEq, cachedWait]
    rfl
  by_cases matched : (cached.slots registration.node).cell registration.resident =
      some registration.cell
  · -- The slot's own cell claims the word.
    rw [if_pos matched] at resultEq
    have compared : Registers thread choice (cached, .registering registration .compare)
        (cached, .registering registration (.claim registration.active)) :=
      ⟨registration, .compare, none, rfl, by simp [registerStep, matched]⟩
    cases claimed : (cached.slots registration.node).claim registration.active with
    | none =>
        refine ⟨cached, _, (runs.tail compared).tail
          ⟨registration, _, none, rfl, by simp only [registerStep, claimed]; rfl⟩, ?_, ?_⟩
        · simp [resultEq, NodeWait.claim, Domain.nodeWait, claimed]
        · simp [resultEq, NodeWait.claim, Domain.nodeWait, claimed, Registration.Ends]
    | some slot =>
        refine ⟨_, _, (runs.tail compared).tail
          ⟨registration, _, none, rfl, by simp only [registerStep, claimed]; rfl⟩, ?_, ?_⟩
        · simp [resultEq, NodeWait.claim, Domain.nodeWait, claimed, Domain.setSlot,
            Domain.subscribe]
        · simp [resultEq, NodeWait.claim, Domain.nodeWait, claimed, Registration.Ends,
            Domain.subscription]
  rw [if_neg matched] at resultEq
  by_cases isResident : registration.resident = true
  · rw [if_pos isResident] at resultEq
    refine ⟨cached, .rest (some (.fault residentWaitFault)), runs.tail ⟨registration, .compare,
      none, rfl, by rw [registerStep, if_neg matched, if_pos isResident]⟩, ?_, ?_⟩
    · rw [resultEq]
    · rw [resultEq]
      rfl
  · rw [if_neg isResident] at resultEq
    have compared : Registers thread choice (cached, .registering registration .compare)
        (cached, .registering registration .fallback) :=
      ⟨registration, .compare, none, rfl,
        by rw [registerStep, if_neg matched, if_neg isResident]⟩
    refine ⟨_, _, (runs.tail compared).tail ⟨registration, .fallback, none, rfl, rfl⟩, ?_⟩
    rw [resultEq]
    exact fallbackSection_spec cached registration

/-- A step of a cancellation. -/
def Cancels (thread : ι) (choice : Wait.Choice τ ρ η)
    (before after : Domain ι τ ρ η × Call) : Prop :=
  ∃ root dropped marked stage, before.2 = .cancelling root dropped marked stage ∧
    cancelStep thread choice before.1 root dropped marked stage = some after

/-- The steps of a canceller at one node that nothing interrupts find what `active_wait`
selects. -/
theorem visit_alone (thread : ι) (choice : Wait.Choice τ ρ η) (domain : Domain ι τ ρ η)
    (root : Nat) (dropped : List Subscription) (marked nodes : List Nat) (node : Nat)
    (found : List Found) :
    ∃ domain', Relation.ReflTransGen (Cancels thread choice)
      (domain, .cancelling root dropped marked (.visit (node :: nodes) found))
      (domain', .cancelling root dropped marked (.visit nodes (found ++
        ((domain.nodeWait node).activeWait fun _ => true).toList.map fun selected =>
          ⟨node, selected.1, selected.2⟩))) := by
  by_cases free : (domain.slots node).active = 0#64
  · refine ⟨domain.settle thread node, .single ⟨root, dropped, marked, _, rfl, ?_⟩⟩
    simp [cancelStep, NodeWait.activeWait, Domain.nodeWait, free]
  by_cases isFallback : (domain.slots node).active.kind = Active.fallback
  · have visited : Cancels thread choice
        (domain, .cancelling root dropped marked (.visit (node :: nodes) found))
        (domain, .cancelling root dropped marked
          (.fallback (domain.slots node).active node nodes found)) :=
      ⟨root, dropped, marked, _, rfl, by simp [cancelStep, free, isFallback]⟩
    by_cases held : ∃ token cell, domain.fallbackWaits node = some ⟨some token, some cell⟩
    · obtain ⟨token, cell, entry⟩ := held
      refine ⟨domain, .tail (.single visited) ⟨root, dropped, marked, _, rfl, ?_⟩⟩
      simp [cancelStep, NodeWait.activeWait, Domain.nodeWait, free, isFallback, entry]
    · have idle : ∀ token cell,
          domain.fallbackWaits node ≠ some ⟨some token, some cell⟩ :=
        fun token cell entry => held ⟨token, cell, entry⟩
      refine ⟨domain.settle thread node,
        .tail (.single visited) ⟨root, dropped, marked, _, rfl, ?_⟩⟩
      simp [cancelStep, NodeWait.activeWait, Domain.nodeWait, free, isFallback]
  · have visited : Cancels thread choice
        (domain, .cancelling root dropped marked (.visit (node :: nodes) found))
        (domain, .cancelling root dropped marked
          (.lookup (domain.slots node).active node nodes found)) :=
      ⟨root, dropped, marked, _, rfl, by simp [cancelStep, free, isFallback]⟩
    have selected : (domain.nodeWait node).activeWait (fun _ => true) =
        (if (domain.slots node).active.kind = 0#64 then (domain.slots node).primary
          else if (domain.slots node).active.kind = Active.resident then
            (domain.slots node).resident
          else none).map fun cell => (⟨cell, (domain.slots node).active.generation⟩, cell) := by
      unfold NodeWait.activeWait Domain.nodeWait
      dsimp only
      rw [if_neg free, if_pos isFallback]
      split <;> simp_all
    cases known : (if (domain.slots node).active.kind = 0#64 then (domain.slots node).primary
        else if (domain.slots node).active.kind = Active.resident then
          (domain.slots node).resident
        else none) with
    | none =>
        refine ⟨domain.settle thread node,
          .tail (.single visited) ⟨root, dropped, marked, _, rfl, ?_⟩⟩
        simp [cancelStep, known, selected]
    | some cell =>
        refine ⟨domain, .tail (.single visited) ⟨root, dropped, marked, _, rfl, ?_⟩⟩
        simp [cancelStep, known, selected]

end VThread.Inherited
