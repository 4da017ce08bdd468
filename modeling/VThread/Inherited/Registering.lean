import VThread.Inherited.Cancelling

/-!
# Steps of a registration and of a drop

A registration finds the slot of its own token free, claims it, and selects its wait
itself when the token is cancelled.  Only the drop releases the slot.
-/

namespace VThread.Inherited

open VThread.Lib VThread.Wait VThread.Cancellation

variable {ι τ ρ η : Type}

/-! ## The cells of a slot -/

namespace WaitSlot

variable {slot : WaitSlot} {resident : Bool} {cell : Nat}

@[simp] theorem setCell_active : (slot.setCell resident cell).active = slot.active := by
  cases resident <;> rfl

theorem setCell_primary {known : Nat} (set : slot.primary = some known) :
    (slot.setCell resident cell).primary = some known := by
  cases resident
  · show slot.primary.or (some cell) = some known
    rw [set, Option.some_or]
  · exact set

theorem setCell_resident {known : Nat} (set : slot.resident = some known) :
    (slot.setCell resident cell).resident = some known := by
  cases resident
  · exact set
  · show slot.resident.or (some cell) = some known
    rw [set, Option.some_or]

theorem claim_free {active : Active} (free : slot.active = 0#64) :
    slot.claim active = some { slot with active } := if_pos free

end WaitSlot

/-- A write of a slot that keeps the cells it has keeps every route. -/
theorem Domain.Route.update {domain : Domain ι τ ρ η} {subscription : Subscription}
    (route : domain.Route subscription) (node : Nat) (slot : WaitSlot)
    (primary : ∀ cell, (domain.slots node).primary = some cell → slot.primary = some cell)
    (resident : ∀ cell, (domain.slots node).resident = some cell → slot.resident = some cell)
    {domain' : Domain ι τ ρ η} (slots : domain'.slots = Function.update domain.slots node slot) :
    domain'.Route subscription := by
  rw [Domain.Route, slots]
  by_cases equal : subscription.node = node
  · rw [equal, Function.update_self]
    rw [Domain.Route, equal] at route
    exact route.imp (fun both => ⟨both.1, both.2.1, primary _ both.2.2⟩)
      (Or.imp_left fun both => ⟨both.1, both.2.1, resident _ both.2.2⟩)
  · rw [Function.update_of_ne equal]
    exact route

/-! ## Words of a claim -/

theorem Registration.active_kind (registration : Registration)
    (bound : registration.token.generation < 2 ^ 62) :
    registration.active.kind = (if registration.resident then Active.resident else 0#64) ∧
      registration.active.generation = registration.token.generation := by
  have low := Active.low_of_lt bound
  rw [Registration.active]
  split
  · exact ⟨low.kind_or Active.resident_and_mask,
      (low.generation_or Active.resident_and_mask).trans (Active.toNat_ofNat_of_lt bound)⟩
  · exact ⟨low.kind, low.generation.trans (Active.toNat_ofNat_of_lt bound)⟩

theorem Registration.active_ne_zero (registration : Registration)
    (bound : registration.token.generation < 2 ^ 62)
    (positive : 0 < registration.token.generation) : registration.active ≠ 0#64 := by
  intro zero
  obtain ⟨-, generation⟩ := registration.active_kind bound
  rw [zero] at generation
  have none : Active.generation 0#64 = 0 := by decide
  omega

variable {owner : Nat → ι} {thread : ι} {domain domain' : Domain ι τ ρ η}
variable {held : List Subscription}

section Register

variable {registration : Registration} {stage : RegisterStage}

theorem Fact.unsubscribed (fact : Fact owner thread domain ⟨held, .registering registration stage⟩)
    (free : domain.subscribed registration.node = none) :
    ∀ subscription ∈ held, subscription.node ≠ registration.node := by
  intro subscription member equal
  have subscribed := (fact.held subscription member).subscribed
  rw [equal, free] at subscribed
  cases subscribed

/-- A registration that has not claimed its slot goes on. -/
theorem register_quiet {stage' : RegisterStage}
    (fact : Fact owner thread domain ⟨held, .registering registration stage⟩)
    (unmade : (Call.registering registration stage).subscription? = none)
    (still : (Call.registering registration stage).cell? = none)
    (unmade' : (Call.registering registration stage').subscription? = none)
    (stageFact : RegisterFact thread domain registration stage') :
    Fact owner thread domain ⟨held, .registering registration stage'⟩ := by
  obtain ⟨owner_eq, wait, positive, issued, late, -⟩ := fact.call
  apply fact.goOn rfl rfl (fun _ passed => passed) (fun _ member => member)
  case made => rw [unmade, unmade']
  case nodes => exact fact.nodes_strong
  case debts => exact fact.debts
  case resting => exact fun cell _ => fact.resting cell (by rw [still]; exact nofun)
  case callFact => exact ⟨owner_eq, wait, positive, issued, late, stageFact⟩

/-- A registration ends without a subscription. -/
theorem register_fails {last : Option Outcome}
    (fact : Fact owner thread domain ⟨held, .registering registration stage⟩)
    (other : last ≠ some (.fault concurrentWaitFault))
    (unmade : (Call.registering registration stage).subscription? = none)
    (still : (Call.registering registration stage).cell? = none) :
    Fact owner thread domain ⟨held, .rest last⟩ := by
  apply fact.goOn rfl rfl (fun _ passed => passed) (fun _ member => member)
  case made => rw [unmade]; rfl
  case nodes => exact nofun
  case debts => exact fact.debts
  case resting => exact fun cell _ => fact.resting cell (by rw [still]; exact nofun)
  case callFact => exact other

variable [DecidableEq ι] [DecidableEq τ] [DecidableEq ρ] [DecidableEq η]

/-- A generation that a begin has returned fits a slot. -/
theorem generation_lt (inv : CellsInv domain.cells) {cell generation : Nat}
    (issued : generation ≤ (domain.cells cell).shared.issued) : generation < 2 ^ 62 := by
  obtain ⟨reachable, -⟩ := inv cell
  have bound := reachable_bounded reachable
  have below := (reachable_inv reachable).1.issued_eq
  have small : maxGeneration < 2 ^ 62 := by decide
  omega

/-- `OnceLock::set` of the thread's own slot. -/
theorem set_good (inv : domain.Inv)
    (fact : Fact owner thread domain ⟨held, .registering registration .set⟩) :
    Good owner thread domain
      (domain.setSlot registration.node ((domain.slots registration.node).setCell
        registration.resident registration.cell))
      ⟨held, .registering registration .compare⟩ := by
  obtain ⟨owner_eq, wait, positive, issued, late, free⟩ := fact.call
  refine ⟨⟨inv.graph, inv.cells, ⟨fun subscription member => ?_, inv.slots.dropped,
    fun node unsubscribed => ?_, fun node subscription subscribed => ?_⟩, inv.settled⟩, ?_, ?_,
    fun _ member => member⟩
  · obtain ⟨born, serial, nonzero, least, bound, route⟩ := inv.slots.registered subscription member
    exact ⟨born, serial, nonzero, least, bound, route.update _ _
      (fun _ => WaitSlot.setCell_primary) (fun _ => WaitSlot.setCell_resident) rfl⟩
  · have empty := inv.slots.empty node unsubscribed
    show (Function.update domain.slots _ _ node).active = _
    by_cases equal : node = registration.node
    · rw [equal, Function.update_self, WaitSlot.setCell_active, ← equal]
      exact empty
    · rwa [Function.update_of_ne equal]
  · obtain ⟨node_eq, registered, undropped, active_eq, entry⟩ :=
      inv.slots.subscribed node subscription subscribed
    refine ⟨node_eq, registered, undropped, ?_, entry⟩
    show (Function.update domain.slots _ _ node).active = _
    have ne : node ≠ registration.node := by
      rintro rfl
      have same := subscribed.symm.trans free
      cases same
    rwa [Function.update_of_ne ne]
  · refine { Frame.refl owner thread domain with
      slots := fun node born foreign => Function.update_of_ne ?_ .. }
    rintro rfl
    exact foreign owner_eq
  · apply fact.goOn
    case subscribed => rfl
    case registering => rfl
    case made => rfl
    case passed => exact fun _ passed => passed
    case strong => exact fun _ member => member
    case nodes => exact fact.nodes_strong
    case debts => exact fact.debts
    case resting => exact fun cell _ => fact.resting cell nofun
    case callFact => exact ⟨owner_eq, wait, positive, issued, late, free⟩

/-- The registration claims its slot, in the fallback table or not. -/
theorem claim_good (inv : domain.Inv)
    (fact : Fact owner thread domain ⟨held, .registering registration stage⟩)
    (free : domain.subscribed registration.node = none)
    (unmade : (Call.registering registration stage).subscription? = none)
    (still : (Call.registering registration stage).cell? = none)
    {active : Active} (nonzero : active ≠ 0#64) (epoch : Nat)
    (waits : Nat → Option FallbackWait)
    (others : ∀ node, node ≠ registration.node → waits node = domain.fallbackWaits node)
    (route : domain.Route (domain.subscription registration active))
    (entry : active.kind = Active.fallback →
      waits registration.node = some ⟨some registration.token, some registration.token.wait⟩) :
    Good owner thread domain
      (({ domain with fallbackEpoch := epoch, fallbackWaits := waits }.setSlot registration.node
        { domain.slots registration.node with active }).subscribe
          (domain.subscription registration active))
      ⟨held, .registering registration (.check (domain.subscription registration active))⟩ := by
  obtain ⟨owner_eq, wait, positive, issued, late, -⟩ := fact.call
  have apart := fact.unsubscribed free
  have strong := fact.nodes_strong registration.node (List.mem_singleton.2 rfl)
  have born := inv.born_of_strong strong
  have kept : ∀ subscription, domain.Route subscription →
      (({ domain with fallbackEpoch := epoch, fallbackWaits := waits }.setSlot registration.node
        { domain.slots registration.node with active }).subscribe
          (domain.subscription registration active)).Route subscription :=
    fun subscription old => old.update registration.node
      { domain.slots registration.node with active } (fun _ set => set) (fun _ set => set) rfl
  refine ⟨⟨inv.graph, inv.cells, ⟨fun subscription member => ?_, fun subscription member => ?_,
    fun node unsubscribed => ?_, fun node subscription subscribed => ?_⟩,
    fun node subscription cancelled subscribed => ?_⟩, ?_, ?_, fun _ member => member⟩
  · rcases List.mem_cons.1 member with rfl | member
    · refine ⟨born, Nat.lt_succ_self _, nonzero, positive, ?_, kept _ route⟩
      show registration.token.generation ≤ (domain.cells registration.token.wait).shared.issued
      rw [wait]
      exact issued
    · obtain ⟨born, serial, nonzero, least, bound, old⟩ := inv.slots.registered subscription member
      exact ⟨born, Nat.lt_succ_of_lt serial, nonzero, least, bound, kept _ old⟩
  · exact List.mem_cons_of_mem _ (inv.slots.dropped subscription member)
  · have ne : node ≠ registration.node := by
      rintro rfl
      have claimed : Function.update domain.subscribed registration.node _ registration.node =
          none := unsubscribed
      rw [Function.update_self] at claimed
      cases claimed
    have old : Function.update domain.subscribed registration.node _ node = _ := unsubscribed
    rw [Function.update_of_ne ne] at old
    show (Function.update domain.slots _ _ node).active = _
    rw [Function.update_of_ne ne]
    exact inv.slots.empty node old
  · have at_node : Function.update domain.subscribed registration.node _ node = _ := subscribed
    by_cases equal : node = registration.node
    · subst equal
      rw [Function.update_self] at at_node
      cases at_node
      refine ⟨rfl, List.mem_cons_self .., fun old => ?_, ?_, entry⟩
      · exact (inv.slots.registered _ (inv.slots.dropped _ old)).serial.false
      · show (Function.update domain.slots _ _ registration.node).active = _
        rw [Function.update_self]
        rfl
    · rw [Function.update_of_ne equal] at at_node
      obtain ⟨node_eq, registered, undropped, active_eq, oldEntry⟩ :=
        inv.slots.subscribed node subscription at_node
      refine ⟨node_eq, List.mem_cons_of_mem _ registered, undropped, ?_, fun kind => ?_⟩
      · show (Function.update domain.slots _ _ node).active = _
        rwa [Function.update_of_ne equal]
      · exact (others node equal).trans (oldEntry kind)
  · have at_node : Function.update domain.subscribed registration.node _ node = _ := subscribed
    by_cases equal : node = registration.node
    · left
      show Function.update _ _ _ node = _
      rw [equal]
      exact Function.update_self ..
    · rw [Function.update_of_ne equal] at at_node
      refine (inv.settled node subscription cancelled at_node).imp_left fun registering => ?_
      show Function.update _ _ _ node = _
      exact (Function.update_of_ne equal ..).trans registering
  · have own : ∀ node, owner node ≠ thread → node ≠ registration.node := by
      rintro node foreign rfl
      exact foreign owner_eq
    refine { Frame.refl owner thread domain with
      slots := fun node _ foreign => Function.update_of_ne (own node foreign) ..
      subscribed := fun node foreign => Function.update_of_ne (own node foreign) ..
      registering := fun node foreign => Function.update_of_ne (own node foreign) ..
      covers := fun node subscription _ _ covers other subscribed => ?_
      registrations := fun _ member => List.mem_cons_of_mem _ member }
    have at_node : Function.update domain.subscribed registration.node _ node = _ := subscribed
    by_cases equal : node = registration.node
    · right
      left
      show Function.update _ _ _ node = _
      rw [equal]
      exact Function.update_self ..
    · rw [Function.update_of_ne equal] at at_node
      refine (covers other at_node).imp_right (Or.imp_left fun registering => ?_)
      show Function.update _ _ _ node = _
      exact (Function.update_of_ne equal ..).trans registering
  · have elsewhere : ∀ subscription ∈ held, ∀ (value : Option Subscription),
        Function.update domain.subscribed registration.node value subscription.node =
          domain.subscribed subscription.node :=
      fun subscription member value => Function.update_of_ne (apart subscription member) ..
    refine ⟨fun subscription member => ?_, fact.late, fact.nodup, fun subscription member => ?_,
      fun node subscription own subscribed => ?_, fact.strong, fact.debts,
      fun cell _ => fact.resting cell (by rw [still]; exact nofun),
      owner_eq, wait, positive, issued, late, ?_⟩
    · obtain ⟨own, subscribed, returned⟩ := fact.held subscription member
      refine ⟨own, (elsewhere subscription member _).trans subscribed, ?_⟩
      exact (Function.update_of_ne (apart subscription member) ..).trans returned
    · intro equal
      have made : domain.subscription registration active = subscription := Option.some.inj equal
      exact apart subscription member (by rw [← made]; rfl)
    · have at_node : Function.update domain.subscribed registration.node _ node = _ := subscribed
      by_cases equal : node = registration.node
      · rw [equal, Function.update_self] at at_node
        exact .inr at_node
      · rw [Function.update_of_ne equal] at at_node
        rcases fact.owned node subscription own at_node with member | made
        · exact .inl member
        · rw [unmade] at made
          cases made
    · exact ⟨Function.update_self .., Function.update_self .., rfl, rfl, rfl⟩

/-- The registration returns its subscription. -/
theorem finish_good {subscription : Subscription} (inv : domain.Inv)
    (fact : Fact owner thread domain
      ⟨held, .registering registration (.check subscription)⟩)
    (passed : domain.cancelled registration.node = true →
      Passed domain.cells subscription.token) :
    Good owner thread domain (domain.register subscription)
      ⟨subscription :: held, .rest (some .subscribed)⟩ := by
  obtain ⟨owner_eq, wait, positive, issued, late, made⟩ := fact.call
  have node_eq := made.node_eq
  have subscribed : domain.subscribed subscription.node = some subscription := by
    rw [node_eq]
    exact made.subscribed
  have strong := fact.nodes_strong registration.node (List.mem_singleton.2 rfl)
  refine ⟨⟨inv.graph, inv.cells,
    inv.slots.mono (Nat.le_refl _) (fun _ => Nat.le_refl _) rfl rfl rfl rfl rfl,
    fun node other cancelled at_node => ?_⟩, ?_, ?_, fun _ member => member⟩
  · by_cases equal : node = subscription.node
    · subst equal
      have same := subscribed.symm.trans at_node
      cases same
      rw [node_eq] at cancelled
      exact .inr (.inl (passed cancelled))
    · refine (inv.settled node other cancelled at_node).imp_left fun registering => ?_
      exact (Function.update_of_ne equal ..).trans registering
  · refine { Frame.refl owner thread domain with
      covers := fun node other _ cancelled covers later at_node => ?_
      registering := fun node foreign => Function.update_of_ne ?_ .. }
    · by_cases equal : node = subscription.node
      · subst equal
        have same := subscribed.symm.trans at_node
        cases same
        rw [node_eq] at cancelled
        exact .inr (.inr (passed cancelled))
      · refine (covers later at_node).imp_right (Or.imp_left fun registering => ?_)
        exact (Function.update_of_ne equal ..).trans registering
    · rintro rfl
      rw [node_eq] at foreign
      exact foreign owner_eq
  · refine ⟨fun other member => ?_, fun other member isLate => ?_, ?_, fun _ _ => nofun,
      fun node other own at_node => ?_, fun node member => ?_, fact.debts,
      fun cell _ => fact.resting cell nofun, nofun⟩
    · rcases List.mem_cons.1 member with rfl | member
      · exact ⟨node_eq ▸ owner_eq, subscribed, Function.update_self ..⟩
      · obtain ⟨own, at_node, returned⟩ := fact.held other member
        refine ⟨own, at_node, ?_⟩
        by_cases equal : other.node = subscription.node
        · rw [equal]
          exact Function.update_self ..
        · exact (Function.update_of_ne equal ..).trans returned
    · rcases List.mem_cons.1 member with rfl | member
      · exact passed (late (made.late_eq ▸ isLate))
      · exact fact.late other member isLate
    · exact List.nodup_cons.2 ⟨fun member => fact.apart subscription member rfl, fact.nodup⟩
    · rcases fact.owned node other own at_node with member | same
      · exact .inl (List.mem_cons_of_mem _ member)
      · cases same
        exact .inl (List.mem_cons_self ..)
    · rcases List.mem_append.1 member with member | member
      · rcases List.mem_cons.1 member with rfl | member
        · exact node_eq ▸ strong
        · exact fact.strong node (List.mem_append_left _ member)
      · cases member

/-- A selection by a registration goes on, or the registration returns. -/
theorem select_register {subscription : Subscription} {choice : Wait.Choice τ ρ η}
    {pc : Wait.Pc τ ρ η} (inv : domain.Inv)
    (fact : Fact owner thread domain ⟨held, .registering registration stage⟩)
    (made : Made domain registration subscription)
    (has : (Call.registering registration stage).subscription? = some subscription)
    (ready : (∃ last, (domain.cells registration.cell).locals thread = .rest last) ∨
      domain.Runs thread registration.token registration.cell)
    (away : ∀ cell, cell ≠ registration.cell →
      ∃ last, (domain.cells cell).locals thread = .rest last)
    (taken : selectStep thread choice domain registration.token registration.cell =
      some (domain', pc)) :
    (∃ op stage, pc = .run op stage) ∧ Good owner thread domain domain'
        ⟨held, .registering registration (.selecting subscription)⟩ ∨
      (∃ last, pc = .rest last) ∧ Good owner thread domain (domain'.register subscription)
        ⟨subscription :: held, .rest (some .subscribed)⟩ := by
  obtain ⟨owner_eq, wait, positive, issued, late, -⟩ := fact.call
  obtain ⟨worked, result⟩ := selectStep_worked inv.cells wait issued ready taken
  have inv' := worked.inv inv
  have frame : Frame owner thread domain domain' := worked.framed inv.cells
  have issued' := Nat.le_trans issued (worked.issued inv.cells registration.cell)
  have elsewhere := worked.elsewhere
  have at_pc := worked.pc_eq
  obtain ⟨cells, rfl⟩ := worked.frame
  have made' : Made { domain with cells } registration subscription :=
    ⟨made.subscribed, made.registering, made.node_eq, made.token_eq, made.late_eq⟩
  have away' : ∀ cell, cell ≠ registration.cell →
      ∃ last, (cells cell).locals thread = .rest last := by
    intro cell ne
    have same : cells cell = domain.cells cell := elsewhere cell ne
    rw [same]
    exact away cell ne
  have next : ∀ stage', (Call.registering registration stage').subscription? =
      some subscription → (∀ cell, (Call.registering registration stage').cell? ≠ some cell →
        ∃ last, (cells cell).locals thread = .rest last) →
      RegisterFact thread { domain with cells } registration stage' →
        Fact owner thread { domain with cells } ⟨held, .registering registration stage'⟩ := by
    intro stage' has' resting stageFact
    apply fact.goOn
    case subscribed => rfl
    case registering => rfl
    case made => rw [has, has']
    case passed => exact frame.passed
    case strong => exact fun _ member => member
    case nodes => exact fact.nodes_strong
    case debts => exact fact.debts
    case resting => exact resting
    case callFact => exact ⟨owner_eq, wait, positive, issued', late, stageFact⟩
  rcases result with ⟨running, runs⟩ | ⟨⟨last, rfl⟩, passed⟩
  · refine .inl ⟨running, inv', frame, next _ rfl (fun cell other => ?_) ⟨made', runs⟩,
      fun _ member => member⟩
    exact away' cell fun equal => other (by rw [equal]; rfl)
  · refine .inr ⟨⟨last, rfl⟩, ?_⟩
    have resting : ∀ cell, ∃ last, (cells cell).locals thread = .rest last := by
      intro cell
      by_cases equal : cell = registration.cell
      · rw [equal]
        exact ⟨last, at_pc⟩
      · exact away' cell equal
    have checked := next (.check subscription) rfl (fun cell _ => resting cell) made'
    rw [← made.token_eq] at passed
    have good := finish_good inv' checked fun _ => passed
    exact ⟨good.inv, frame.trans good.frame, good.fact, good.strong⟩

/-- A step of the selection that a registration makes. -/
theorem register_selecting_good {subscription : Subscription} {choice : Wait.Choice τ ρ η}
    {call : Call} {returned : Option Subscription} (inv : domain.Inv)
    (fact : Fact owner thread domain ⟨held, .registering registration stage⟩)
    (made : Made domain registration subscription)
    (has : (Call.registering registration stage).subscription? = some subscription)
    (ready : (∃ last, (domain.cells registration.cell).locals thread = .rest last) ∨
      domain.Runs thread registration.token registration.cell)
    (away : ∀ cell, cell ≠ registration.cell →
      ∃ last, (domain.cells cell).locals thread = .rest last)
    (taken : registerStep thread choice domain registration (.select subscription) =
      some (domain', call, returned)) :
    Good owner thread domain domain' ⟨returned.toList ++ held, call⟩ := by
  rw [registerStep] at taken
  split at taken
  · cases taken
  · rename_i stepped
    cases taken
    rcases select_register inv fact made has ready away stepped with ⟨-, good⟩ | ⟨⟨_, equal⟩, -⟩
    · exact good
    · cases equal
  · rename_i stepped
    cases taken
    rcases select_register inv fact made has ready away stepped with
      ⟨⟨_, _, equal⟩, -⟩ | ⟨-, good⟩
    · cases equal
    · exact good
  · rename_i stepped
    rcases select_register inv fact made has ready away stepped with
      ⟨⟨_, _, equal⟩, -⟩ | ⟨⟨_, equal⟩, -⟩
    · cases equal
    · cases equal

/-- Every step of a registration. -/
theorem registerStep_good (inv : domain.Inv) {choice : Wait.Choice τ ρ η} {call : Call}
    {returned : Option Subscription}
    (fact : Fact owner thread domain ⟨held, .registering registration stage⟩)
    (taken : registerStep thread choice domain registration stage =
      some (domain', call, returned)) :
    Good owner thread domain domain' ⟨returned.toList ++ held, call⟩ := by
  obtain ⟨owner_eq, wait, positive, issued, late, stageFact⟩ := fact.call
  have bound := generation_lt inv.cells issued
  cases stage with
  | peek =>
      cases taken
      refine ⟨inv, .refl .., ?_, fun _ member => member⟩
      apply register_quiet fact rfl rfl
      · split <;> rfl
      · split <;> exact stageFact
  | set =>
      cases taken
      exact set_good inv fact
  | compare =>
      rw [registerStep] at taken
      split at taken
      · rename_i same
        cases taken
        exact ⟨inv, .refl .., register_quiet fact rfl rfl rfl ⟨stageFact, rfl, same⟩,
          fun _ member => member⟩
      split at taken
      · cases taken
        exact ⟨inv, .refl .., register_fails fact (by decide) rfl rfl, fun _ member => member⟩
      · rename_i resident
        cases taken
        refine ⟨inv, .refl .., register_quiet fact rfl rfl rfl ⟨stageFact, ?_⟩,
          fun _ member => member⟩
        exact Bool.eq_false_iff.2 resident
  | claim active =>
      obtain ⟨free, rfl, cell⟩ := stageFact
      have empty := inv.slots.empty registration.node free
      simp only [registerStep, WaitSlot.claim_free empty] at taken
      cases taken
      obtain ⟨kind, generation⟩ := registration.active_kind bound
      have route : domain.Route (domain.subscription registration registration.active) := by
        cases resident : registration.resident with
        | false =>
            rw [resident] at kind cell
            exact .inl ⟨kind, generation, cell.trans (congrArg some wait.symm)⟩
        | true =>
            rw [resident] at kind cell
            exact .inr (.inl ⟨kind, generation, cell.trans (congrArg some wait.symm)⟩)
      apply claim_good inv fact free rfl rfl (registration.active_ne_zero bound positive)
        domain.fallbackEpoch domain.fallbackWaits (fun _ _ => rfl) route
      intro fallback
      have notFallback : registration.active.kind ≠ Active.fallback := by
        rw [kind]
        split <;> decide
      exact (notFallback fallback).elim
  | fallback =>
      obtain ⟨free, notResident⟩ := stageFact
      have empty := inv.slots.empty registration.node free
      simp only [registerStep, fallbackSection, WaitSlot.claim_free empty] at taken
      split at taken
      · rename_i room
        cases taken
        have kind := (Active.low_of_lt room).kind_or Active.fallback_and_mask
        have nonzero : Active.fallback ||| BitVec.ofNat 64 (domain.fallbackEpoch + 1) ≠ 0#64 := by
          intro zero
          rw [zero] at kind
          revert kind
          decide
        have waits : Function.update domain.fallbackWaits registration.node
            (some ⟨some registration.token, some registration.cell⟩) registration.node =
              some ⟨some registration.token, some registration.token.wait⟩ := by
          rw [Function.update_self, wait]
        exact claim_good inv fact free rfl rfl nonzero _ _
          (fun node ne => Function.update_of_ne ne ..) (.inr (.inr kind)) fun _ => waits
      · cases taken
        exact ⟨inv, .refl .., register_fails fact (by decide) rfl rfl, fun _ member => member⟩
  | check =>
      rw [registerStep] at taken
      split at taken
      · cases taken
        refine ⟨inv, .refl .., ?_, fun _ member => member⟩
        apply fact.goOn rfl rfl (fun _ passed => passed) (fun _ member => member)
        case made => rfl
        case nodes => exact fact.nodes_strong
        case debts => exact fact.debts
        case resting => exact fun cell _ => fact.resting cell nofun
        case callFact => exact ⟨owner_eq, wait, positive, issued, late, stageFact⟩
      · rename_i live
        cases taken
        exact finish_good inv fact fun cancelled => (live cancelled).elim
  | select =>
      have resting := fun cell => fact.resting cell nofun
      exact register_selecting_good inv fact stageFact rfl (.inl (resting _))
        (fun cell _ => resting cell) taken
  | selecting =>
      obtain ⟨made, runs⟩ := stageFact
      exact register_selecting_good inv fact made rfl (.inr runs)
        (fun cell ne => fact.resting cell fun equal => ne (Option.some.inj equal).symm) taken

end Register

end VThread.Inherited
