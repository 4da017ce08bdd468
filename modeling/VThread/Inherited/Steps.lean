import VThread.Inherited.Registering

/-!
# All steps of a domain

Every step keeps the shared invariant, the facts of its thread and the frame of the
others; a node stays alive while a thread uses it.
-/

namespace VThread.Inherited

open VThread.Lib VThread.Wait VThread.Cancellation

variable {ι τ ρ η : Type} [DecidableEq ι] [DecidableEq τ] [DecidableEq ρ] [DecidableEq η]
variable {owner : Nat → ι} {thread : ι} {domain domain' : Domain ι τ ρ η}
variable {held : List Subscription}

/-! ## The drop of a subscription -/

section Drop

variable {subscription : Subscription} {stage : DropStage}

/-- The slot is released and the subscription is gone. -/
theorem release_good (inv : domain.Inv)
    (fact : Fact owner thread domain ⟨held, .dropping subscription stage⟩)
    (waits : Nat → Option FallbackWait)
    (others : ∀ node, node ≠ subscription.node → waits node = domain.fallbackWaits node) :
    Good owner thread domain
      (({ domain with fallbackWaits := waits }.setSlot subscription.node
        { domain.slots subscription.node with active := 0#64 }).unsubscribe subscription)
      ⟨held, .rest (some .done)⟩ := by
  obtain ⟨owner_eq, subscribed, returned⟩ := fact.call
  have holds := inv.slots.subscribed _ _ subscribed
  have apart : ∀ other ∈ held, other.node ≠ subscription.node := by
    intro other member equal
    have at_node := (fact.held other member).subscribed
    rw [equal] at at_node
    have same := subscribed.symm.trans at_node
    cases same
    exact fact.apart _ member rfl
  have elsewhere : ∀ node other, Function.update domain.subscribed subscription.node none node =
      some other → node ≠ subscription.node ∧ domain.subscribed node = some other := by
    intro node other at_node
    by_cases equal : node = subscription.node
    · rw [equal, Function.update_self] at at_node
      cases at_node
    · rw [Function.update_of_ne equal] at at_node
      exact ⟨equal, at_node⟩
  refine ⟨⟨inv.graph, inv.cells, ⟨fun other member => ?_, fun other member => ?_,
    fun node free => ?_, fun node other at_node => ?_⟩,
    fun node other cancelled at_node => ?_⟩, ?_, ?_, fun _ member => member⟩
  · obtain ⟨born, serial, nonzero, least, bound, route⟩ := inv.slots.registered other member
    exact ⟨born, serial, nonzero, least, bound, route.update subscription.node
      { domain.slots subscription.node with active := 0#64 } (fun _ set => set)
      (fun _ set => set) rfl⟩
  · rcases List.mem_cons.1 member with rfl | member
    · exact holds.registered
    · exact inv.slots.dropped other member
  · show (Function.update domain.slots _ _ node).active = _
    by_cases equal : node = subscription.node
    · rw [equal, Function.update_self]
    · have old : Function.update domain.subscribed subscription.node _ node = _ := free
      rw [Function.update_of_ne equal] at old ⊢
      exact inv.slots.empty node old
  · obtain ⟨ne, at_node⟩ := elsewhere node other at_node
    obtain ⟨node_eq, registered, undropped, active_eq, entry⟩ :=
      inv.slots.subscribed node other at_node
    refine ⟨node_eq, registered, fun member => ?_, ?_, fun kind => ?_⟩
    · rcases List.mem_cons.1 member with rfl | member
      · exact ne node_eq.symm
      · exact undropped member
    · show (Function.update domain.slots _ _ node).active = _
      rwa [Function.update_of_ne ne]
    · exact (others node ne).trans (entry kind)
  · exact inv.settled node other cancelled (elsewhere node other at_node).2
  · have own : ∀ node, owner node ≠ thread → node ≠ subscription.node := by
      rintro node foreign rfl
      exact foreign owner_eq
    exact { Frame.refl owner thread domain with
      slots := fun node _ foreign => Function.update_of_ne (own node foreign) ..
      subscribed := fun node foreign => Function.update_of_ne (own node foreign) ..
      covers := fun node other _ _ covers later at_node =>
        covers later (elsewhere node later at_node).2
      dropped := fun _ member => List.mem_cons_of_mem _ member }
  · refine ⟨fun other member => ?_, fact.late, fact.nodup, fun _ _ => nofun,
      fun node other own at_node => ?_, fun node member => ?_, fact.debts,
      fun cell _ => fact.resting cell nofun, nofun⟩
    · obtain ⟨own, at_node, returned⟩ := fact.held other member
      exact ⟨own, (Function.update_of_ne (apart other member) ..).trans at_node, returned⟩
    · obtain ⟨ne, at_node⟩ := elsewhere node other at_node
      refine (fact.owned node other own at_node).imp_right fun same => ?_
      cases same
      exact (ne (inv.slots.subscribed node _ at_node).node_eq.symm).elim
    · apply fact.strong node
      rcases List.mem_append.1 member with member | member
      · exact List.mem_append_left _ member
      · cases member

/-- Every step of a drop. -/
theorem dropStep_good {call : Call} (inv : domain.Inv)
    (fact : Fact owner thread domain ⟨held, .dropping subscription stage⟩)
    (taken : dropStep domain subscription stage = (domain', call)) :
    Good owner thread domain domain' ⟨held, call⟩ := by
  have holding := fact.call
  have active_eq := (inv.slots.subscribed _ _ holding.subscribed).active_eq
  cases stage with
  | load =>
      rw [dropStep, if_pos active_eq] at taken
      cases taken
      refine ⟨inv, .refl .., ?_, fun _ member => member⟩
      apply fact.goOn rfl rfl (fun _ passed => passed) (fun _ member => member)
      case made => rfl
      case nodes => exact fact.nodes_strong
      case debts => exact fact.debts
      case resting => exact fun cell _ => fact.resting cell nofun
      case callFact => exact holding
  | store =>
      cases taken
      exact release_good inv fact domain.fallbackWaits fun _ _ => rfl
  | lock =>
      simp only [dropStep, if_pos active_eq] at taken
      cases taken
      exact release_good inv fact _ fun node ne => Function.update_of_ne ne ..

end Drop

/-! ## New calls -/

section Call

variable {last : Option Outcome}

omit [DecidableEq ι] [DecidableEq τ] [DecidableEq ρ] [DecidableEq η] in
/-- A resting thread that starts a call. -/
theorem call_fact {call : Call} (fact : Fact owner thread domain ⟨held, .rest last⟩)
    (unmade : call.subscription? = none) (nodes : ∀ node ∈ call.nodes, node ∈ domain.strong)
    (callFact : CallFact owner thread domain call) :
    Fact owner thread domain ⟨held, call⟩ := by
  apply fact.goOn rfl rfl (fun _ passed => passed) (fun _ member => member) unmade nodes
  case debts => exact fun node debt => (List.not_mem_nil (fact.debts node debt)).elim
  case resting => exact fun cell _ => fact.resting cell nofun
  case callFact => exact callFact

/-- A step on a wait cell by a call of the cell's own. -/
theorem wait_good {choice : Wait.Choice τ ρ η} {cell : Nat} {pc : Wait.Pc τ ρ η} {call : Call}
    (inv : domain.Inv) (fact : Fact owner thread domain ⟨held, call⟩)
    (unmade : call.subscription? = none) (idle : call.pending = [])
    (away : ∀ other, other ≠ cell → call.cell? ≠ some other)
    (taken : waitStep thread choice domain cell = some (domain', pc)) :
    (∃ op stage, pc = .run op stage) ∧
        Good owner thread domain domain' ⟨held, .waiting cell⟩ ∨
      (∃ last, pc = .rest last) ∧ Good owner thread domain domain' ⟨held, .rest none⟩ := by
  have worked := waitStep_worked inv.cells taken
  have inv' := worked.inv inv
  have frame : Frame owner thread domain domain' := worked.framed inv.cells
  have cellsInv := worked.cells
  have elsewhere := worked.elsewhere
  have at_pc := worked.pc_eq
  obtain ⟨cells, rfl⟩ := worked.frame
  have away' : ∀ other, other ≠ cell → ∃ last, (cells other).locals thread = .rest last := by
    intro other ne
    have same : cells other = domain.cells other := elsewhere other ne
    rw [same]
    exact fact.resting other (away other ne)
  have next : ∀ call', call'.subscription? = none → call'.nodes = [] →
      (∀ other, call'.cell? ≠ some other → ∃ last, (cells other).locals thread = .rest last) →
      CallFact owner thread { domain with cells } call' →
        Fact owner thread { domain with cells } ⟨held, call'⟩ := by
    intro call' unmade' nodes resting callFact
    apply fact.goOn
    case subscribed => rfl
    case registering => rfl
    case made => rw [unmade, unmade']
    case passed => exact frame.passed
    case strong => exact fun _ member => member
    case nodes => rw [nodes]; exact nofun
    case debts =>
      intro node debt
      have owed := fact.debts node debt
      rw [idle] at owed
      cases owed
    case resting => exact resting
    case callFact => exact callFact
  cases pc with
  | run op stage =>
      refine .inl ⟨⟨op, stage, rfl⟩, inv', frame, next _ rfl rfl (fun other ne => ?_) trivial,
        fun _ member => member⟩
      exact away' other fun equal => ne (by rw [equal]; rfl)
  | rest last =>
      refine .inr ⟨⟨last, rfl⟩, inv', frame, next _ rfl rfl (fun other _ => ?_) nofun,
        fun _ member => member⟩
      by_cases equal : other = cell
      · rw [equal]
        exact ⟨last, at_pc⟩
      · exact away' other equal
  | panicked =>
      have mine := (reachable_inv (cellsInv cell).1).2 thread
      rw [at_pc] at mine
      exact mine.fact.elim

/-- A new node. -/
theorem insert_good {parents : List Nat} (inv : domain.Inv)
    (fact : Fact owner thread domain ⟨held, .rest last⟩)
    (known : ∀ parent ∈ parents, parent ∈ domain.strong)
    (inserted : domain.insert parents = .ok domain') :
    Good owner thread domain domain' ⟨held, .rest (some .done)⟩ := by
  obtain ⟨graphed, world, cancelled, rfl, count⟩ := insert_spec inv.graph known inserted
  have fresh : domain.subscribed domain.world.reference.count = none := by
    cases at_node : domain.subscribed domain.world.reference.count with
    | none => rfl
    | some other =>
        have holds := inv.slots.subscribed _ _ at_node
        have born := (inv.slots.registered other holds.registered).born
        rw [holds.node_eq] at born
        exact (Nat.lt_irrefl _ born).elim
  have subscribed : Function.update domain.subscribed domain.world.reference.count none =
      domain.subscribed := by
    rw [← fresh]
    exact Function.update_eq_self ..
  have old : ∀ node, domain.Born node → node ≠ domain.world.reference.count := by
    rintro node born rfl
    exact Nat.lt_irrefl _ born
  refine ⟨⟨graphed, inv.cells, ⟨fun other member => ?_, inv.slots.dropped, fun node free => ?_,
    fun node other at_node => ?_⟩, fun node other isCancelled at_node => ?_⟩, ?_, ?_,
    fun node member => Finset.mem_insert_of_mem member⟩
  · obtain ⟨born, serial, nonzero, least, bound, route⟩ := inv.slots.registered other member
    refine ⟨?_, serial, nonzero, least, bound, ?_⟩
    · rw [Domain.Born, count]
      exact Nat.lt_succ_of_lt born
    · rw [Domain.Route]
      dsimp only
      rw [Function.update_of_ne (old _ born)]
      exact route
  · dsimp only at free ⊢
    rw [subscribed] at free
    by_cases equal : node = domain.world.reference.count
    · rw [equal, Function.update_self]
      rfl
    · rw [Function.update_of_ne equal]
      exact inv.slots.empty node free
  · dsimp only at at_node
    rw [subscribed] at at_node
    obtain ⟨node_eq, registered, undropped, active_eq, entry⟩ :=
      inv.slots.subscribed node other at_node
    have born := (inv.slots.registered other registered).born
    rw [node_eq] at born
    refine ⟨node_eq, registered, undropped, ?_, entry⟩
    dsimp only
    rw [Function.update_of_ne (old node born)]
    exact active_eq
  · dsimp only at isCancelled at_node ⊢
    rw [subscribed] at at_node
    have holds := inv.slots.subscribed node other at_node
    have born := (inv.slots.registered other holds.registered).born
    rw [holds.node_eq] at born
    rw [Function.update_of_ne (old node born)] at isCancelled
    exact inv.settled node other isCancelled at_node
  · exact { Frame.refl owner thread domain with
      born := by rw [count]; exact Nat.le_succ _
      cancelled := fun node born set => (Function.update_of_ne (old node born) ..).trans set
      slots := fun node born _ => Function.update_of_ne (old node born) ..
      subscribed := fun node _ => congrFun subscribed node
      covers := fun node _ _ _ covers other at_node =>
        covers other ((congrFun subscribed node).symm.trans at_node) }
  · apply fact.goOn subscribed
    case registering => rfl
    case passed => exact fun _ passed => passed
    case strong => exact fun node member => Finset.mem_insert_of_mem member
    case made => rfl
    case nodes => rintro _ ⟨⟩
    case debts => exact fact.debts
    case resting => exact fun cell _ => fact.resting cell (by rintro ⟨⟩)
    case callFact => rintro ⟨⟩

/-- Every call a resting thread can make. -/
theorem callStep_good {choice : Choice τ ρ η} {mine : Local} (inv : domain.Inv)
    (fact : Fact owner thread domain ⟨held, .rest last⟩)
    (taken : callStep owner thread choice domain held = some (domain', mine)) :
    Good owner thread domain domain' mine := by
  rw [callStep] at taken
  split at taken
  · split at taken
    · cases taken
    · rename_i stepped
      cases taken
      rcases wait_good inv fact rfl rfl (fun _ _ => by rintro ⟨⟩) stepped with
        ⟨-, good⟩ | ⟨⟨_, equal⟩, -⟩
      · exact good
      · cases equal
    · rename_i stepped
      cases taken
      rcases wait_good inv fact rfl rfl (fun _ _ => by rintro ⟨⟩) stepped with
        ⟨⟨_, _, equal⟩, -⟩ | ⟨-, good⟩
      · cases equal
      · exact good
    · rename_i stepped
      rcases wait_good inv fact rfl rfl (fun _ _ => by rintro ⟨⟩) stepped with
        ⟨⟨_, _, equal⟩, -⟩ | ⟨⟨_, equal⟩, -⟩
      · cases equal
      · cases equal
  · rename_i parents request
    split at taken
    · rename_i known
      split at taken
      · rename_i inserted
        cases taken
        exact insert_good inv fact known inserted
      · cases taken
        exact ⟨inv, .refl .., call_fact fact rfl (by rintro _ ⟨⟩) trivial, fun _ member => member⟩
    · cases taken
  · split at taken
    · rename_i strong
      cases taken
      refine ⟨inv, .refl .., call_fact fact rfl (fun node member => ?_)
        ⟨fun _ member => member, by rintro _ ⟨⟩, by rintro _ ⟨⟩, trivial⟩, fun _ member => member⟩
      exact List.mem_singleton.1 member ▸ strong
    · cases taken
  · rename_i node resident token cell request
    split at taken
    · rename_i permitted
      obtain ⟨strong, own, wait, positive, issued, single⟩ := permitted
      cases taken
      refine ⟨inv, .refl .., call_fact fact rfl (fun node member => ?_)
        ⟨own, wait, positive, issued, id, ?_⟩, fun _ member => member⟩
      · exact List.mem_singleton.1 member ▸ strong
      · show domain.subscribed node = none
        cases at_node : domain.subscribed node with
        | none => rfl
        | some other =>
            rcases fact.owned node other own at_node with member | made
            · exact (single other member (inv.slots.subscribed node other at_node).node_eq).elim
            · cases made
    · cases taken
  · rename_i subscription request
    split at taken
    · rename_i member
      cases taken
      have holding := fact.held subscription member
      refine ⟨inv, .refl .., ⟨fun other kept => fact.held other (List.mem_of_mem_erase kept),
        fun other kept => fact.late other (List.mem_of_mem_erase kept), fact.nodup.erase _,
        fun other kept same => ?_, fun node other own at_node => ?_, fun node used => ?_,
        fact.debts, fun cell _ => fact.resting cell (by rintro ⟨⟩), holding⟩,
        fun _ member => member⟩
      · cases same
        exact fact.nodup.not_mem_erase kept
      · rcases fact.owned node other own at_node with kept | made
        · by_cases equal : other = subscription
          · exact .inr (by rw [equal]; rfl)
          · exact .inl ((List.mem_erase_of_ne equal).2 kept)
        · cases made
      · apply fact.strong node
        apply List.mem_append_left
        rcases List.mem_append.1 used with used | used
        · obtain ⟨other, kept, rfl⟩ := List.mem_map.1 used
          exact List.mem_map_of_mem (List.mem_of_mem_erase kept)
        · rw [List.mem_singleton.1 used]
          exact List.mem_map_of_mem member
    · cases taken
  · cases taken

end Call

/-- Every step of a thread's own call. -/
theorem runStep_good {choice : Choice τ ρ η} {mine mine' : Local} (inv : domain.Inv)
    (fact : Fact owner thread domain mine)
    (taken : runStep owner thread choice domain mine = some (domain', mine')) :
    Good owner thread domain domain' mine' := by
  obtain ⟨held, call⟩ := mine
  cases call with
  | rest last => exact callStep_good inv fact taken
  | waiting cell =>
      have away : ∀ other, other ≠ cell → (Call.waiting cell).cell? ≠ some other :=
        fun other ne equal => ne (Option.some.inj equal).symm
      rw [runStep] at taken
      dsimp only at taken
      split at taken
      · cases taken
      · rename_i stepped
        cases taken
        rcases wait_good inv fact rfl rfl away stepped with ⟨-, good⟩ | ⟨⟨_, equal⟩, -⟩
        · exact good
        · cases equal
      · rename_i stepped
        cases taken
        rcases wait_good inv fact rfl rfl away stepped with ⟨⟨_, _, equal⟩, -⟩ | ⟨-, good⟩
        · cases equal
        · exact good
      · rename_i stepped
        rcases wait_good inv fact rfl rfl away stepped with
          ⟨⟨_, _, equal⟩, -⟩ | ⟨⟨_, equal⟩, -⟩
        · cases equal
        · cases equal
  | cancelling =>
      obtain ⟨⟨next, call⟩, stepped, equal⟩ := Option.map_eq_some_iff.1 taken
      cases equal
      exact cancelStep_good inv fact stepped
  | registering =>
      obtain ⟨⟨next, call, returned⟩, stepped, equal⟩ := Option.map_eq_some_iff.1 taken
      cases equal
      exact registerStep_good inv fact stepped
  | dropping =>
      cases taken
      exact dropStep_good inv fact rfl
  | panicked => cases taken

end VThread.Inherited
