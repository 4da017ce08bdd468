import VThread.Inherited.Nodes

/-!
# Steps of a cancellation

A canceller visits the nodes it has marked, reads their slots, and selects the waits it
has found.
-/

namespace VThread.Inherited

open VThread.Lib VThread.Wait VThread.Cancellation

variable {ι τ ρ η : Type}
variable {owner : Nat → ι} {thread : ι} {domain domain' : Domain ι τ ρ η}
variable {held : List Subscription}

/-- A call that goes on without touching its subscriptions. -/
theorem Fact.goOn {call call' : Call} (fact : Fact owner thread domain ⟨held, call⟩)
    (subscribed : domain'.subscribed = domain.subscribed)
    (registering : domain'.registering = domain.registering)
    (passed : ∀ token, Passed domain.cells token → Passed domain'.cells token)
    (strong : ∀ node ∈ domain.strong, node ∈ domain'.strong)
    (made : call'.subscription? = call.subscription?)
    (nodes : ∀ node ∈ call'.nodes, node ∈ domain'.strong)
    (debts : ∀ node, domain'.debts node = some thread → node ∈ call'.pending)
    (resting : ∀ cell, call'.cell? ≠ some cell →
      ∃ last, (domain'.cells cell).locals thread = .rest last)
    (callFact : CallFact owner thread domain' call') :
    Fact owner thread domain' ⟨held, call'⟩ where
  held subscription member := by
    obtain ⟨owner_eq, at_node, returned⟩ := fact.held subscription member
    exact ⟨owner_eq, by rw [subscribed, at_node], by rw [registering, returned]⟩
  late subscription member late := passed _ (fact.late subscription member late)
  nodup := fact.nodup
  apart subscription member := by
    rw [made]
    exact fact.apart subscription member
  owned node subscription owner_eq at_node := by
    rw [subscribed] at at_node
    rw [made]
    exact fact.owned node subscription owner_eq at_node
  strong node member := by
    rcases List.mem_append.1 member with kept | used
    · exact strong node (fact.strong node (List.mem_append_left _ kept))
    · exact nodes node used
  debts := debts
  resting := resting
  call := callFact

theorem Fact.nodes_strong {call : Call} (fact : Fact owner thread domain ⟨held, call⟩) :
    ∀ node ∈ call.nodes, node ∈ domain.strong :=
  fun node member => fact.strong node (List.mem_append_right _ member)

/-- What a step of `thread` achieves. -/
structure Good [DecidableEq ι] [DecidableEq τ] [DecidableEq ρ] [DecidableEq η]
    (owner : Nat → ι) (thread : ι) (domain domain' : Domain ι τ ρ η) (mine : Local) :
    Prop where
  inv : domain'.Inv
  frame : Frame owner thread domain domain'
  fact : Fact owner thread domain' mine
  strong : ∀ node ∈ domain.strong, node ∈ domain'.strong

/-! ## Settled nodes -/

section Settle

/-- A node whose subscription has passed, or will be selected by its registration. -/
def Domain.Clear (domain : Domain ι τ ρ η) (node : Nat) : Prop :=
  ∀ other, domain.subscribed node = some other →
    domain.registering node = true ∨ Passed domain.cells other.token

@[simp] theorem settle_cells [DecidableEq ι] (thread : ι) (domain : Domain ι τ ρ η)
    (node : Nat) : (domain.settle thread node).cells = domain.cells := by
  rw [Domain.settle]
  split <;> rfl

theorem settle_eq [DecidableEq ι] (thread : ι) (domain : Domain ι τ ρ η) (node : Nat) :
    ∃ debts, domain.settle thread node = { domain with debts } ∧
      (∀ other, debts other = domain.debts other ∨ other = node ∧ debts other = none) ∧
      debts node ≠ some thread := by
  rw [Domain.settle]
  split
  · refine ⟨_, rfl, fun other => ?_, by rw [Function.update_self]; exact nofun⟩
    by_cases equal : other = node
    · exact .inr ⟨equal, by rw [equal, Function.update_self]⟩
    · exact .inl (Function.update_of_ne equal ..)
  · rename_i other
    exact ⟨domain.debts, rfl, fun _ => .inl rfl, other⟩

theorem settle_frame [DecidableEq ι] (node : Nat) :
    Frame owner thread domain (domain.settle thread node) := by
  obtain ⟨debts, equal, kept, -⟩ := settle_eq thread domain node
  rw [equal]
  refine { Frame.refl owner thread domain with debts := fun other ne at_node debt => ?_ }
  dsimp only at debt
  rcases kept at_node with same | ⟨-, none⟩
  · rwa [← same]
  · rw [none] at debt
    cases debt

variable [DecidableEq ι] [DecidableEq τ] [DecidableEq ρ] [DecidableEq η]

theorem settle_inv (inv : domain.Inv) {node : Nat} (clear : domain.Clear node) :
    (domain.settle thread node).Inv := by
  obtain ⟨debts, equal, kept, -⟩ := settle_eq thread domain node
  rw [equal]
  refine ⟨inv.graph, inv.cells, inv.slots.mono (Nat.le_refl _) (fun _ => Nat.le_refl _)
    rfl rfl rfl rfl rfl, ?_⟩
  · intro other subscription cancelled subscribed
    rcases kept other with same | ⟨rfl, -⟩
    · rcases inv.settled other subscription cancelled subscribed with registering | passed | debt
      · exact .inl registering
      · exact .inr (.inl passed)
      · refine .inr (.inr ?_)
        dsimp only
        rwa [same]
    · exact (clear subscription subscribed).imp_right .inl

end Settle

/-! ## Steps -/

section Cancel

variable {root : Nat} {before : List Subscription} {marked : List Nat} {stage : CancelStage}

variable [DecidableEq ι] [DecidableEq τ] [DecidableEq ρ] [DecidableEq η]

/-- A canceller that runs no selection goes on. -/
theorem Good.quiet {domain₀ : Domain ι τ ρ η} {stage' : CancelStage} {found : List Found}
    (fact : Fact owner thread domain₀ ⟨held, .cancelling root before marked stage⟩)
    (inv : domain.Inv) (frame : Frame owner thread domain₀ domain)
    (subscribed : domain.subscribed = domain₀.subscribed)
    (registering : domain.registering = domain₀.registering)
    (strong : domain.strong = domain₀.strong)
    (quiet : stage' = .select found ∨ ∃ nodes, stage' = .visit nodes found)
    (requested : root ∈ domain₀.requested)
    (entries : ∀ entry ∈ found, domain₀.FoundFact before entry)
    (pending : ∀ node ∈ stage'.pending, node ∈ marked)
    (nodes : ∀ node ∈ (Call.cancelling root before marked stage').nodes,
      node ∈ domain₀.strong)
    (debts : ∀ node, domain.debts node = some thread → node ∈ stage'.pending)
    (resting : ∀ cell, ∃ last, (domain.cells cell).locals thread = .rest last) :
    Good owner thread domain₀ domain ⟨held, .cancelling root before marked stage'⟩ := by
  obtain ⟨dropped, known, -, -⟩ := fact.call
  have entries' : ∀ entry ∈ found, domain.FoundFact before entry := by
    intro entry member
    apply frame.found (known entry.node (pending entry.node ?_)) (entries entry member)
    rcases quiet with rfl | ⟨nodes, rfl⟩
    · exact List.mem_map_of_mem member
    · exact List.mem_append_right _ (List.mem_map_of_mem member)
  refine ⟨inv, frame, ?_, fun node member => strong ▸ member⟩
  apply fact.goOn subscribed registering frame.passed (fun node member => strong ▸ member)
  case made => rfl
  case nodes => exact fun node member => strong ▸ nodes node member
  case debts => exact debts
  case resting => exact fun cell _ => resting cell
  case callFact =>
    refine ⟨fun subscription member => frame.dropped _ (dropped subscription member),
      fun node member => ?_, pending, ?_⟩
    · obtain ⟨born, cancelled⟩ := known node member
      exact ⟨Nat.lt_of_lt_of_le born frame.born, frame.cancelled node born cancelled⟩
    · rcases quiet with rfl | ⟨nodes, rfl⟩
      · exact ⟨frame.requested _ requested, entries'⟩
      · exact ⟨frame.requested _ requested, entries'⟩

/-- A canceller is done with a clear node. -/
theorem Good.settle {domain₀ : Domain ι τ ρ η} {stage' : CancelStage} {found : List Found}
    {node : Nat} (fact : Fact owner thread domain₀ ⟨held, .cancelling root before marked stage⟩)
    (inv : domain.Inv) (frame : Frame owner thread domain₀ domain)
    (subscribed : domain.subscribed = domain₀.subscribed)
    (registering : domain.registering = domain₀.registering)
    (strong : domain.strong = domain₀.strong) (owed : domain.debts = domain₀.debts)
    (clear : domain.Clear node)
    (quiet : stage' = .select found ∨ ∃ nodes, stage' = .visit nodes found)
    (requested : root ∈ domain₀.requested)
    (entries : ∀ entry ∈ found, domain₀.FoundFact before entry)
    (pending : ∀ other, other ∈ stage.pending ↔ other = node ∨ other ∈ stage'.pending)
    (nodes : ∀ other ∈ (Call.cancelling root before marked stage').nodes,
      other ∈ domain₀.strong)
    (resting : ∀ cell, ∃ last, (domain.cells cell).locals thread = .rest last) :
    Good owner thread domain₀ (domain.settle thread node)
      ⟨held, .cancelling root before marked stage'⟩ := by
  have inv' : (domain.settle thread node).Inv := settle_inv inv clear
  have frame' : Frame owner thread domain₀ (domain.settle thread node) :=
    frame.trans (settle_frame node)
  obtain ⟨-, -, marks, -⟩ := fact.call
  obtain ⟨debts, equal, kept, paid⟩ := settle_eq thread domain node
  rw [equal] at inv' frame' ⊢
  apply Good.quiet fact inv' frame' subscribed registering strong quiet requested entries
  case pending => exact fun other member => marks other ((pending other).2 (.inr member))
  case nodes => exact nodes
  case resting => exact resting
  case debts =>
    intro other debt
    dsimp only at debt
    have ne : other ≠ node := by
      rintro rfl
      exact paid debt
    rcases kept other with same | ⟨equal, -⟩
    · rw [same, owed] at debt
      exact ((pending other).1 (fact.debts other debt)).resolve_left ne
    · exact (ne equal).elim

theorem lock_good (inv : domain.Inv)
    (fact : Fact owner thread domain ⟨held, .cancelling root before marked .lock⟩)
    {nodes : List Nat} (taken : domain.cancelNodes thread root = .ok (domain', nodes)) :
    Good owner thread domain domain'
      ⟨held, .cancelling root before nodes (.visit nodes [])⟩ := by
  have strong : root ∈ domain.strong := fact.nodes_strong root (List.mem_singleton.2 rfl)
  obtain ⟨graphed, upgraded, world, rfl, count⟩ := cancelNodes_spec inv.graph strong taken
  obtain ⟨dropped, -, -, -⟩ := fact.call
  refine ⟨⟨graphed, inv.cells, inv.slots.mono count.ge (fun _ => Nat.le_refl _)
    rfl rfl rfl rfl rfl, ?_⟩, ?_, ?_, fun _ member => member⟩
  · intro node subscription cancelled subscribed
    dsimp only at cancelled ⊢
    by_cases marked : node ∈ nodes
    · exact .inr (.inr ⟨thread, if_pos marked⟩)
    · have before : domain.cancelled node = true := by simpa [marked] using cancelled
      rw [if_neg marked]
      exact inv.settled node subscription before subscribed
  · refine { Frame.refl owner thread domain with
      born := count.ge
      cancelled := fun node _ cancelled => ?_
      requested := fun other member => List.mem_cons_of_mem _ member
      debts := fun other ne node debt => ?_ }
    · dsimp only
      rw [cancelled, Bool.true_or]
    · dsimp only at debt
      split at debt
      · exact (ne (Option.some.inj debt).symm).elim
      · exact debt
  · apply fact.goOn
    case subscribed => rfl
    case registering => rfl
    case made => rfl
    case passed => exact fun _ passed => passed
    case strong => exact fun _ member => member
    case nodes =>
      intro node member
      rcases List.mem_cons.1 member with rfl | member
      · exact strong
      · exact upgraded node member
    case debts =>
      intro node debt
      dsimp only at debt
      split at debt
      · rename_i marked
        exact List.mem_append_left _ marked
      · exact (List.not_mem_nil (fact.debts node debt)).elim
    case resting => exact fun cell away => fact.resting cell nofun
    case callFact =>
      refine ⟨dropped, fun node member => ⟨?_, by simp [member]⟩, fun node member => ?_,
        List.mem_cons_self .., nofun⟩
      · rw [Domain.Born, count]
        exact inv.born_of_strong (upgraded node member)
      · simpa [CancelStage.pending] using member

/-- The canceller reads the slot of the next node. -/
theorem visit_good (inv : domain.Inv) {node : Nat} {nodes : List Nat} {found : List Found}
    {choice : Wait.Choice τ ρ η} {call : Call}
    (fact : Fact owner thread domain
      ⟨held, .cancelling root before marked (.visit (node :: nodes) found)⟩)
    (taken : cancelStep thread choice domain root before marked (.visit (node :: nodes) found) =
      some (domain', call)) : Good owner thread domain domain' ⟨held, call⟩ := by
  obtain ⟨dropped, known, marks, requested, entries⟩ := fact.call
  have strong := fact.nodes_strong
  have resting := fun cell => fact.resting cell nofun
  rw [cancelStep] at taken
  have met : (domain.slots node).active ≠ 0#64 → ∃ subscription,
      domain.Met before node subscription ∧
        subscription.active = (domain.slots node).active := by
    intro nonzero
    cases subscribed : domain.subscribed node with
    | none => exact (nonzero (inv.slots.empty node subscribed)).elim
    | some subscription =>
        have held := inv.slots.subscribed node subscription subscribed
        refine ⟨subscription, ⟨held.registered, fun old => held.undropped (dropped _ old),
          held.node_eq, fun other at_node => .inl ?_⟩, held.active_eq.symm⟩
        rw [subscribed] at at_node
        exact (Option.some.inj at_node).symm
  have next : ∀ stage', stage'.pending = CancelStage.pending (.visit (node :: nodes) found) →
      (∀ other ∈ (Call.cancelling root before marked stage').nodes, other ∈ domain.strong) →
      (Call.cancelling root before marked stage').cell? = none →
      CancelFact thread domain root before stage' →
        Good owner thread domain domain ⟨held, .cancelling root before marked stage'⟩ := by
    intro stage' pending nodes_strong still stageFact
    refine ⟨inv, .refl .., ?_, fun _ member => member⟩
    apply fact.goOn rfl rfl (fun _ passed => passed) (fun _ member => member)
    case made => rfl
    case nodes => exact nodes_strong
    case debts =>
      intro other debt
      show other ∈ stage'.pending
      rw [pending]
      exact fact.debts other debt
    case resting => exact fun cell _ => resting cell
    case callFact => exact ⟨dropped, known, by rw [pending]; exact marks, stageFact⟩
  split at taken
  · rename_i zero
    cases taken
    apply Good.settle fact inv (.refl ..) rfl rfl rfl rfl _ (.inr ⟨nodes, rfl⟩) requested entries
    case pending => exact fun other => List.mem_cons
    case resting => exact resting
    case nodes =>
      intro other member
      apply strong other
      rcases List.mem_cons.1 member with rfl | member
      · exact List.mem_cons_self ..
      · exact List.mem_cons_of_mem _ (List.mem_cons_of_mem _ member)
    intro other subscribed
    have at_node := inv.slots.subscribed node other subscribed
    rw [at_node.active_eq] at zero
    exact ((inv.slots.registered other at_node.registered).nonzero zero).elim
  rename_i nonzero
  split at taken
  · rename_i kind
    cases taken
    exact next _ rfl strong rfl ⟨requested, entries, kind, met nonzero⟩
  · rename_i kind
    cases taken
    exact next _ rfl strong rfl ⟨requested, entries, kind, met nonzero⟩

/-- A canceller has found a wait of its node. -/
theorem Good.push {nodes : List Nat} {found : List Found} {entry : Found} (inv : domain.Inv)
    (fact : Fact owner thread domain ⟨held, .cancelling root before marked stage⟩)
    (still : (Call.cancelling root before marked stage).cell? = none)
    (pending : stage.pending = entry.node :: nodes ++ found.map Found.node)
    (strong : ∀ node ∈ root :: nodes, node ∈ domain.strong) (requested : root ∈ domain.requested)
    (entries : ∀ entry ∈ found, domain.FoundFact before entry)
    (entryFact : domain.FoundFact before entry) :
    Good owner thread domain domain
      ⟨held, .cancelling root before marked (.visit nodes (found ++ [entry]))⟩ := by
  have same : ∀ node, node ∈ (CancelStage.visit nodes (found ++ [entry])).pending ↔
      node ∈ stage.pending := by
    intro node
    rw [pending]
    simp only [CancelStage.pending, List.map_append, List.mem_append, List.mem_cons,
      List.map_cons, List.map_nil, List.not_mem_nil]
    tauto
  apply Good.quiet fact inv (.refl ..) rfl rfl rfl (.inr ⟨nodes, rfl⟩) requested
  case entries =>
    intro other member
    rcases List.mem_append.1 member with member | member
    · exact entries other member
    · rw [List.mem_singleton.1 member]
      exact entryFact
  case pending => exact fun node member => fact.call.2.2.1 node ((same node).1 member)
  case nodes => exact strong
  case debts => exact fun node debt => (same node).2 (fact.debts node debt)
  case resting => exact fun cell => fact.resting cell (by rw [still]; exact nofun)

/-- The canceller follows the word of a slot to its cell. -/
theorem lookup_good (inv : domain.Inv) {active : Active} {node : Nat} {nodes : List Nat}
    {found : List Found} {choice : Wait.Choice τ ρ η} {call : Call}
    (fact : Fact owner thread domain
      ⟨held, .cancelling root before marked (.lookup active node nodes found)⟩)
    (taken : cancelStep thread choice domain root before marked
      (.lookup active node nodes found) = some (domain', call)) :
    Good owner thread domain domain' ⟨held, call⟩ := by
  obtain ⟨dropped, known, marks, requested, entries, kind, subscription, met, rfl⟩ := fact.call
  have strong : ∀ other ∈ root :: nodes, other ∈ domain.strong := fun other member =>
    fact.nodes_strong other (List.cons_subset_cons root (List.subset_cons_self node nodes) member)
  -- The cell of a primary or resident word never changes, even after the subscription.
  have cell : (if subscription.active.kind = 0#64 then (domain.slots node).primary
      else if subscription.active.kind = Active.resident then (domain.slots node).resident
      else none) = some subscription.token.wait ∧
      subscription.active.generation = subscription.token.generation := by
    have route := (inv.slots.registered subscription met.registered).route
    rw [Domain.Route, met.node_eq] at route
    rcases route with ⟨primary, generation, cell⟩ | ⟨resident, generation, cell⟩ | fallback
    · rw [if_pos primary]
      exact ⟨cell, generation⟩
    · have notPrimary : subscription.active.kind ≠ 0#64 := by
        rw [resident]
        decide
      rw [if_neg notPrimary, if_pos resident]
      exact ⟨cell, generation⟩
    · exact (kind fallback).elim
  rw [cancelStep] at taken
  simp only [cell.1, cell.2] at taken
  cases taken
  apply Good.push inv fact rfl rfl strong requested entries
  exact ⟨subscription, met, rfl, rfl⟩

/-- The canceller reads the fallback entry under the lock, unless the slot has changed. -/
theorem fallback_good (inv : domain.Inv) {active : Active} {node : Nat} {nodes : List Nat}
    {found : List Found} {choice : Wait.Choice τ ρ η} {call : Call}
    (fact : Fact owner thread domain
      ⟨held, .cancelling root before marked (.fallback active node nodes found)⟩)
    (taken : cancelStep thread choice domain root before marked
      (.fallback active node nodes found) = some (domain', call)) :
    Good owner thread domain domain' ⟨held, call⟩ := by
  obtain ⟨dropped, known, marks, requested, entries, kind, subscription, met, rfl⟩ := fact.call
  have strong : ∀ other ∈ root :: nodes, other ∈ domain.strong := fun other member =>
    fact.nodes_strong other (List.cons_subset_cons root (List.subset_cons_self node nodes) member)
  have nonzero := (inv.slots.registered subscription met.registered).nonzero
  rw [cancelStep] at taken
  split at taken
  · rename_i changed
    cases taken
    apply Good.settle fact inv (.refl ..) rfl rfl rfl rfl _ (.inr ⟨nodes, rfl⟩) requested entries
    case pending => exact fun other => List.mem_cons
    case resting => exact fun cell => fact.resting cell nofun
    case nodes => exact strong
    intro other at_node
    rcases met.covers other at_node with rfl | settled
    · exact (changed (inv.slots.subscribed node other at_node).active_eq).elim
    · exact settled
  · rename_i same
    have same : (domain.slots node).active = subscription.active := Decidable.not_not.1 same
    cases at_node : domain.subscribed node with
    | none =>
        rw [inv.slots.empty node at_node] at same
        exact (nonzero same.symm).elim
    | some other =>
        have holds := inv.slots.subscribed node other at_node
        have active_eq : other.active = subscription.active := holds.active_eq.symm.trans same
        have entry := holds.entry (by rw [active_eq, kind])
        simp only [entry] at taken
        cases taken
        apply Good.push inv fact rfl rfl strong requested entries
        refine ⟨other, ⟨holds.registered, fun old => holds.undropped (dropped _ old),
          holds.node_eq, fun later at_node' => .inl ?_⟩, rfl, rfl⟩
        rw [at_node] at at_node'
        exact (Option.some.inj at_node').symm

/-- A selection by a canceller starts, goes on, or settles its node. -/
theorem select_good (inv : domain.Inv) {entry : Found} {rest : List Found}
    {choice : Wait.Choice τ ρ η} {pc : Wait.Pc τ ρ η}
    (fact : Fact owner thread domain ⟨held, .cancelling root before marked stage⟩)
    (pending : stage.pending = entry.node :: rest.map Found.node)
    (requested : root ∈ domain.requested)
    (entries : ∀ entry ∈ rest, domain.FoundFact before entry)
    (entryFact : domain.FoundFact before entry)
    (ready : (∃ last, (domain.cells entry.cell).locals thread = .rest last) ∨
      domain.Runs thread entry.token entry.cell)
    (away : ∀ cell, cell ≠ entry.cell → ∃ last, (domain.cells cell).locals thread = .rest last)
    (taken : selectStep thread choice domain entry.token entry.cell = some (domain', pc)) :
    (∃ op stage, pc = .run op stage) ∧ Good owner thread domain domain'
        ⟨held, .cancelling root before marked (.selecting entry rest)⟩ ∨
      (∃ last, pc = .rest last) ∧ Good owner thread domain (domain'.settle thread entry.node)
        ⟨held, .cancelling root before marked (.select rest)⟩ := by
  obtain ⟨dropped, known, marks, -⟩ := fact.call
  obtain ⟨subscription, met, token_eq, cell_eq⟩ := entryFact
  have registered := inv.slots.registered subscription met.registered
  have strong : root ∈ domain.strong := by
    apply fact.nodes_strong root
    cases stage <;> exact List.mem_cons_self ..
  obtain ⟨worked, result⟩ := selectStep_worked inv.cells (by rw [token_eq, cell_eq])
    (by rw [token_eq, cell_eq]; exact registered.issued) ready taken
  have inv' := worked.inv inv
  have frame : Frame owner thread domain domain' := worked.framed inv.cells
  have elsewhere := worked.elsewhere
  have at_pc := worked.pc_eq
  obtain ⟨cells, rfl⟩ := worked.frame
  have away' : ∀ cell, cell ≠ entry.cell → ∃ last, (cells cell).locals thread = .rest last := by
    intro cell ne
    have same : cells cell = domain.cells cell := elsewhere cell ne
    rw [same]
    exact away cell ne
  have known' := known entry.node (marks _ (by rw [pending]; exact List.mem_cons_self ..))
  rcases result with ⟨running, runs⟩ | ⟨⟨last, rfl⟩, passed⟩
  · refine .inl ⟨running, inv', frame, ?_, fun _ member => member⟩
    apply fact.goOn
    case subscribed => rfl
    case registering => rfl
    case made => rfl
    case passed => exact frame.passed
    case strong => exact fun _ member => member
    case nodes => exact fun node member => List.mem_singleton.1 member ▸ strong
    case debts =>
      intro node debt
      have owed := fact.debts node debt
      rw [Call.pending, pending] at owed
      exact owed
    case resting => exact fun cell other => away' cell fun equal => other (by rw [equal]; rfl)
    case callFact =>
      have pending' : ∀ node ∈ (CancelStage.selecting entry rest).pending, node ∈ marked := by
        intro node member
        apply marks
        rw [pending]
        exact member
      refine ⟨fun subscription member => frame.dropped _ (dropped subscription member),
        fun node member => ?_, pending', requested, fun other member => ?_, ?_, runs⟩
      · obtain ⟨born, cancelled⟩ := known node member
        exact ⟨born, cancelled⟩
      · apply frame.found _ (entries other member)
        exact known _ (pending' _ (List.mem_cons_of_mem _ (List.mem_map_of_mem member)))
      · exact frame.found known' ⟨subscription, met, token_eq, cell_eq⟩
  · refine .inr ⟨⟨last, rfl⟩, ?_⟩
    apply Good.settle fact inv' frame rfl rfl rfl rfl _ (.inl rfl) requested entries
    case pending =>
      intro other
      rw [pending]
      exact List.mem_cons
    case nodes => exact fun node member => List.mem_singleton.1 member ▸ strong
    case resting =>
      intro cell
      by_cases equal : cell = entry.cell
      · rw [equal]
        exact ⟨last, at_pc⟩
      · exact away' cell equal
    intro other at_node
    rcases (frame.met known'.1 known'.2 met).covers other at_node with rfl | settled
    · rw [token_eq] at passed
      exact .inr passed
    · exact settled

/-- A step of the selection that a canceller makes. -/
theorem cancel_selecting_good (inv : domain.Inv) {entry : Found} {rest : List Found}
    {choice : Wait.Choice τ ρ η} {call : Call}
    (fact : Fact owner thread domain ⟨held, .cancelling root before marked stage⟩)
    (pending : stage.pending = entry.node :: rest.map Found.node)
    (requested : root ∈ domain.requested)
    (entries : ∀ entry ∈ rest, domain.FoundFact before entry)
    (entryFact : domain.FoundFact before entry)
    (ready : (∃ last, (domain.cells entry.cell).locals thread = .rest last) ∨
      domain.Runs thread entry.token entry.cell)
    (away : ∀ cell, cell ≠ entry.cell → ∃ last, (domain.cells cell).locals thread = .rest last)
    (taken : cancelStep thread choice domain root before marked (.select (entry :: rest)) =
      some (domain', call)) : Good owner thread domain domain' ⟨held, call⟩ := by
  rw [cancelStep] at taken
  split at taken
  · cases taken
  · rename_i stepped
    cases taken
    rcases select_good inv fact pending requested entries entryFact ready away stepped with
      ⟨-, good⟩ | ⟨⟨_, equal⟩, -⟩
    · exact good
    · cases equal
  · rename_i stepped
    cases taken
    rcases select_good inv fact pending requested entries entryFact ready away stepped with
      ⟨⟨_, _, equal⟩, -⟩ | ⟨-, good⟩
    · cases equal
    · exact good
  · rename_i stepped
    rcases select_good inv fact pending requested entries entryFact ready away stepped with
      ⟨⟨_, _, equal⟩, -⟩ | ⟨⟨_, equal⟩, -⟩
    · cases equal
    · cases equal

/-- Every step of a cancellation. -/
theorem cancelStep_good (inv : domain.Inv) {choice : Wait.Choice τ ρ η} {call : Call}
    (fact : Fact owner thread domain ⟨held, .cancelling root before marked stage⟩)
    (taken : cancelStep thread choice domain root before marked stage = some (domain', call)) :
    Good owner thread domain domain' ⟨held, call⟩ := by
  cases stage with
  | lock =>
      rw [cancelStep] at taken
      split at taken
      · cases taken
        refine ⟨inv, .refl .., ?_, fun _ member => member⟩
        apply fact.goOn rfl rfl (fun _ passed => passed) (fun _ member => member)
        case made => rfl
        case nodes => exact nofun
        case debts => exact fun node debt => fact.debts node debt
        case resting => exact fun cell _ => fact.resting cell nofun
        case callFact => trivial
      · rename_i locked
        cases taken
        exact lock_good inv fact locked
  | visit nodes found =>
      cases nodes with
      | nil =>
          obtain ⟨dropped, known, marks, requested, entries⟩ := fact.call
          cases taken
          apply Good.quiet fact inv (.refl ..) rfl rfl rfl (.inl rfl) requested entries
          case pending => exact marks
          case nodes => exact fun node member => fact.nodes_strong node member
          case debts => exact fact.debts
          case resting => exact fun cell => fact.resting cell nofun
      | cons => exact visit_good inv fact taken
  | lookup => exact lookup_good inv fact taken
  | fallback => exact fallback_good inv fact taken
  | select found =>
      obtain ⟨dropped, known, marks, requested, entries⟩ := fact.call
      have resting := fun cell => fact.resting cell nofun
      cases found with
      | nil =>
          cases taken
          refine ⟨⟨{ inv.graph with returned_requested := ?_ }, inv.cells,
            inv.slots.mono (Nat.le_refl _) (fun _ => Nat.le_refl _) rfl rfl rfl rfl rfl,
            inv.settled⟩, { Frame.refl owner thread domain with }, ?_, fun _ member => member⟩
          · intro other member
            rcases List.mem_cons.1 member with rfl | member
            · exact requested
            · exact inv.graph.returned_requested other member
          · apply fact.goOn
            case subscribed => rfl
            case registering => rfl
            case made => rfl
            case passed => exact fun _ passed => passed
            case strong => exact fun _ member => member
            case nodes => exact nofun
            case debts => exact fun node debt => fact.debts node debt
            case resting => exact fun cell _ => resting cell
            case callFact => exact nofun
      | cons entry rest =>
          exact cancel_selecting_good inv fact rfl requested
            (fun other member => entries other (List.mem_cons_of_mem entry member))
            (entries entry (List.mem_cons_self ..)) (.inl (resting _)) (fun cell _ => resting cell)
            taken
  | selecting =>
      obtain ⟨dropped, known, marks, requested, entries, first, runs⟩ := fact.call
      exact cancel_selecting_good inv fact rfl requested entries first (.inr runs)
        (fun cell ne => fact.resting cell fun equal => ne (Option.some.inj equal).symm) taken

/-- A cancel claims only the generation of a subscription that it has marked and that was
not dropped when it started. -/
theorem cancelStep_claims (inv : domain.Inv) {choice : Wait.Choice τ ρ η} {call : Call}
    (fact : Fact owner thread domain ⟨held, .cancelling root before marked stage⟩)
    (taken : cancelStep thread choice domain root before marked stage = some (domain', call))
    {cell generation : Nat} (claims : Wait.Claims (domain.cells cell).shared
      (domain'.cells cell).shared generation) :
    ∃ subscription ∈ domain.registrations, subscription ∉ before ∧
      subscription.node ∈ marked ∧ subscription.token = ⟨cell, generation⟩ := by
  obtain ⟨-, -, marks, stageFact⟩ := fact.call
  have quiet : domain'.cells = domain.cells → False :=
    fun same => not_claims (by rw [same]) claims
  have selects : ∀ (entry : Found) (rest : List Found), entry.node ∈ stage.pending →
      domain.FoundFact before entry →
      ((∃ last, (domain.cells entry.cell).locals thread = .rest last) ∨
        domain.Runs thread entry.token entry.cell) →
      cancelStep thread choice domain root before marked (.select (entry :: rest)) =
        some (domain', call) →
      ∃ subscription ∈ domain.registrations, subscription ∉ before ∧
        subscription.node ∈ marked ∧ subscription.token = ⟨cell, generation⟩ := by
    rintro entry rest member ⟨subscription, met, token_eq, cell_eq⟩ ready stepped
    have wait : entry.token.wait = entry.cell := by rw [token_eq, cell_eq]
    have claimed : ∀ domain'' pc, domain''.cells = domain'.cells →
        selectStep thread choice domain entry.token entry.cell = some (domain'', pc) →
          entry.token = ⟨cell, generation⟩ := by
      intro domain'' pc same selected
      rw [← same] at claims
      exact selectStep_claims inv.cells wait ready selected claims
    refine ⟨subscription, met.registered, met.recent, ?_, ?_⟩
    · rw [met.node_eq]
      exact marks entry.node member
    · rw [← token_eq]
      rw [cancelStep] at stepped
      split at stepped
      · cases stepped
      · rename_i selected
        cases stepped
        exact claimed _ _ rfl selected
      · rename_i selected
        cases stepped
        exact claimed _ _ (settle_cells ..).symm selected
      · rename_i selected
        cases stepped
        exact claimed _ _ rfl selected
  cases stage with
  | lock =>
      rw [cancelStep] at taken
      split at taken
      · cases taken
        exact (quiet rfl).elim
      · rename_i locked
        cases taken
        have strong := fact.nodes_strong root (List.mem_singleton.2 rfl)
        obtain ⟨-, -, world, rfl, -⟩ := cancelNodes_spec inv.graph strong locked
        exact (quiet rfl).elim
  | visit nodes found =>
      cases nodes with
      | nil =>
          cases taken
          exact (quiet rfl).elim
      | cons node nodes =>
          rw [cancelStep] at taken
          split at taken
          · cases taken
            exact (quiet (settle_cells thread domain node)).elim
          split at taken
          · cases taken
            exact (quiet rfl).elim
          · cases taken
            exact (quiet rfl).elim
  | lookup _ node =>
      rw [cancelStep] at taken
      split at taken
      · cases taken
        exact (quiet (settle_cells thread domain node)).elim
      · cases taken
        exact (quiet rfl).elim
  | fallback _ node =>
      rw [cancelStep] at taken
      split at taken
      · cases taken
        exact (quiet (settle_cells thread domain node)).elim
      split at taken
      · cases taken
        exact (quiet rfl).elim
      · cases taken
        exact (quiet (settle_cells thread domain node)).elim
  | select found =>
      cases found with
      | nil =>
          cases taken
          exact (quiet rfl).elim
      | cons entry rest =>
          exact selects entry rest (List.mem_cons_self ..)
            (stageFact.2 entry (List.mem_cons_self ..)) (.inl (fact.resting _ nofun)) taken
  | selecting entry rest =>
      obtain ⟨-, -, entryFact, runs⟩ := stageFact
      exact selects entry rest (List.mem_cons_self ..) entryFact (.inr runs) taken

end Cancel

end VThread.Inherited
