import VThread.Cancellation.Reference

/-!
# The structure between operations

What every part of the compressed graph looks like after an operation, with the relay
signatures described by the links alone.
-/

namespace VThread.Cancellation

open VThread.Lib

variable {ω ν : Type}

namespace Graph

variable {graph : Graph ω}

/-- Upward reachability through relays only: every entry strictly between the two is a
relay. -/
inductive Above (graph : Graph ω) (ancestor : Nat) : Nat → Prop where
  | parent {id : Nat} : graph.Edge ancestor id → Above graph ancestor id
  | relay {relay id : Nat} : Above graph ancestor relay → graph.IsRelay relay →
      graph.Edge relay id → Above graph ancestor id

/-- The structure of the compressed graph. -/
structure Structured (graph : Graph ω) : Prop where
  /-- Links are mutually inverse and name present entries. -/
  inverse : ∀ parent child,
    child ∈ graph.childrenOf parent ↔ parent ∈ graph.parentsOf child
  present : ∀ parent child, child ∈ graph.childrenOf parent →
    (∃ entry, graph.nodes parent = some entry) ∧ ∃ entry, graph.nodes child = some entry
  /-- Identities grow along links, so there is no cycle. -/
  upward : ∀ parent child, parent ∈ graph.parentsOf child → parent < child
  acyclic : ∀ id, ¬ Relation.TransGen graph.Edge id id
  cancelled : ∀ parent child, child ∈ graph.childrenOf parent →
    graph.Cancelled parent → graph.Cancelled child
  degrees : ∀ id, graph.IsRelay id →
    2 ≤ (graph.parentsOf id).len ∧ 2 ≤ (graph.childrenOf id).len
  counted : graph.relays = {id | graph.IsRelay id}.ncard ∧ {id | graph.IsRelay id}.Finite
  /-- Signatures follow from the links. -/
  token : ∀ id, graph.IsToken id → graph.ancestry id = {id}
  relay : ∀ id, graph.IsRelay id → ∀ ancestor, ancestor ∈ graph.ancestry id ↔
    graph.IsToken ancestor ∧ graph.Above ancestor id
  /-- The index holds exactly the relays, under the candidate keys of their signatures. -/
  indexed : ∀ candidate id, id ∈ graph.relayIndex candidate ↔
    ∃ entry, graph.nodes id = some entry ∧ entry.kind = .relay ∧
      entry.signature.candidate = candidate

/-- The parent at the end of an upward path. -/
theorem Above.exists_parent {ancestor id : Nat} (above : graph.Above ancestor id) :
    graph.Edge ancestor id ∨
      ∃ relay, graph.Above ancestor relay ∧ graph.IsRelay relay ∧ graph.Edge relay id := by
  cases above with
  | parent edge => exact .inl edge
  | relay above isRelay edge => exact .inr ⟨_, above, isRelay, edge⟩

/-- The signature of a relay is the set of live tokens above it. -/
theorem Settled.mem_ancestry (settled : graph.Settled) {id : Nat} (relay : graph.IsRelay id)
    (ancestor : Nat) : ancestor ∈ graph.ancestry id ↔
      graph.IsToken ancestor ∧ graph.Above ancestor id := by
  have wf := settled.wf
  induction id using Nat.strong_induction_on with
  | h id ih =>
      rw [settled.consistent id relay ancestor]
      constructor
      · rintro ⟨parent, edge, member⟩
        obtain ⟨entry, found⟩ := WF.parent_exists edge
        rcases isToken_or_isRelay found with isToken | isRelay
        · rw [wf.token_ancestry parent isToken, Finset.mem_singleton] at member
          subst member
          exact ⟨isToken, .parent edge⟩
        · obtain ⟨isToken, above⟩ := (ih parent (wf.edge_lt _ _ edge) isRelay).mp member
          exact ⟨isToken, .relay above isRelay edge⟩
      · rintro ⟨isToken, above⟩
        rcases above.exists_parent with edge | ⟨parent, above, isRelay, edge⟩
        · refine ⟨ancestor, edge, ?_⟩
          rw [wf.token_ancestry ancestor isToken]
          exact Finset.mem_singleton_self ancestor
        · exact ⟨parent, edge,
            (ih parent (wf.edge_lt _ _ edge) isRelay).mpr ⟨isToken, above⟩⟩

/-- Identities grow along paths. -/
theorem WF.path_lt (wf : graph.WF) {source target : Nat}
    (path : Relation.TransGen graph.Edge source target) : source < target := by
  induction path with
  | single edge => exact wf.edge_lt _ _ edge
  | tail _ edge ih => exact ih.trans (wf.edge_lt _ _ edge)

theorem Settled.structured (settled : graph.Settled) : graph.Structured where
  inverse := settled.wf.edge_iff
  present _ _ edge := ⟨WF.parent_exists edge, settled.wf.child_exists edge⟩
  upward _ _ member := settled.wf.edge_lt _ _ ((settled.wf.edge_iff _ _).mpr member)
  acyclic _ path := (settled.wf.path_lt path).false
  cancelled := settled.wf.cancelled_edge
  degrees := settled.degrees
  counted := ⟨settled.wf.relays_eq, settled.wf.finite_relays⟩
  token := settled.wf.token_ancestry
  relay _ isRelay ancestor := settled.mem_ancestry isRelay ancestor
  indexed := settled.wf.index_iff

end Graph

namespace World

/-- After every operation of a run the graph is structured, its tokens are the live ones,
and no assertion or map access of the next operation fails. -/
theorem compressed_graph_structure {world : World ω} (reachable : Reachable ν world) :
    world.graph.Structured ∧ (∀ id, id ∈ world.live ↔ world.graph.IsToken id) ∧
      ∀ op : Op ω ν, world.Permits op → world.HasRoom op →
        ∃ next handles, world.step op = .ok (next, handles) := by
  have agrees := reachable.agrees
  refine ⟨agrees.settled.structured, agrees.live_iff, ?_⟩
  intro op permitted room
  obtain ⟨next, handles, stepped, -⟩ := agrees.step permitted room
  exact ⟨next, handles, stepped⟩

/-- A removal that leaves a relay below its two parents. -/
theorem compressed_graph_structure_relay :
    ∃ world : World Nat, Reachable Nat world ∧ world.live = {4, 3, 1, 0} ∧
      world.graph.relays = 1 ∧ world.graph.IsRelay 2 ∧ world.graph.Structured := by
  obtain ⟨world, signature, reachable, live, relayed⟩ := relayed_reachable
  exact ⟨world, reachable, live, relayed.relays_eq, ⟨_, relayed.middle, rfl⟩,
    (compressed_graph_structure reachable).1⟩

end World

end VThread.Cancellation
