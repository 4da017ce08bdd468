import Mathlib.Algebra.BigOperators.Group.Finset.Basic
import Mathlib.Algebra.Order.BigOperators.Group.Finset
import VThread.Cancellation.Removal

/-!
# Cancelling a token

The marking loop reaches exactly the entries below the cancelled token that were not
cancelled before, each of them once.
-/

namespace VThread.Cancellation

open VThread.Lib

variable {ω ν : Type}

namespace Graph

/-- The graph with the entries in `marked` cancelled. -/
def mark (graph : Graph ω) (marked : List Nat) : Graph ω :=
  { graph with
    nodes := fun id => (graph.nodes id).map fun entry =>
      { entry with cancelled := entry.cancelled || decide (id ∈ marked) } }

section Mark

variable {graph : Graph ω} {marked : List Nat} {id : Nat} {entry : Entry ω}

@[simp] theorem mark_nil : graph.mark [] = graph := by
  simp [mark]

theorem mark_nodes (found : graph.nodes id = some entry) :
    (graph.mark marked).nodes id =
      some { entry with cancelled := entry.cancelled || decide (id ∈ marked) } := by
  simp [mark, found]

@[simp] theorem mark_parentsOf : (graph.mark marked).parentsOf id = graph.parentsOf id := by
  cases found : graph.nodes id <;> simp [parentsOf, mark, found]

@[simp] theorem mark_childrenOf : (graph.mark marked).childrenOf id = graph.childrenOf id := by
  cases found : graph.nodes id <;> simp [childrenOf, mark, found]

@[simp] theorem mark_ancestry : (graph.mark marked).ancestry id = graph.ancestry id := by
  cases found : graph.nodes id <;> simp [ancestry, mark, found]

@[simp] theorem mark_edge {parent child : Nat} :
    (graph.mark marked).Edge parent child ↔ graph.Edge parent child := by
  simp [Edge]

@[simp] theorem mark_isToken : (graph.mark marked).IsToken id ↔ graph.IsToken id := by
  cases found : graph.nodes id <;> simp [IsToken, mark, found]

@[simp] theorem mark_isRelay : (graph.mark marked).IsRelay id ↔ graph.IsRelay id := by
  cases found : graph.nodes id <;> simp [IsRelay, mark, found]

theorem mark_cancelled (marked : List Nat) (present : ∃ entry, graph.nodes id = some entry) :
    (graph.mark marked).Cancelled id ↔ graph.Cancelled id ∨ id ∈ marked := by
  obtain ⟨entry, found⟩ := present
  rw [cancelled_iff (mark_nodes found), cancelled_iff found]
  simp

theorem mark_reach {source target : Nat} :
    (graph.mark marked).Reach source target ↔ graph.Reach source target := by
  have same : (graph.mark marked).Edge = graph.Edge := by
    funext parent child
    exact propext mark_edge
  rw [Reach, Reach, same]

theorem put_mark (marked : List Nat) (found : graph.nodes id = some entry) :
    (graph.mark marked).put id { entry with cancelled := true } =
      graph.mark (marked ++ [id]) := by
  simp only [put, mark, Graph.mk.injEq, true_and, and_true]
  funext query
  by_cases equal : query = id
  · subst equal
    simp [found]
  · simp [equal]

end Mark

/-! ## The loop -/

/-- The handle stored with a token. -/
def flagOf (graph : Graph ω) (id : Nat) : Option ω := (graph.nodes id).bind Entry.flag

/-- Where the marking of everything below `root` stands.  The marked entries are
listed in the order of the marking. -/
structure Marking (graph : Graph ω) (root : Nat) (marked stack : List Nat) : Prop where
  nodup : marked.Nodup
  fresh : ∀ id ∈ marked, ¬ graph.Cancelled id
  reached : ∀ id ∈ marked, graph.Reach root id
  stacked : ∀ id ∈ stack, graph.Reach root id ∧ ∃ entry, graph.nodes id = some entry
  rooted : root ∈ marked ∨ graph.Cancelled root ∨ root ∈ stack
  closed : ∀ id ∈ marked, ∀ child, graph.Edge id child →
    child ∈ marked ∨ graph.Cancelled child ∨ child ∈ stack

/-- Bound on the remaining iterations. -/
def remaining (graph : Graph ω) (marked stack : List Nat) : Nat :=
  ∑ id ∈ Finset.range graph.next \ marked.toFinset,
    (1 + (graph.childrenOf id).toList.length) + stack.length

/-- With an empty stack the marking is complete. -/
theorem Marking.mem_iff {graph : Graph ω} {root : Nat} {marked : List Nat}
    (marking : Marking graph root marked []) (wf : graph.WF) (id : Nat) :
    id ∈ marked ↔ graph.Reach root id ∧ ¬ graph.Cancelled id := by
  constructor
  · exact fun member => ⟨marking.reached id member, marking.fresh id member⟩
  · rintro ⟨path, fresh⟩
    have covered : id ∈ marked ∨ graph.Cancelled id := by
      clear fresh
      induction path with
      | refl => simpa using marking.rooted
      | @tail middle last _ step ih =>
          rcases ih with member | cancelled
          · simpa using marking.closed middle member last step
          · exact .inr (wf.cancelled_edge _ _ step cancelled)
    exact covered.resolve_right fresh

/-- An entry that is already cancelled is skipped. -/
theorem Marking.skip {graph : Graph ω} {root id : Nat} {marked stack : List Nat}
    (marking : Marking graph root marked (id :: stack))
    (seen : graph.Cancelled id ∨ id ∈ marked) : Marking graph root marked stack := by
  have dropped : ∀ other, other ∈ marked ∨ graph.Cancelled other ∨ other ∈ id :: stack →
      other ∈ marked ∨ graph.Cancelled other ∨ other ∈ stack := by
    rintro other (member | cancelled | stacked)
    · exact .inl member
    · exact .inr (.inl cancelled)
    · rcases List.mem_cons.1 stacked with rfl | stacked
      · rcases seen with cancelled | member
        · exact .inr (.inl cancelled)
        · exact .inl member
      · exact .inr (.inr stacked)
  exact {
    nodup := marking.nodup
    fresh := marking.fresh
    reached := marking.reached
    stacked := fun other member => marking.stacked other (List.mem_cons_of_mem _ member)
    rooted := dropped root marking.rooted
    closed := fun other member child edge =>
      dropped child (marking.closed other member child edge) }

/-- Marking an entry puts its children on the stack. -/
theorem Marking.push {graph : Graph ω} (wf : graph.WF) {root id : Nat}
    {marked stack : List Nat} (marking : Marking graph root marked (id :: stack))
    (unmarked : id ∉ marked) (live : ¬ graph.Cancelled id) :
    Marking graph root (marked ++ [id])
      ((graph.childrenOf id).toList.reverse ++ stack) := by
  have reached := (marking.stacked id (by simp)).1
  have kept : ∀ other, other ∈ marked ∨ graph.Cancelled other ∨ other ∈ id :: stack →
      other ∈ marked ++ [id] ∨ graph.Cancelled other ∨
        other ∈ (graph.childrenOf id).toList.reverse ++ stack := by
    rintro other (member | cancelled | stacked)
    · exact .inl (List.mem_append_left _ member)
    · exact .inr (.inl cancelled)
    · rcases List.mem_cons.1 stacked with rfl | stacked
      · exact .inl (by simp)
      · exact .inr (.inr (List.mem_append_right _ stacked))
  refine {
    nodup := ?_
    fresh := ?_
    reached := ?_
    stacked := ?_
    rooted := kept root marking.rooted
    closed := ?_ }
  · rw [List.nodup_append]
    refine ⟨marking.nodup, by simp, ?_⟩
    rintro other member last isLast rfl
    exact unmarked (List.mem_singleton.1 isLast ▸ member)
  · intro other member
    rcases List.mem_append.1 member with old | new
    · exact marking.fresh other old
    · rwa [List.mem_singleton.1 new]
  · intro other member
    rcases List.mem_append.1 member with old | new
    · exact marking.reached other old
    · rwa [List.mem_singleton.1 new]
  · intro other member
    rcases List.mem_append.1 member with child | old
    · rw [List.mem_reverse, IdSet.mem_toList] at child
      exact ⟨reached.tail child, wf.child_exists child⟩
    · exact marking.stacked other (List.mem_cons_of_mem _ old)
  · intro other member child edge
    rcases List.mem_append.1 member with old | new
    · exact kept child (marking.closed other old child edge)
    · rw [List.mem_singleton.1 new] at edge
      exact .inr (.inr (List.mem_append_left _ (by simpa [Edge] using edge)))

theorem remaining_push (graph : Graph ω) {id : Nat} {marked : List Nat} (stack : List Nat)
    (below : id < graph.next) (unmarked : id ∉ marked) :
    graph.remaining (marked ++ [id]) ((graph.childrenOf id).toList.reverse ++ stack) <
      graph.remaining marked (id :: stack) := by
  have member : id ∈ Finset.range graph.next \ marked.toFinset := by
    simp [below, unmarked]
  have erased : Finset.range graph.next \ (marked ++ [id]).toFinset =
      (Finset.range graph.next \ marked.toFinset).erase id := by
    ext other
    simp only [Finset.mem_sdiff, Finset.mem_range, List.mem_toFinset, List.mem_append,
      List.mem_singleton, Finset.mem_erase]
    tauto
  have split := Finset.sum_erase_add (Finset.range graph.next \ marked.toFinset)
    (fun id => 1 + (graph.childrenOf id).toList.length) member
  rw [remaining, remaining, erased, List.length_append, List.length_reverse, List.length_cons]
  omega

theorem WF.remaining_le {graph : Graph ω} (wf : graph.WF) (root : Nat) :
    graph.remaining [] [root] ≤ graph.cancelFuel := by
  have each : ∀ id ∈ Finset.range graph.next,
      1 + (graph.childrenOf id).toList.length ≤ 1 + graph.next := by
    intro id _
    have subset : (graph.childrenOf id).toList.toFinset ⊆ Finset.range graph.next := by
      intro child member
      rw [List.mem_toFinset, IdSet.mem_toList] at member
      obtain ⟨entry, found⟩ := wf.child_exists member
      exact Finset.mem_range.2 (wf.lt_next found)
    have card := Finset.card_le_card subset
    rw [List.toFinset_card_of_nodup (IdSet.nodup_toList _), Finset.card_range] at card
    omega
  have total := Finset.sum_le_sum each
  rw [Finset.sum_const, Finset.card_range, Nat.nsmul_eq_mul] at total
  have square : (graph.next + 1) ^ 2 = graph.next * (1 + graph.next) + graph.next + 1 := by
    ring
  simp only [remaining, List.toFinset_nil, Finset.sdiff_empty, List.length_singleton,
    cancelFuel, square]
  omega

/-- The loop returns the marked graph, the relays among the marked entries and the
upgradable handles of the tokens among them. -/
theorem cancelLoop_spec (upgrade : ω → Option ν) (fuel : Nat) {graph : Graph ω} (wf : graph.WF)
    {root : Nat} {marked stack : List Nat} (marking : Marking graph root marked stack)
    (enough : graph.remaining marked stack ≤ fuel) :
    ∃ final, Marking graph root final [] ∧
      cancelLoop upgrade fuel (graph.mark marked) stack
          (marked.filter fun id => (graph.flagOf id).isNone)
          (marked.filterMap fun id => (graph.flagOf id).bind upgrade) =
        .ok (graph.mark final, final.filter fun id => (graph.flagOf id).isNone,
          final.filterMap fun id => (graph.flagOf id).bind upgrade) := by
  induction fuel generalizing marked stack with
  | zero =>
      cases stack with
      | nil =>
          exact ⟨marked, marking, rfl⟩
      | cons =>
          simp [remaining] at enough
  | succ fuel ih =>
      cases stack with
      | nil =>
          exact ⟨marked, marking, rfl⟩
      | cons id stack =>
          obtain ⟨entry, found⟩ := (marking.stacked id (by simp)).2
          have isCancelled := mark_cancelled marked ⟨entry, found⟩
          rw [cancelled_iff (mark_nodes found)] at isCancelled
          by_cases seen : graph.Cancelled id ∨ id ∈ marked
          · have shorter : graph.remaining marked stack ≤ fuel := by
              rw [remaining, List.length_cons] at enough
              rw [remaining]
              omega
            obtain ⟨final, complete, looped⟩ := ih (marking.skip seen) shorter
            refine ⟨final, complete, ?_⟩
            rw [cancelLoop, mark_nodes found]
            simp only [expect_some, ok_bind]
            rw [if_pos (isCancelled.2 seen)]
            exact looped
          · have unseen : (entry.cancelled || decide (id ∈ marked)) = false := by
              rw [← Bool.not_eq_true]
              exact fun isTrue => seen (isCancelled.1 isTrue)
            have unmarked : id ∉ marked := fun member => seen (.inr member)
            have pushed := marking.push wf unmarked fun isTrue => seen (.inl isTrue)
            have fewer := remaining_push graph stack
              (wf.lt_next found) unmarked
            have nextGraph := put_mark marked found
            rw [childrenOf_eq found] at pushed fewer
            cases flag : entry.flag with
            | none =>
                have flagOf : graph.flagOf id = none := by simp [Graph.flagOf, found, flag]
                obtain ⟨final, complete, looped⟩ := ih pushed (by omega)
                have relays : (marked ++ [id]).filter (fun id => (graph.flagOf id).isNone) =
                    (marked.filter fun id => (graph.flagOf id).isNone) ++ [id] := by
                  simp [flagOf]
                have handles : (marked ++ [id]).filterMap
                    (fun id => (graph.flagOf id).bind upgrade) =
                    marked.filterMap fun id => (graph.flagOf id).bind upgrade := by
                  simp [flagOf]
                refine ⟨final, complete, ?_⟩
                rw [cancelLoop, mark_nodes found]
                simp only [expect_some, ok_bind, unseen, Bool.false_eq_true, if_false, flag]
                rw [← looped, ← nextGraph, flag, relays, handles]
            | some handle =>
                have flagOf : graph.flagOf id = some handle := by
                  simp [Graph.flagOf, found, flag]
                obtain ⟨final, complete, looped⟩ := ih pushed (by omega)
                have relays : (marked ++ [id]).filter (fun id => (graph.flagOf id).isNone) =
                    marked.filter fun id => (graph.flagOf id).isNone := by
                  simp [flagOf]
                have handles : (marked ++ [id]).filterMap
                    (fun id => (graph.flagOf id).bind upgrade) =
                    (marked.filterMap fun id => (graph.flagOf id).bind upgrade) ++
                      (upgrade handle).toList := by
                  rw [List.filterMap_append]
                  cases upgraded : upgrade handle <;> simp [flagOf, upgraded]
                refine ⟨final, complete, ?_⟩
                rw [cancelLoop, mark_nodes found]
                simp only [expect_some, ok_bind, unseen, Bool.false_eq_true, if_false, flag]
                rw [← looped, ← nextGraph, flag, relays, handles]

/-! ## Cancellation -/

theorem WF.flagOf_isNone {graph : Graph ω} (wf : graph.WF) {id : Nat}
    (present : ∃ entry, graph.nodes id = some entry) :
    (graph.flagOf id).isNone = true ↔ graph.IsRelay id := by
  obtain ⟨entry, found⟩ := present
  have iff := wf.flag_iff id entry found
  rw [isRelay_iff found]
  cases flag : entry.flag <;> cases kind : entry.kind <;>
    simp_all [Graph.flagOf]

/-- Marking everything below an entry keeps the graph well formed. -/
theorem WF.mark {graph : Graph ω} (wf : graph.WF) {root : Nat} {marked : List Nat}
    (marking : Marking graph root marked []) : (graph.mark marked).WF where
  next_lt := wf.next_lt
  fresh id above := by
    simp [Graph.mark, wf.fresh id above]
  edge_iff parent child := by
    simpa using wf.edge_iff parent child
  edge_lt parent child edge := wf.edge_lt _ _ (mark_edge.1 edge)
  cancelled_edge parent child edge isCancelled := by
    rw [mark_edge] at edge
    rw [mark_cancelled marked (wf.child_exists edge)]
    rcases (mark_cancelled marked (WF.parent_exists edge)).1 isCancelled with old | member
    · exact .inl (wf.cancelled_edge _ _ edge old)
    · have next := marking.closed parent member child edge
      simpa [or_comm] using next
  flag_iff id entry found := by
    cases old : graph.nodes id with
    | none => simp [Graph.mark, old] at found
    | some oldEntry =>
        rw [mark_nodes old] at found
        cases found
        exact wf.flag_iff id oldEntry old
  token_ancestry id token := by
    rw [mark_ancestry]
    exact wf.token_ancestry id (mark_isToken.1 token)
  relays_eq := by
    have same : {id | (graph.mark marked).IsRelay id} = {id | graph.IsRelay id} := by
      ext id
      exact mark_isRelay
    rw [same]
    exact wf.relays_eq
  index_iff candidate id := by
    show id ∈ graph.relayIndex candidate ↔ _
    rw [wf.index_iff]
    cases old : graph.nodes id <;> simp [Graph.mark, old]

/-- `cancel_nodes` up to its call of `normalize`, with the handles it returns. -/
def prepareCancel (graph : Graph ω) (upgrade : ω → Option ν) (id : Nat) :
    Checked ((Graph ω × List RelayWork) × List ν) := do
  let (graph, changedRelays, cancelled) ←
    cancelLoop upgrade graph.cancelFuel graph [id] [] []
  pure ((graph, changedRelays.map RelayWork.known), cancelled)

theorem cancelNodes_eq (graph : Graph ω) (upgrade : ω → Option ν) (id : Nat) :
    graph.cancelNodes upgrade id =
      (graph.prepareCancel upgrade id >>= fun prepared =>
        prepared.1.1.normalize prepared.1.2 >>= fun graph => pure (graph, prepared.2)) := by
  rw [cancelNodes, prepareCancel]
  simp only [bind_assoc]
  rfl

/-- The marked graph may be normalized with the marked relays queued; its fresh identity
stands for a removed token that nothing mentions. -/
theorem prepareCancel_spec {graph : Graph ω} (settled : graph.Settled)
    (upgrade : ω → Option ν) {root : Nat} (token : graph.IsToken root) :
    ∃ marked work, graph.prepareCancel upgrade root = .ok ((graph.mark marked, work),
        marked.filterMap fun id => (graph.flagOf id).bind upgrade) ∧
      marked.Nodup ∧ (∀ id, id ∈ marked ↔ graph.Reach root id ∧ ¬ graph.Cancelled id) ∧
      (graph.mark marked).Normalizing (Pending.empty.enqueueAll work) graph.next ∧
      ¬ (graph.mark marked).IsToken graph.next := by
  have wf := settled.wf
  obtain ⟨entry, found, -⟩ := token
  have start : Marking graph root [] [root] := by
    refine ⟨List.nodup_nil, by simp, by simp, ?_, by simp, by simp⟩
    intro id member
    rw [List.mem_singleton.1 member]
    exact ⟨.refl, entry, found⟩
  obtain ⟨marked, complete, looped⟩ := cancelLoop_spec upgrade graph.cancelFuel wf
    start (wf.remaining_le root)
  rw [mark_nil, List.filter_nil, List.filterMap_nil] at looped
  have mem_marked := complete.mem_iff wf
  have markedWF := wf.mark complete
  set relays := marked.filter fun id => (graph.flagOf id).isNone with relaysDef
  have unqueued : ∀ id, graph.IsRelay id →
      id ∉ (Pending.empty.enqueueAll (relays.map RelayWork.known)).ids → id ∉ marked := by
    intro id relay absent member
    have present : ∃ entry, graph.nodes id = some entry := by
      obtain ⟨relayEntry, relayFound, -⟩ := relay
      exact ⟨relayEntry, relayFound⟩
    apply absent
    rw [Pending.mem_enqueueAll, RelayWork.exists_known, relaysDef, List.mem_filter]
    exact .inl ⟨member, (wf.flagOf_isNone present).2 relay⟩
  have sameFlag : ∀ id, graph.IsRelay id → id ∉ marked →
      ((graph.mark marked).Cancelled id ↔ graph.Cancelled id) := by
    intro id relay absent
    obtain ⟨relayEntry, relayFound, _⟩ := relay
    rw [mark_cancelled marked ⟨relayEntry, relayFound⟩]
    simp [absent]
  have consistent : ∀ id, graph.IsRelay id → (graph.mark marked).Consistent id := by
    intro id relay ancestor
    simpa using settled.consistent id relay ancestor
  have normalizing : (graph.mark marked).Normalizing
      (Pending.empty.enqueueAll (relays.map RelayWork.known)) graph.next := {
    wf := markedWF
    consistent := fun id relay _ => consistent id (mark_isRelay.1 relay)
    stale_parent := fun id relay mentions =>
      .inr ((consistent id (mark_isRelay.1 relay) graph.next).1 mentions)
    degrees := by
      intro id relay _
      simpa using settled.degrees id (mark_isRelay.1 relay)
    distinct := by
      intro left right leftRelay rightRelay differ leftAbsent rightAbsent
      rw [mark_isRelay] at leftRelay rightRelay
      rw [Equivalent, mark_ancestry, mark_ancestry,
        sameFlag left leftRelay (unqueued left leftRelay leftAbsent),
        sameFlag right rightRelay (unqueued right rightRelay rightAbsent)]
      exact settled.distinct left right leftRelay rightRelay differ
    bounded := by
      intro id member
      rw [Pending.mem_enqueueAll, RelayWork.exists_known] at member
      rcases member with queued | queued
      · have reached := complete.reached id (List.mem_filter.1 queued).1
        rcases Relation.ReflTransGen.cases_tail reached with rfl | ⟨parent, -, edge⟩
        · exact wf.lt_next found
        · obtain ⟨childEntry, childFound⟩ := wf.child_exists edge
          exact wf.lt_next childFound
      · simp [Pending.empty] at queued }
  have dead : ¬ (graph.mark marked).IsToken graph.next := by
    rw [mark_isToken]
    rintro ⟨freshEntry, freshFound, -⟩
    rw [wf.fresh graph.next le_rfl] at freshFound
    cases freshFound
  refine ⟨marked, _, ?_, complete.nodup, mem_marked, normalizing, dead⟩
  rw [prepareCancel, looped]
  rfl

/-- Cancelling a live token returns a settled graph in which exactly the tokens below it
are cancelled in addition, and the handles of those, each once. -/
theorem cancelNodes_spec {graph : Graph ω} (settled : graph.Settled)
    (upgrade : ω → Option ν) {root : Nat} (token : graph.IsToken root) :
    ∃ graph' marked, graph.cancelNodes upgrade root = .ok (graph',
        marked.filterMap fun id => (graph.flagOf id).bind upgrade) ∧
      marked.Nodup ∧ (∀ id, id ∈ marked ↔ graph.Reach root id ∧ ¬ graph.Cancelled id) ∧
      graph'.Settled ∧ SameTokens (graph.mark marked) graph' := by
  obtain ⟨marked, work, prepareOk, nodup, mem_marked, normalizing, dead⟩ :=
    prepareCancel_spec settled upgrade token
  obtain ⟨graph', normalized, settled', same⟩ := normalize_spec normalizing dead
  refine ⟨graph', marked, ?_, nodup, mem_marked, settled', same⟩
  rw [cancelNodes_eq, prepareOk]
  simp only [ok_bind, normalized]
  rfl

end Graph

end VThread.Cancellation
