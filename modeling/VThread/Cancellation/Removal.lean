import VThread.Cancellation.Operations

/-!
# Removing a token

A childless token below tokens only is dropped at once.  A token with several parents
and several children becomes a relay; every other token is spliced out.  Normalization
settles the graph in both cases.
-/

namespace VThread.Cancellation

open VThread.Lib

variable {ω : Type}

namespace Graph

/-- `graph'` no longer has the token `id`; all other tokens keep their entries, flags
and mutual reachability. -/
structure Forgets (graph graph' : Graph ω) (id : Nat) : Prop where
  next_eq : graph'.next = graph.next
  isToken : ∀ other, graph'.IsToken other ↔ other ≠ id ∧ graph.IsToken other
  core : ∀ other, other ≠ id → graph.IsToken other →
    graph'.coreOf other = graph.coreOf other
  reach : ∀ source target, source ≠ id → target ≠ id → graph.IsToken source →
    graph.IsToken target → (graph'.Reach source target ↔ graph.Reach source target)

theorem Forgets.trans {first second third : Graph ω} {id : Nat}
    (forgets : Forgets first second id) (same : SameTokens second third) :
    Forgets first third id where
  next_eq := same.next_eq.trans forgets.next_eq
  isToken other := (same.isToken other).trans (forgets.isToken other)
  core other ne token :=
    (same.core other ((forgets.isToken other).2 ⟨ne, token⟩)).trans
      (forgets.core other ne token)
  reach source target sourceNe targetNe sourceToken targetToken :=
    (same.reach source target ((forgets.isToken _).2 ⟨sourceNe, sourceToken⟩)
      ((forgets.isToken _).2 ⟨targetNe, targetToken⟩)).trans
      (forgets.reach _ _ sourceNe targetNe sourceToken targetToken)

theorem Erased.forgets {graph graph' : Graph ω} {id : Nat} (erased : Erased graph graph' id)
    (wf : graph.WF) : Forgets graph graph' id where
  next_eq := erased.next_eq
  isToken := erased.isToken_iff
  core other ne _ := erased.core other ne
  reach _ _ sourceNe targetNe _ _ := erased.reach_iff wf sourceNe targetNe

/-- A settled graph may be normalized again around any identity. -/
theorem Settled.normalizing {graph : Graph ω} (settled : graph.Settled) (pending : Pending)
    (gone : Nat) (bounded : ∀ id ∈ pending.ids, id < graph.next) :
    graph.Normalizing pending gone where
  wf := settled.wf
  consistent id relay _ := settled.consistent id relay
  stale_parent id relay mentions := .inr ((settled.consistent id relay gone).1 mentions)
  degrees id relay _ := settled.degrees id relay
  distinct left right leftRelay rightRelay ne _ _ :=
    settled.distinct left right leftRelay rightRelay ne
  bounded := bounded

/-! ## Leaves -/

section Leaf

variable {graph : Graph ω} {id : Nat} {entry : Entry ω}

theorem parentsAreTokens_spec (wf : graph.WF) (found : graph.nodes id = some entry) :
    ∃ result, graph.parentsAreTokens entry.parents = .ok result ∧
      (result = true ↔ ∀ parent, graph.Edge parent id → graph.IsToken parent) := by
  have general : ∀ ids : List Nat, (∀ parent ∈ ids, ∃ entry, graph.nodes parent = some entry) →
      ∃ result, ids.allM (fun parent => do
          let entry ← graph.index parent
          pure (decide (entry.kind = .token))) = Except.ok (ε := String) result ∧
        (result = true ↔ ∀ parent ∈ ids, graph.IsToken parent) := by
    intro ids
    induction ids with
    | nil => exact fun _ => ⟨true, rfl, by simp⟩
    | cons head tail ih =>
        intro present
        obtain ⟨headEntry, headFound⟩ := present head (by simp)
        obtain ⟨result, tailOk, tailIff⟩ := ih fun parent member =>
          present parent (by simp [member])
        by_cases token : headEntry.kind = .token
        · refine ⟨result, ?_, ?_⟩
          · simp only [List.allM, index, headFound, expect_some, ok_bind, token, decide_true]
            exact tailOk
          · rw [tailIff, List.forall_mem_cons, isToken_iff headFound]
            exact ⟨fun rest => ⟨token, rest⟩, And.right⟩
        · refine ⟨false, ?_, ?_⟩
          · simp only [List.allM, index, headFound, expect_some, ok_bind, token, decide_false]
            rfl
          · rw [List.forall_mem_cons, isToken_iff headFound]
            simp [token]
  obtain ⟨result, computed, iff⟩ := general entry.parents.toList fun parent member =>
    WF.parent_exists ((wf.parent_mem found).1 (IdSet.mem_toList.1 member))
  refine ⟨result, computed, iff.trans ?_⟩
  simp only [IdSet.mem_toList, wf.parent_mem found]

theorem anyCancelled_spec (wf : graph.WF) (found : graph.nodes id = some entry) :
    ∃ result, graph.anyCancelled entry.parents = .ok result ∧
      (result = true ↔ ∃ parent, graph.Edge parent id ∧ graph.Cancelled parent) := by
  have general : ∀ ids : List Nat, (∀ parent ∈ ids, ∃ entry, graph.nodes parent = some entry) →
      ∃ result, ids.anyM (fun parent => do
          let entry ← graph.index parent
          pure entry.cancelled) = Except.ok (ε := String) result ∧
        (result = true ↔ ∃ parent ∈ ids, graph.Cancelled parent) := by
    intro ids
    induction ids with
    | nil => exact fun _ => ⟨false, rfl, by simp⟩
    | cons head tail ih =>
        intro present
        obtain ⟨headEntry, headFound⟩ := present head (by simp)
        obtain ⟨result, tailOk, tailIff⟩ := ih fun parent member =>
          present parent (by simp [member])
        cases flag : headEntry.cancelled with
        | true =>
            refine ⟨true, ?_, ?_⟩
            · simp only [List.anyM, index, headFound, expect_some, ok_bind, flag, pure_bind]
              rfl
            · rw [List.exists_mem_cons_iff, cancelled_iff headFound]
              simp [flag]
        | false =>
            refine ⟨result, ?_, ?_⟩
            · simp only [List.anyM, index, headFound, expect_some, ok_bind, flag, pure_bind]
              exact tailOk
            · rw [tailIff, List.exists_mem_cons_iff, cancelled_iff headFound]
              simp [flag]
  obtain ⟨result, computed, iff⟩ := general entry.parents.toList fun parent member =>
    WF.parent_exists ((wf.parent_mem found).1 (IdSet.mem_toList.1 member))
  refine ⟨result, computed, iff.trans ?_⟩
  simp only [IdSet.mem_toList, wf.parent_mem found]

/-- Dropping a childless token and unlinking its parents erases it. -/
theorem dropLeaf_spec (wf : graph.WF) (found : graph.nodes id = some entry)
    (token : entry.kind = .token) (childless : ∀ child, ¬ graph.Edge id child) :
    graph.takeLeaf id = .ok (entry, graph.drop id) ∧
      ∃ graph', entry.parents.toList.foldlM
          (fun graph parent => graph.removeChild parent id) (graph.drop id) = .ok graph' ∧
        Erased graph graph' id := by
  have notRelay : ¬ graph.IsRelay id := ((isToken_iff found).2 token).not_isRelay
  have parentNe : ∀ parent ∈ entry.parents, parent ≠ id := fun parent member =>
    (wf.edge_lt _ _ ((wf.parent_mem found).1 member)).ne
  have detached : Detached graph (graph.drop id) id := by
    refine ⟨rfl, rfl, ?_, (wf.ncard_other_relays_of_token notRelay).symm⟩
    intro candidate other
    refine ⟨fun member => ⟨?_, member⟩, And.right⟩
    rintro rfl
    obtain ⟨entry', found', isRelay, -⟩ := (wf.index_iff _ _).1 member
    exact notRelay ⟨entry', found', isRelay⟩
  have droppedNe : ∀ other, other ≠ id → (graph.drop id).nodes other = graph.nodes other := by
    intro other ne
    simp [drop, ne]
  obtain ⟨graph', folded, same, parents, children⟩ := foldlM_removeChild
    (graph.drop id) entry.parents.nodup_toList id (by
      intro parent member
      rw [IdSet.mem_toList] at member
      rw [droppedNe parent (parentNe parent member)]
      exact WF.parent_exists ((wf.parent_mem found).1 member))
  have edges : ∀ source target, graph'.Edge source target ↔
      source ≠ id ∧ target ≠ id ∧ graph.Edge source target := by
    intro source target
    rw [Edge, children]
    by_cases sourceEq : source = id
    · subst sourceEq
      have absent : (graph.drop source).childrenOf source = .empty := by
        simp [childrenOf, drop]
      rw [absent]
      split <;> simp
    · have sameChildren : (graph.drop id).childrenOf source = graph.childrenOf source := by
        simp [childrenOf, droppedNe source sourceEq]
      rw [sameChildren]
      simp only [sourceEq, IdSet.mem_toList, ne_eq, not_false_eq_true, true_and]
      split
      next => simp [Edge]
      next notParent =>
        refine ⟨fun edge => ⟨?_, edge⟩, And.right⟩
        rintro rfl
        exact notParent ((wf.parent_mem found).2 edge)
  refine ⟨?_, graph', folded, detached.removed same ?_, ?_⟩
  · simp only [takeLeaf, found, expect_some, ok_bind, ensure_of token]
    rfl
  · intro source target
    refine (edges source target).trans ?_
    rw [parents]
    by_cases targetEq : target = id
    · subst targetEq
      simp [parentsOf, drop]
    · have sameParents : (graph.drop id).parentsOf target = graph.parentsOf target := by
        simp [parentsOf, droppedNe target targetEq]
      rw [sameParents, ← wf.edge_iff]
      refine ⟨fun edge => edge.2.2, fun edge => ⟨?_, targetEq, edge⟩⟩
      rintro rfl
      exact childless target edge
  · intro source target
    rw [edges]
    refine ⟨fun edge => ⟨edge.1, edge.2.1, .inl edge.2.2⟩, ?_⟩
    rintro ⟨sourceNe, targetNe, edge | ⟨-, out⟩⟩
    · exact ⟨sourceNe, targetNe, edge⟩
    · exact (childless target out).elim

/-- A childless token below tokens only has no relay next to it. -/
theorem Erased.settled_leaf {graph' : Graph ω} (erased : Erased graph graph' id)
    (settled : graph.Settled) (childless : ∀ child, ¬ graph.Edge id child)
    (belowTokens : ∀ parent, graph.Edge parent id → graph.IsToken parent) :
    graph'.Settled where
  wf := erased.wf' settled.wf
  consistent other relay := by
    obtain ⟨ne, relay⟩ := (erased.isRelay_iff other).1 relay
    exact erased.consistent (settled.wf.loopless id) ne (settled.consistent other relay)
      fun edge => (childless other edge).elim
  degrees other relay := by
    obtain ⟨ne, relay⟩ := (erased.isRelay_iff other).1 relay
    have notParent : ¬ graph.Edge other id := fun edge =>
      (belowTokens other edge).not_isRelay relay
    have sameParents : graph'.parentsOf other = graph.parentsOf other := by
      apply erased.parents_unchanged settled.wf
      intro parent
      rw [erased.bypass]
      constructor
      · rintro ⟨-, -, edge | ⟨-, out⟩⟩
        · exact edge
        · exact (childless other out).elim
      · intro edge
        refine ⟨?_, ne, .inl edge⟩
        rintro rfl
        exact childless other edge
    have sameChildren : graph'.childrenOf other = graph.childrenOf other := by
      apply Removed.children_unchanged
      intro child
      rw [erased.bypass]
      constructor
      · rintro ⟨-, -, edge | ⟨into, -⟩⟩
        · exact edge
        · exact (notParent into).elim
      · intro edge
        refine ⟨ne, ?_, .inl edge⟩
        rintro rfl
        exact notParent edge
    rw [sameParents, sameChildren]
    exact settled.degrees other relay
  distinct left right leftRelay rightRelay differ := by
    obtain ⟨leftNe, leftRelay⟩ := (erased.isRelay_iff left).1 leftRelay
    obtain ⟨rightNe, rightRelay⟩ := (erased.isRelay_iff right).1 rightRelay
    rw [Equivalent, ancestry_congr (erased.core left leftNe),
      ancestry_congr (erased.core right rightNe), cancelled_congr (erased.core left leftNe),
      cancelled_congr (erased.core right rightNe)]
    exact settled.distinct left right leftRelay rightRelay differ

end Leaf

/-! ## Turning a token into a relay -/

/-- `graph'` has the token `id` of `graph` as a relay with an exact signature. -/
structure Converted (graph graph' : Graph ω) (id : Nat) : Prop where
  next_eq : graph'.next = graph.next
  relays_eq : graph'.relays = graph.relays + 1
  core : ∀ other, other ≠ id → graph'.coreOf other = graph.coreOf other
  relay : ∃ entry, graph'.nodes id = some entry ∧ entry.kind = .relay ∧ entry.flag = none
  cancelled : graph'.Cancelled id ↔ ∃ parent, graph.Edge parent id ∧ graph.Cancelled parent
  ancestry : ∀ ancestor, ancestor ∈ graph'.ancestry id ↔
    ∃ parent, graph.Edge parent id ∧ ancestor ∈ graph.ancestry parent
  parents : ∀ other, graph'.parentsOf other = graph.parentsOf other
  children : ∀ other, graph'.childrenOf other = graph.childrenOf other
  index : ∀ candidate other, other ∈ graph'.relayIndex candidate ↔
    ∃ entry, graph'.nodes other = some entry ∧ entry.kind = .relay ∧
      entry.signature.candidate = candidate

/-- The conversion of `remove`, before its normalization. -/
theorem convert_spec {graph : Graph ω} (wf : graph.WF) {id : Nat} {entry : Entry ω}
    (found : graph.nodes id = some entry) (token : entry.kind = .token) {inherited : Bool}
    (inherits : inherited = true ↔ ∃ parent, graph.Edge parent id ∧ graph.Cancelled parent) :
    ∃ signature modified graph', graph.signatureFor entry.parents = .ok signature ∧
      graph.modify id (fun entry =>
        { entry with kind := .relay, flag := none, cancelled := inherited, signature })
        "live cancellation node" = .ok modified ∧
      { modified with relays := modified.relays + 1 }.indexRelay id = .ok graph' ∧
      Converted graph graph' id := by
  obtain ⟨signature, computed, members⟩ := signatureFor_spec graph entry.parents
    fun parent member => WF.parent_exists ((wf.parent_mem found).1 member)
  let relay : Entry ω :=
    { entry with kind := .relay, flag := none, cancelled := inherited, signature }
  let modified := graph.put id relay
  let counted : Graph ω := { modified with relays := modified.relays + 1 }
  have foundNew : counted.nodes id = some relay := by simp [counted, modified, put]
  have nodesNe : ∀ other, other ≠ id → counted.nodes other = graph.nodes other := by
    intro other ne
    simp [counted, modified, put, ne]
  have notRelay : ¬ graph.IsRelay id := ((isToken_iff found).2 token).not_isRelay
  refine ⟨signature, modified, _, computed, ?_, indexRelay_spec foundNew rfl, ?_⟩
  · simp only [modify, found, expect_some, ok_bind]
    rfl
  · refine ⟨rfl, rfl, ?_, ⟨relay, foundNew, rfl, rfl⟩, ?_, ?_, ?_, ?_, ?_⟩
    · intro other ne
      show (counted.nodes other).map _ = _
      rw [nodesNe other ne]
      rfl
    · rw [← inherits]
      exact cancelled_iff foundNew
    · intro ancestor
      have self : counted.ancestry id = signature.members := ancestry_eq foundNew
      show ancestor ∈ counted.ancestry id ↔ _
      rw [self, members]
      simp only [wf.parent_mem found]
    · intro other
      show (counted.nodes other).elim _ _ = _
      by_cases equal : other = id
      · subst equal
        rw [foundNew, parentsOf_eq found]
        rfl
      · rw [nodesNe other equal]
        rfl
    · intro other
      show (counted.nodes other).elim _ _ = _
      by_cases equal : other = id
      · subst equal
        rw [foundNew, childrenOf_eq found]
        rfl
      · rw [nodesNe other equal]
        rfl
    · intro candidate other
      show other ∈ Function.update counted.relayIndex _ _ candidate ↔
        ∃ entry, counted.nodes other = some entry ∧ _
      have same : ∀ candidate, counted.relayIndex candidate = graph.relayIndex candidate :=
        fun _ => rfl
      by_cases equal : other = id
      · subst equal
        have notIndexed : ∀ candidate, other ∉ graph.relayIndex candidate := by
          intro candidate member
          obtain ⟨entry', found', isRelay, -⟩ := (wf.index_iff _ _).1 member
          exact notRelay ⟨entry', found', isRelay⟩
        simp only [Function.update_apply, foundNew, Option.some.injEq, exists_eq_left', same]
        split
        next candidateEq => simp [relay, candidateEq]
        next differ =>
          simp only [notIndexed, false_iff, not_and]
          exact fun _ candidateEq => differ candidateEq.symm
      · rw [nodesNe other equal, ← wf.index_iff]
        simp only [Function.update_apply, same]
        split
        next candidateEq =>
          subst candidateEq
          exact ⟨fun member => (Finset.mem_insert.1 member).resolve_left equal,
            Finset.mem_insert_of_mem⟩
        next => rfl

namespace Converted

variable {graph graph' : Graph ω} {id : Nat}

theorem edge_iff (converted : Converted graph graph' id) (source target : Nat) :
    graph'.Edge source target ↔ graph.Edge source target := by
  rw [Edge, Edge, converted.children]

theorem isRelay_self (converted : Converted graph graph' id) : graph'.IsRelay id := by
  obtain ⟨entry, found, relay, -⟩ := converted.relay
  exact ⟨entry, found, relay⟩

theorem isRelay_iff (converted : Converted graph graph' id) (other : Nat) :
    graph'.IsRelay other ↔ other = id ∨ graph.IsRelay other := by
  by_cases equal : other = id
  · subst equal
    simp [converted.isRelay_self]
  · simp [isRelay_congr (converted.core other equal), equal]

theorem not_isToken_self (converted : Converted graph graph' id) : ¬ graph'.IsToken id :=
  fun token => token.not_isRelay converted.isRelay_self

theorem forgets (converted : Converted graph graph' id) : Forgets graph graph' id where
  next_eq := converted.next_eq
  isToken other := by
    by_cases equal : other = id
    · subst equal
      simp [converted.not_isToken_self]
    · simp [isToken_congr (converted.core other equal), equal]
  core other ne _ := converted.core other ne
  reach source target _ _ _ _ := by
    have same : graph'.Edge = graph.Edge := by
      funext source target
      exact propext (converted.edge_iff source target)
    rw [Reach, Reach, same]

theorem wf (converted : Converted graph graph' id) (wf : graph.WF) (token : graph.IsToken id) :
    graph'.WF where
  next_lt := by
    rw [converted.next_eq]
    exact wf.next_lt
  fresh other above := by
    rw [converted.next_eq] at above
    have ne : other ≠ id := by
      rintro rfl
      obtain ⟨entry, found, -⟩ := token
      rw [wf.fresh other above] at found
      cases found
    rw [← coreOf_eq_none, converted.core other ne, coreOf_eq_none]
    exact wf.fresh other above
  edge_iff source target := by
    rw [converted.children, converted.parents]
    exact wf.edge_iff source target
  edge_lt source target edge := wf.edge_lt _ _ ((converted.edge_iff _ _).1 edge)
  cancelled_edge source target edge isCancelled := by
    rw [converted.edge_iff] at edge
    -- A relay is cancelled only below a cancelled parent, so its flag never exceeds
    -- the flag of the token it replaces.
    have oldSource : graph.Cancelled source := by
      by_cases equal : source = id
      · subst equal
        obtain ⟨parent, into, parentCancelled⟩ := converted.cancelled.1 isCancelled
        exact wf.cancelled_edge _ _ into parentCancelled
      · rwa [← cancelled_congr (converted.core source equal)]
    by_cases equal : target = id
    · subst equal
      exact converted.cancelled.2 ⟨source, edge, oldSource⟩
    · rw [cancelled_congr (converted.core target equal)]
      exact wf.cancelled_edge _ _ edge oldSource
  flag_iff other entry found := by
    by_cases equal : other = id
    · subst equal
      obtain ⟨relayEntry, relayFound, isRelay, noFlag⟩ := converted.relay
      rw [found] at relayFound
      cases relayFound
      simp [isRelay, noFlag]
    · have core := converted.core other equal
      rw [coreOf_eq_some.2 ⟨entry, found, rfl⟩] at core
      obtain ⟨old, oldFound, same⟩ := coreOf_eq_some.1 core.symm
      have oldFlag := wf.flag_iff other old oldFound
      simp only [Prod.mk.injEq] at same
      rwa [same.1, same.2.1] at oldFlag
  token_ancestry other otherToken := by
    obtain ⟨ne, old⟩ := (converted.forgets.isToken other).1 otherToken
    rw [ancestry_congr (converted.core other ne)]
    exact wf.token_ancestry other old
  relays_eq := by
    have notRelay : id ∉ {other | graph.IsRelay other} := token.not_isRelay
    rw [converted.relays_eq, wf.relays_eq, ← Set.ncard_insert_of_notMem notRelay wf.finite_relays]
    congr 1
    ext other
    exact (converted.isRelay_iff other).symm
  index_iff := converted.index

/-- The converted graph may be normalized with the relay and its children queued. -/
theorem normalizing (converted : Converted graph graph' id) (settled : graph.Settled)
    (token : graph.IsToken id) {pending : Pending} (selfQueued : id ∈ pending.ids)
    (childrenDirty : ∀ child, graph.Edge id child → child ∈ pending.dirty)
    (bounded : ∀ other ∈ pending.ids, other < graph.next) :
    graph'.Normalizing pending id := by
  have wf := settled.wf
  have ancestryNe : ∀ other, other ≠ id → graph'.ancestry other = graph.ancestry other :=
    fun other ne => ancestry_congr (converted.core other ne)
  have selfAncestry : graph.ancestry id = {id} := wf.token_ancestry id token
  have exactSelf : graph'.Consistent id := by
    intro ancestor
    rw [converted.ancestry]
    constructor
    · rintro ⟨parent, edge, member⟩
      exact ⟨parent, (converted.edge_iff _ _).2 edge,
        by rwa [ancestryNe parent (wf.edge_lt _ _ edge).ne]⟩
    · rintro ⟨parent, edge, member⟩
      rw [converted.edge_iff] at edge
      exact ⟨parent, edge, by rwa [ancestryNe parent (wf.edge_lt _ _ edge).ne] at member⟩
  have oldRelay : ∀ other, graph'.IsRelay other → other ≠ id → graph.IsRelay other :=
    fun other relay ne => ((converted.isRelay_iff other).1 relay).resolve_left ne
  exact {
    wf := converted.wf wf token
    consistent := by
      intro other relay absent
      by_cases equal : other = id
      · rw [equal]
        exact exactSelf
      · rw [ancestryNe other equal] at absent
        have exactOther := settled.consistent other (oldRelay other relay equal)
        have parentNe : ∀ parent, graph.Edge parent other → parent ≠ id := by
          rintro parent edge rfl
          exact absent ((exactOther parent).2 ⟨parent, edge, by simp [selfAncestry]⟩)
        intro ancestor
        rw [ancestryNe other equal, exactOther ancestor]
        constructor
        · rintro ⟨parent, edge, member⟩
          exact ⟨parent, (converted.edge_iff _ _).2 edge,
            by rwa [ancestryNe parent (parentNe parent edge)]⟩
        · rintro ⟨parent, edge, member⟩
          rw [converted.edge_iff] at edge
          exact ⟨parent, edge, by rwa [ancestryNe parent (parentNe parent edge)] at member⟩
    stale_parent := by
      intro other relay mentions
      by_cases equal : other = id
      · subst equal
        exact .inr ((exactSelf other).1 mentions)
      · rw [ancestryNe other equal] at mentions
        obtain ⟨parent, edge, inherited⟩ :=
          (settled.consistent other (oldRelay other relay equal) id).1 mentions
        by_cases parentEq : parent = id
        · subst parentEq
          exact .inl (childrenDirty other edge)
        · exact .inr ⟨parent, (converted.edge_iff _ _).2 edge,
            by rwa [ancestryNe parent parentEq]⟩
    degrees := by
      intro other relay absent
      have ne : other ≠ id := by
        rintro rfl
        exact absent selfQueued
      rw [converted.parents, converted.children]
      exact settled.degrees other (oldRelay other relay ne)
    distinct := by
      intro left right leftRelay rightRelay differ leftAbsent rightAbsent
      have leftNe : left ≠ id := by
        rintro rfl
        exact leftAbsent selfQueued
      have rightNe : right ≠ id := by
        rintro rfl
        exact rightAbsent selfQueued
      rw [Equivalent, ancestryNe left leftNe, ancestryNe right rightNe,
        cancelled_congr (converted.core left leftNe),
        cancelled_congr (converted.core right rightNe)]
      exact settled.distinct left right (oldRelay left leftRelay leftNe)
        (oldRelay right rightRelay rightNe) differ
    bounded := by
      intro other member
      rw [converted.next_eq]
      exact bounded other member }

end Converted

/-! ## Removal -/

/-- `remove` up to its call of `normalize`: the graph at that point and the work handed
over, or no work where a leaf is dropped without normalization. -/
def prepareRemove (graph : Graph ω) (id : Nat) :
    Checked (Graph ω × Option (List RelayWork)) := do
  let entry ← graph.index id
  match ← graph.directParent entry with
  | some parent =>
      let (_, graph) ← graph.takeLeaf id
      let graph ← graph.removeChild parent id
      pure (graph, none)
  | none =>
      if ← graph.directLeaf entry then
        let (entry, graph) ← graph.takeLeaf id
        let graph ← entry.parents.toList.foldlM
          (fun graph parent => graph.removeChild parent id) graph
        pure (graph, none)
      else do
        let entry ← expect (graph.nodes id) "live cancellation node"
        ensure (entry.kind = .token) "token removed twice"
        let inherited ← graph.anyCancelled entry.parents
        if 1 < entry.parents.len ∧ 1 < entry.children.len then do
          let signature ← graph.signatureFor entry.parents
          let graph ← graph.modify id (fun entry =>
            { entry with kind := .relay, flag := none, cancelled := inherited, signature })
            "live cancellation node"
          let graph ← { graph with relays := graph.relays + 1 }.indexRelay id
          pure (graph,
            some (RelayWork.known id :: entry.children.toList.map RelayWork.dirty))
        else do
          let (graph, affected) ← graph.erase id true true
          pure (graph, some affected)

/-- The rest of an operation, from the graph and the work it prepared. -/
def finish (graph : Graph ω) : Option (List RelayWork) → Checked (Graph ω)
  | none => pure graph
  | some work => graph.normalize work

theorem remove_eq (graph : Graph ω) (id : Nat) :
    graph.remove id =
      (graph.prepareRemove id >>= fun prepared => prepared.1.finish prepared.2) := by
  rw [remove, prepareRemove]
  simp only [bind_assoc]
  refine bind_congr fun entry => bind_congr fun parent => ?_
  cases parent with
  | some parent =>
      simp only [bind_assoc]
      exact bind_congr fun _ => (bind_pure _).symm
  | none =>
      simp only [bind_assoc]
      refine bind_congr fun isLeaf => ?_
      cases isLeaf with
      | true =>
          simp only [if_true, bind_assoc]
          exact bind_congr fun _ => (bind_pure _).symm
      | false =>
          simp only [Bool.false_eq_true, if_false, bind_assoc]
          refine bind_congr fun entry => bind_congr fun _ => bind_congr fun inherited => ?_
          split
          · simp only [bind_assoc]
            rfl
          · simp only [bind_assoc]
            rfl

/-- What the preparation of a removal leaves: a settled graph, or one whose work loop may
start. -/
structure Prepared (graph graph' : Graph ω) (id : Nat) (work : Option (List RelayWork)) :
    Prop where
  forgets : Forgets graph graph' id
  settled : work = none → graph'.Settled
  normalizing : ∀ queued, work = some queued →
    graph'.Normalizing (Pending.empty.enqueueAll queued) id

theorem prepareRemove_spec {graph : Graph ω} (settled : graph.Settled) {id : Nat}
    (token : graph.IsToken id) :
    ∃ graph' work, graph.prepareRemove id = .ok (graph', work) ∧
      Prepared graph graph' id work := by
  have wf := settled.wf
  have isToken := token
  obtain ⟨entry, found, token⟩ := token
  obtain ⟨result, tokensOk, tokensIff⟩ := parentsAreTokens_spec wf found
  have childlessIff : entry.children.isEmpty = true ↔ ∀ child, ¬ graph.Edge id child := by
    rw [IdSet.isEmpty_iff]
    simp only [WF.child_mem found]
  by_cases leaf : entry.children.isEmpty = true ∧ result = true
  · -- Both leaf paths perform the same erasure.
    have childless := childlessIff.1 leaf.1
    obtain ⟨taken, graph', folded, erased⟩ := dropLeaf_spec wf found token childless
    refine ⟨graph', none, ?_, erased.forgets wf,
      fun _ => erased.settled_leaf settled childless (tokensIff.1 leaf.2), by rintro _ ⟨⟩⟩
    cases parentsEq : entry.parents with
    | one parent =>
        have edge : graph.Edge parent id := (wf.parent_mem found).1 (by simp [parentsEq])
        obtain ⟨parentEntry, parentFound, parentToken⟩ := tokensIff.1 leaf.2 parent edge
        have direct : graph.directParent entry = .ok (some parent) := by
          simp only [directParent, leaf.1, parentsEq, index, parentFound, expect_some, ok_bind,
            parentToken, if_true]
          rfl
        rw [parentsEq, IdSet.toList, List.foldlM_cons] at folded
        obtain ⟨result, unlinked, ended⟩ := bind_eq_ok.1 folded
        cases ended
        simp only [prepareRemove, index, found, expect_some, ok_bind, direct, taken, unlinked]
        rfl
    | empty | many =>
        have direct : graph.directParent entry = .ok none := by
          simp only [directParent, leaf.1, parentsEq]
          rfl
        have isLeaf : graph.directLeaf entry = .ok true := by
          simp only [directLeaf, leaf.1, if_true, tokensOk, leaf.2]
        simp only [prepareRemove, index, found, expect_some, ok_bind, direct, isLeaf, if_true,
          taken, folded]
        rfl
  · have direct : graph.directParent entry = .ok none := by
      rw [directParent]
      split
      next parent isEmpty parentsEq =>
        have edge : graph.Edge parent id := (wf.parent_mem found).1 (by simp [parentsEq])
        obtain ⟨parentEntry, parentFound⟩ := WF.parent_exists edge
        have notToken : parentEntry.kind ≠ .token := by
          intro isToken
          refine leaf ⟨isEmpty, tokensIff.2 fun other otherEdge => ?_⟩
          have member := (wf.parent_mem found).2 otherEdge
          rw [parentsEq, IdSet.mem_one] at member
          rw [member]
          exact ⟨parentEntry, parentFound, isToken⟩
        simp only [index, parentFound, expect_some, ok_bind, notToken, if_false]
        rfl
      next => rfl
    have notLeaf : graph.directLeaf entry = .ok false := by
      rw [directLeaf]
      split
      next isEmpty =>
        rw [tokensOk]
        have isFalse : result = false := by
          cases result with
          | false => rfl
          | true => exact (leaf ⟨isEmpty, rfl⟩).elim
        rw [isFalse]
      next => rfl
    obtain ⟨inherited, inheritedOk, inherits⟩ := anyCancelled_spec wf found
    by_cases wide : 1 < entry.parents.len ∧ 1 < entry.children.len
    · obtain ⟨signature, modified, converted, signatureOk, modifiedOk, indexedOk, isConverted⟩ :=
        convert_spec wf found token inherits
      set work := RelayWork.known id :: entry.children.toList.map RelayWork.dirty with workDef
      have childQueued : ∀ child, graph.Edge id child →
          ∃ item ∈ work, item.id = child ∧ item.signature = .dirty := by
        intro child edge
        refine ⟨RelayWork.dirty child, List.mem_cons_of_mem _ (List.mem_map_of_mem ?_), rfl, rfl⟩
        exact IdSet.mem_toList.2 ((WF.child_mem found).2 edge)
      have normalizing : converted.Normalizing (Pending.empty.enqueueAll work) id := by
        apply isConverted.normalizing settled isToken
        · exact Pending.mem_enqueueAll.2 (.inl ⟨RelayWork.known id, by simp [workDef], rfl⟩)
        · exact fun child edge => Pending.mem_enqueueAll_dirty.2 (.inl (childQueued child edge))
        · intro other member
          rcases Pending.mem_enqueueAll.1 member with ⟨item, inWork, rfl⟩ | queued
          · rcases List.mem_cons.1 inWork with rfl | inChildren
            · exact wf.lt_next found
            · obtain ⟨child, isChild, rfl⟩ := List.mem_map.1 inChildren
              obtain ⟨_, present⟩ := wf.child_exists
                ((WF.child_mem found).1 (IdSet.mem_toList.1 isChild))
              exact wf.lt_next present
          · simp [Pending.empty] at queued
      refine ⟨converted, some work, ?_, isConverted.forgets, by rintro ⟨⟩, ?_⟩
      swap
      · rintro queued ⟨⟩
        exact normalizing
      simp only [prepareRemove, index, found, expect_some, ok_bind, direct, notLeaf,
        Bool.false_eq_true, if_false, ensure_of token, inheritedOk, wide, and_self, if_true,
        signatureOk, modifiedOk, indexedOk]
      rfl
    · obtain ⟨erasedGraph, erasedOk, erased⟩ := erase_spec wf found true
      let before : Pending := ⟨{id}, {id}, Finset.Subset.refl _⟩
      have popped : Pending.Popped before Pending.empty id .dirty := by
        refine ⟨by simp [before], by simp [before], ?_, ?_, by simp [before], by
          simp [before, Pending.empty]⟩
        · simp [before, Pending.empty]
        · simp [before, Pending.empty]
      have normalizing := (settled.normalizing before id (by
        intro other member
        rw [Finset.mem_singleton.1 member]
        exact wf.lt_next found)).erase popped found erased true (fun _ => rfl) fun clean =>
          (clean (by simp [wf.token_ancestry id isToken])).elim
      refine ⟨erasedGraph, some (entry.parents.toList.map RelayWork.known ++
        entry.children.toList.map RelayWork.dirty), ?_, erased.forgets wf, by rintro ⟨⟩, ?_⟩
      swap
      · rintro queued ⟨⟩
        exact normalizing
      simp only [prepareRemove, index, found, expect_some, ok_bind, direct, notLeaf,
        Bool.false_eq_true, if_false, ensure_of token, inheritedOk, wide, erasedOk]
      rfl

/-- Removing a live token returns a settled graph without it. -/
theorem remove_spec {graph : Graph ω} (settled : graph.Settled) {id : Nat}
    (token : graph.IsToken id) :
    ∃ graph', graph.remove id = .ok graph' ∧ graph'.Settled ∧ Forgets graph graph' id := by
  obtain ⟨ready, work, prepareOk, prepared⟩ := prepareRemove_spec settled token
  rw [remove_eq, prepareOk, ok_bind]
  cases work with
  | none => exact ⟨ready, rfl, prepared.settled rfl, prepared.forgets⟩
  | some work =>
      have dead : ¬ ready.IsToken id := by simp [prepared.forgets.isToken]
      obtain ⟨graph', normalized, settled', same⟩ :=
        normalize_spec (prepared.normalizing work rfl) dead
      exact ⟨graph', normalized, settled', prepared.forgets.trans same⟩

end Graph

end VThread.Cancellation
