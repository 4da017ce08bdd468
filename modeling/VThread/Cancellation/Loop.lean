import Mathlib.Tactic.Ring
import VThread.Cancellation.Normalize

/-!
# Runs of the normalization loop

One iteration returns, keeps `Normalizing`, is invisible to tokens, and either removes
a relay, makes a stale signature exact, or only shortens the queue.
-/

namespace VThread.Cancellation

open VThread.Lib

variable {ω : Type}

theorem findM?_spec {test : Nat → Checked Bool} {holds : Nat → Prop} {ids : List Nat}
    (decides : ∀ id ∈ ids, ∃ result, test id = .ok result ∧ (result = true ↔ holds id)) :
    ∃ result, ids.findM? test = .ok result ∧
      (result = none → ∀ id ∈ ids, ¬ holds id) ∧
      ∀ id, result = some id → id ∈ ids ∧ holds id := by
  induction ids with
  | nil => exact ⟨none, rfl, by simp, by simp⟩
  | cons head tail ih =>
      obtain ⟨result, tested, iff⟩ := decides head (by simp)
      cases result with
      | true =>
          refine ⟨some head, ?_, by simp, ?_⟩
          · rw [List.findM?, tested]
            rfl
          · rintro id ⟨⟩
            exact ⟨by simp, iff.1 rfl⟩
      | false =>
          obtain ⟨result, found, noneOf, someOf⟩ :=
            ih fun id member => decides id (by simp [member])
          refine ⟨result, ?_, ?_, ?_⟩
          · rw [List.findM?, tested]
            exact found
          · intro ended id member
            rcases List.mem_cons.1 member with rfl | member
            · intro absurd
              simpa using iff.2 absurd
            · exact noneOf ended id member
          · intro id equal
            obtain ⟨member, holdsId⟩ := someOf id equal
            exact ⟨by simp [member], holdsId⟩

namespace Graph

/-! ## Looking up an equivalent relay -/

theorem equivalent_iff {graph : Graph ω} {left right : Nat} {leftEntry rightEntry : Entry ω}
    (leftFound : graph.nodes left = some leftEntry)
    (rightFound : graph.nodes right = some rightEntry) :
    graph.Equivalent left right ↔
      leftEntry.signature.members = rightEntry.signature.members ∧
        leftEntry.cancelled = rightEntry.cancelled := by
  rw [Equivalent, ancestry_eq leftFound, ancestry_eq rightFound, cancelled_iff leftFound,
    cancelled_iff rightFound, ← Bool.eq_iff_iff]

/-- The index finds a relay to merge with whenever there is one. -/
theorem equivalentRelay_spec {graph : Graph ω} (wf : graph.WF) {id : Nat}
    (relay : graph.IsRelay id) :
    ∃ result, graph.equivalentRelay id = .ok result ∧
      (result = none → ∀ other, graph.IsRelay other → other ≠ id →
        ¬ graph.Equivalent id other) ∧
      ∀ other, result = some other →
        graph.IsRelay other ∧ other ≠ id ∧ graph.Equivalent id other := by
  obtain ⟨entry, found, isRelay⟩ := relay
  have decides : ∀ other ∈ (graph.relayIndex entry.signature.candidate).sort (· ≤ ·),
      ∃ result, (if other = id then pure false
        else do
          let otherEntry ← expect (graph.nodes other) "indexed relay"
          pure (decide (otherEntry.cancelled = entry.cancelled) &&
            entry.signature.sameSet otherEntry.signature)) = Except.ok (ε := String) result ∧
        (result = true ↔ other ≠ id ∧ graph.Equivalent id other) := by
    intro other member
    rw [Finset.mem_sort, wf.index_iff] at member
    obtain ⟨otherEntry, otherFound, -, -⟩ := member
    by_cases equal : other = id
    · exact ⟨false, by simp only [equal, if_true]; rfl, by simp [equal]⟩
    · refine ⟨_, by simp only [equal, if_false, otherFound, expect_some, ok_bind]; rfl, ?_⟩
      rw [equivalent_iff found otherFound, Bool.and_eq_true, decide_eq_true_eq,
        Signature.sameSet_iff]
      constructor
      · exact fun both => ⟨equal, both.2, both.1.symm⟩
      · exact fun both => ⟨both.2.2.symm, both.2.1⟩
  obtain ⟨result, searched, noneOf, someOf⟩ := findM?_spec decides
  refine ⟨result, ?_, ?_, ?_⟩
  · simp only [equivalentRelay, found, isRelay, ne_eq, not_true_eq_false, if_false]
    exact searched
  · intro ended other otherRelay ne equivalent
    obtain ⟨otherEntry, otherFound, otherIsRelay⟩ := otherRelay
    refine noneOf ended other ?_ ⟨ne, equivalent⟩
    rw [Finset.mem_sort, wf.index_iff]
    exact ⟨otherEntry, otherFound, otherIsRelay,
      Signature.candidate_eq_of_members ((equivalent_iff found otherFound).1 equivalent).1.symm⟩
  · intro other equal
    obtain ⟨member, ne, equivalent⟩ := someOf other equal
    rw [Finset.mem_sort, wf.index_iff] at member
    obtain ⟨otherEntry, otherFound, otherIsRelay, -⟩ := member
    exact ⟨⟨otherEntry, otherFound, otherIsRelay⟩, ne, equivalent⟩

/-! ## Refreshing a signature -/

/-- `graph'` differs from `graph` in the signature of one relay and in its place in the
index. -/
structure Resigned (graph graph' : Graph ω) (id : Nat) (ancestors : Finset Nat) : Prop where
  next_eq : graph'.next = graph.next
  relays_eq : graph'.relays = graph.relays
  core : ∀ other, other ≠ id → graph'.coreOf other = graph.coreOf other
  present : ∀ entry, graph.nodes id = some entry → ∃ signature,
    graph'.nodes id = some { entry with signature } ∧ signature.members = ancestors
  parents : ∀ other, graph'.parentsOf other = graph.parentsOf other
  children : ∀ other, graph'.childrenOf other = graph.childrenOf other
  index : ∀ candidate other, other ∈ graph'.relayIndex candidate ↔
    ∃ entry, graph'.nodes other = some entry ∧ entry.kind = .relay ∧
      entry.signature.candidate = candidate

namespace Resigned

variable {graph graph' : Graph ω} {id : Nat} {ancestors : Finset Nat}

theorem edge_iff (resigned : Resigned graph graph' id ancestors) (source target : Nat) :
    graph'.Edge source target ↔ graph.Edge source target := by
  rw [Edge, Edge, resigned.children]

theorem reach_iff (resigned : Resigned graph graph' id ancestors) (source target : Nat) :
    graph'.Reach source target ↔ graph.Reach source target := by
  have same : graph'.Edge = graph.Edge := by
    funext source target
    exact propext (resigned.edge_iff source target)
  rw [Reach, Reach, same]

theorem isRelay_iff (resigned : Resigned graph graph' id ancestors)
    (relay : graph.IsRelay id) (other : Nat) : graph'.IsRelay other ↔ graph.IsRelay other := by
  by_cases equal : other = id
  · subst equal
    obtain ⟨entry, found, isRelay⟩ := relay
    obtain ⟨signature, found', -⟩ := resigned.present entry found
    rw [Graph.isRelay_iff found, Graph.isRelay_iff found']
  · exact isRelay_congr (resigned.core other equal)

theorem isToken_iff (resigned : Resigned graph graph' id ancestors)
    (relay : graph.IsRelay id) (other : Nat) : graph'.IsToken other ↔ graph.IsToken other := by
  by_cases equal : other = id
  · subst equal
    obtain ⟨entry, found, isRelay⟩ := relay
    obtain ⟨signature, found', -⟩ := resigned.present entry found
    rw [Graph.isToken_iff found, Graph.isToken_iff found']
  · exact isToken_congr (resigned.core other equal)

theorem cancelled_iff (resigned : Resigned graph graph' id ancestors)
    (relay : graph.IsRelay id) (other : Nat) :
    graph'.Cancelled other ↔ graph.Cancelled other := by
  by_cases equal : other = id
  · subst equal
    obtain ⟨entry, found, isRelay⟩ := relay
    obtain ⟨signature, found', -⟩ := resigned.present entry found
    rw [Graph.cancelled_iff found, Graph.cancelled_iff found']
  · exact cancelled_congr (resigned.core other equal)

theorem ancestry_self (resigned : Resigned graph graph' id ancestors)
    (relay : graph.IsRelay id) : graph'.ancestry id = ancestors := by
  obtain ⟨entry, found, isRelay⟩ := relay
  obtain ⟨signature, found', members⟩ := resigned.present entry found
  rw [ancestry_eq found', members]

theorem wf (resigned : Resigned graph graph' id ancestors) (relay : graph.IsRelay id)
    (wf : graph.WF) : graph'.WF where
  next_lt := by
    rw [resigned.next_eq]
    exact wf.next_lt
  fresh other above := by
    rw [resigned.next_eq] at above
    have ne : other ≠ id := by
      rintro rfl
      obtain ⟨entry, found, -⟩ := relay
      rw [wf.fresh other above] at found
      cases found
    rw [← coreOf_eq_none, resigned.core other ne, coreOf_eq_none]
    exact wf.fresh other above
  edge_iff source target := by
    rw [resigned.children, resigned.parents]
    exact wf.edge_iff source target
  edge_lt source target edge := wf.edge_lt _ _ ((resigned.edge_iff _ _).1 edge)
  cancelled_edge source target edge cancelled := by
    rw [resigned.cancelled_iff relay] at cancelled ⊢
    exact wf.cancelled_edge _ _ ((resigned.edge_iff _ _).1 edge) cancelled
  flag_iff other entry found := by
    by_cases equal : other = id
    · subst equal
      obtain ⟨old, oldFound, -⟩ := relay
      obtain ⟨signature, found', -⟩ := resigned.present old oldFound
      rw [found] at found'
      cases found'
      exact wf.flag_iff other old oldFound
    · have core := resigned.core other equal
      rw [coreOf_eq_some.2 ⟨entry, found, rfl⟩] at core
      obtain ⟨old, oldFound, same⟩ := coreOf_eq_some.1 core.symm
      have exact' := wf.flag_iff other old oldFound
      simp only [Prod.mk.injEq] at same
      rwa [same.1, same.2.1] at exact'
  token_ancestry other token := by
    have old := (resigned.isToken_iff relay other).1 token
    have ne : other ≠ id := by
      rintro rfl
      exact old.not_isRelay relay
    rw [ancestry_congr (resigned.core other ne)]
    exact wf.token_ancestry other old
  relays_eq := by
    rw [resigned.relays_eq, wf.relays_eq]
    congr 1
    ext other
    exact (resigned.isRelay_iff relay other).symm
  index_iff := resigned.index

theorem sameTokens (resigned : Resigned graph graph' id ancestors)
    (relay : graph.IsRelay id) : SameTokens graph graph' where
  next_eq := resigned.next_eq
  isToken := resigned.isToken_iff relay
  core other token := by
    apply resigned.core
    rintro rfl
    exact token.not_isRelay relay
  reach source target _ _ := resigned.reach_iff source target

end Resigned

/-- Storing a new signature moves the relay to its new place in the index. -/
theorem resign_spec {graph : Graph ω} (wf : graph.WF) {id : Nat} {entry : Entry ω}
    (found : graph.nodes id = some entry) (relay : entry.kind = .relay)
    (signature : Signature) :
    ∃ unindexed modified graph', graph.unindexRelay id = .ok unindexed ∧
      unindexed.modify id (fun entry => { entry with signature }) "live relay" =
        .ok modified ∧
      modified.indexRelay id = .ok graph' ∧
      Resigned graph graph' id signature.members := by
  let unindexed : Graph ω := { graph with
    relayIndex := Function.update graph.relayIndex entry.signature.candidate
      ((graph.relayIndex entry.signature.candidate).erase id) }
  let modified := unindexed.put id { entry with signature }
  have foundNew : modified.nodes id = some { entry with signature } := by
    simp [modified, put]
  have nodesNe : ∀ other, other ≠ id → modified.nodes other = graph.nodes other := by
    intro other ne
    simp [modified, unindexed, put, ne]
  refine ⟨unindexed, modified, _, unindexRelay_spec wf found relay, ?_,
    indexRelay_spec foundNew relay, ?_⟩
  · have foundOld : unindexed.nodes id = some entry := found
    simp only [modify, foundOld, expect_some, ok_bind]
    rfl
  · refine ⟨rfl, rfl, ?_, ?_, ?_, ?_, ?_⟩
    · intro other ne
      show (modified.nodes other).map _ = _
      rw [nodesNe other ne]
      rfl
    · intro old oldFound
      rw [found] at oldFound
      cases oldFound
      exact ⟨signature, foundNew, rfl⟩
    · intro other
      show (modified.nodes other).elim _ _ = _
      by_cases equal : other = id
      · subst equal
        rw [foundNew, parentsOf_eq found]
        rfl
      · rw [nodesNe other equal]
        rfl
    · intro other
      show (modified.nodes other).elim _ _ = _
      by_cases equal : other = id
      · subst equal
        rw [foundNew, childrenOf_eq found]
        rfl
      · rw [nodesNe other equal]
        rfl
    · intro candidate other
      show other ∈ Function.update modified.relayIndex _ _ candidate ↔
        ∃ entry, modified.nodes other = some entry ∧ _
      have erased : ∀ candidate, other ∈ modified.relayIndex candidate ↔
          other ≠ id ∧ other ∈ graph.relayIndex candidate := by
        intro candidate
        simp only [modified, unindexed, put, Function.update_apply]
        split
        next equal => simp [equal]
        next differ =>
          refine ⟨fun member => ⟨?_, member⟩, And.right⟩
          rintro rfl
          obtain ⟨entry', found', -, candidateEq⟩ := (wf.index_iff _ _).1 member
          rw [found] at found'
          cases found'
          exact differ candidateEq.symm
      by_cases equal : other = id
      · subst equal
        simp only [Function.update_apply, foundNew, Option.some.injEq, exists_eq_left']
        split
        next same => simp [same, relay]
        next differ =>
          simp only [erased, ne_eq, not_true_eq_false, false_and, false_iff, not_and]
          exact fun _ same => differ same.symm
      · rw [nodesNe other equal, ← wf.index_iff]
        simp only [Function.update_apply]
        split
        next same => simp [erased, equal, same]
        next => simp [erased, equal]

/-! ## The measure -/

/-- Relays that still mention the removed token. -/
def stale (graph : Graph ω) (gone : Nat) : Set Nat :=
  {id | graph.IsRelay id ∧ gone ∈ graph.ancestry id}

/-- What every productive iteration decreases. -/
noncomputable def weight (graph : Graph ω) (gone : Nat) : Nat :=
  graph.relays + (graph.stale gone).ncard

theorem WF.finite_stale {graph : Graph ω} (wf : graph.WF) (gone : Nat) :
    (graph.stale gone).Finite :=
  wf.finite_relays.subset fun _ member => member.1

theorem WF.weight_le {graph : Graph ω} (wf : graph.WF) (gone : Nat) :
    graph.weight gone ≤ 2 * graph.next := by
  have below : {id | graph.IsRelay id}.ncard ≤ graph.next := by
    have subset : {id | graph.IsRelay id} ⊆ (Finset.range graph.next : Set Nat) := by
      rintro id ⟨entry, found, -⟩
      simpa using wf.lt_next found
    have card := Set.ncard_le_ncard subset (Finset.finite_toSet _)
    rwa [Set.ncard_coe_finset, Finset.card_range] at card
  have stale : (graph.stale gone).ncard ≤ {id | graph.IsRelay id}.ncard :=
    Set.ncard_le_ncard (fun _ member => member.1) wf.finite_relays
  have relays := wf.relays_eq
  rw [weight]
  omega

theorem Removed.weight_lt {graph graph' : Graph ω} {id : Nat}
    (removed : Removed graph graph' id) (wf : graph.WF) (relay : graph.IsRelay id)
    (gone : Nat) : graph'.weight gone < graph.weight gone := by
  have count := wf.ncard_other_relays relay
  have stale : (graph'.stale gone).ncard ≤ (graph.stale gone).ncard := by
    refine Set.ncard_le_ncard ?_ (wf.finite_stale gone)
    rintro other ⟨otherRelay, mentions⟩
    obtain ⟨ne, old⟩ := (removed.isRelay_iff other).1 otherRelay
    exact ⟨old, by rwa [← ancestry_congr (removed.core other ne)]⟩
  rw [weight, weight, removed.relays_eq]
  omega

theorem Resigned.weight_lt {graph graph' : Graph ω} {id gone : Nat} {ancestors : Finset Nat}
    (resigned : Resigned graph graph' id ancestors) (wf : graph.WF)
    (relay : graph.IsRelay id) (wasStale : gone ∈ graph.ancestry id)
    (clean : gone ∉ ancestors) : graph'.weight gone < graph.weight gone := by
  have strict : graph'.stale gone ⊂ graph.stale gone := by
    refine Set.ssubset_iff_of_subset ?_ |>.2 ⟨id, ⟨relay, wasStale⟩, ?_⟩
    · rintro other ⟨otherRelay, mentions⟩
      refine ⟨(resigned.isRelay_iff relay other).1 otherRelay, ?_⟩
      by_cases equal : other = id
      · subst equal
        exact wasStale
      · rwa [← ancestry_congr (resigned.core other equal)]
    · rintro ⟨-, mentions⟩
      rw [resigned.ancestry_self relay] at mentions
      exact clean mentions
  have fewer := Set.ncard_lt_ncard strict (wf.finite_stale gone)
  rw [weight, weight, resigned.relays_eq]
  omega

/-! ## One refresh -/

/-- Refreshing the examined dirty relay leaves it with an exact signature, ready to be
compared with its candidates. -/
theorem refreshSignature_spec {graph : Graph ω} {before after : Pending} {gone id : Nat}
    (inv : graph.Normalizing before gone) (dead : ¬ graph.IsToken gone)
    (popped : Pending.Popped before after id .dirty) (relay : graph.IsRelay id) :
    ∃ graph' after' before', graph.refreshSignature id after = .ok (graph', after') ∧
      graph'.Normalizing before' gone ∧ Pending.Popped before' after' id .known ∧
      SameTokens graph graph' ∧ graph'.IsRelay id ∧
      graph'.parentsOf id = graph.parentsOf id ∧
      graph'.childrenOf id = graph.childrenOf id ∧
      (graph' = graph ∧ after' = after ∨ graph'.weight gone < graph.weight gone) := by
  obtain ⟨entry, found, isRelay⟩ := relay
  have relay : graph.IsRelay id := ⟨entry, found, isRelay⟩
  have cleanParents : ∀ parent, graph.Edge parent id → gone ∉ graph.ancestry parent := by
    intro parent edge
    have below := inv.wf.edge_lt _ _ edge
    exact inv.not_mentions dead popped below.le fun equal => by omega
  obtain ⟨signature, computed, members⟩ := signatureFor_spec graph entry.parents
    fun parent member => WF.parent_exists ((inv.wf.parent_mem found).1 member)
  have exactNew : ∀ ancestor, ancestor ∈ signature.members ↔
      ∃ parent, graph.Edge parent id ∧ ancestor ∈ graph.ancestry parent := by
    intro ancestor
    simp only [members, inv.wf.parent_mem found]
  have cleanNew : gone ∉ signature.members := by
    rw [exactNew]
    rintro ⟨parent, edge, mentions⟩
    exact cleanParents parent edge mentions
  by_cases same : entry.signature.sameSet signature = true
  · -- The stored signature was already exact.
    have sameMembers := Signature.sameSet_iff.1 same
    have clean : gone ∉ graph.ancestry id := by
      rw [ancestry_eq found, sameMembers]
      exact cleanNew
    let before' : Pending := ⟨before.ids, after.dirty, fun other member =>
      before.dirty_subset ((popped.dirty other).1 member).2⟩
    refine ⟨graph, after, before', ?_, ?_, ?_, .refl graph, relay, rfl, rfl, .inl ⟨rfl, rfl⟩⟩
    · simp only [refreshSignature, index, found, expect_some, ok_bind, computed, same, if_true]
      rfl
    · exact {
        wf := inv.wf
        consistent := inv.consistent
        stale_parent := by
          intro other otherRelay mentions
          refine (inv.stale_parent other otherRelay mentions).imp (fun dirty => ?_) fun h => h
          refine (popped.dirty other).2 ⟨?_, dirty⟩
          rintro rfl
          exact clean mentions
        degrees := inv.degrees
        distinct := inv.distinct
        bounded := inv.bounded }
    · refine ⟨popped.member, popped.least, popped.ids, ?_, ?_, popped.card⟩
      · intro other
        show other ∈ after.dirty ↔ other ≠ id ∧ other ∈ after.dirty
        rw [popped.dirty]
        tauto
      · show SignatureState.known = .dirty ↔ id ∈ after.dirty
        simp [popped.dirty]
  · obtain ⟨unindexed, modified, graph', hasUnindexed, hasModified, hasIndexed, resigned⟩ :=
      resign_spec inv.wf found isRelay signature
    have differ : graph.ancestry id ≠ signature.members := by
      rw [ancestry_eq found, ne_eq, ← Signature.sameSet_iff]
      exact same
    have wasStale : gone ∈ graph.ancestry id := by
      by_contra clean
      apply differ
      ext ancestor
      rw [inv.consistent id relay clean ancestor, exactNew]
    have ancestrySelf := resigned.ancestry_self relay
    set work := entry.children.toList.map RelayWork.dirty with workDef
    have inWork : ∀ other, (∃ item ∈ work, item.id = other) ↔ graph.Edge id other := by
      intro other
      rw [workDef, ← WF.child_mem found, ← IdSet.mem_toList]
      constructor
      · rintro ⟨item, listed, rfl⟩
        obtain ⟨child, member, rfl⟩ := List.mem_map.1 listed
        exact member
      · exact fun member => ⟨RelayWork.dirty other, List.mem_map_of_mem member, rfl⟩
    have dirtyWork : ∀ other, graph.Edge id other →
        ∃ item ∈ work, item.id = other ∧ item.signature = .dirty := by
      intro other edge
      exact ⟨RelayWork.dirty other, List.mem_map_of_mem
        (IdSet.mem_toList.2 ((WF.child_mem found).2 edge)), rfl, rfl⟩
    let after' := after.enqueueAll work
    have idNotAfter : id ∉ after'.ids := by
      rw [Pending.mem_enqueueAll, inWork, popped.ids]
      rintro (edge | ⟨ne, -⟩)
      · exact inv.wf.loopless id edge
      · exact ne rfl
    let before' : Pending := ⟨Insert.insert id after'.ids, after'.dirty,
      after'.dirty_subset.trans (Finset.subset_insert _ _)⟩
    have beforeIds : ∀ other, other ∉ before'.ids →
        other ≠ id ∧ other ∉ before.ids ∧ ¬ graph.Edge id other := by
      intro other absent
      rw [Finset.mem_insert, not_or, Pending.mem_enqueueAll, not_or, inWork] at absent
      exact ⟨absent.1, fun member => absent.2.2 ((popped.ids other).2 ⟨absent.1, member⟩),
        absent.2.1⟩
    have ancestryNe : ∀ other, other ≠ id → graph'.ancestry other = graph.ancestry other :=
      fun other ne => ancestry_congr (resigned.core other ne)
    refine ⟨graph', after', before', ?_, ?_, ?_, resigned.sameTokens relay,
      (resigned.isRelay_iff relay id).2 relay, resigned.parents id, resigned.children id,
      .inr (resigned.weight_lt inv.wf relay wasStale cleanNew)⟩
    · simp only [refreshSignature, index, found, expect_some, ok_bind, computed, same,
        hasUnindexed, hasModified, hasIndexed]
      rfl
    · exact {
        wf := resigned.wf relay inv.wf
        consistent := by
          intro other otherRelay absent ancestor
          rw [resigned.isRelay_iff relay] at otherRelay
          by_cases equal : other = id
          · subst equal
            rw [ancestrySelf, exactNew]
            constructor
            · rintro ⟨parent, edge, member⟩
              exact ⟨parent, (resigned.edge_iff _ _).2 edge,
                by rwa [ancestryNe parent (inv.wf.edge_lt _ _ edge).ne]⟩
            · rintro ⟨parent, edge, member⟩
              rw [resigned.edge_iff] at edge
              exact ⟨parent, edge,
                by rwa [ancestryNe parent (inv.wf.edge_lt _ _ edge).ne] at member⟩
          · rw [ancestryNe other equal] at absent ⊢
            have exactOther := inv.consistent other otherRelay absent
            -- The refreshed relay was stale, so it is no parent of an exact one.
            have parentNe : ∀ parent, graph.Edge parent other → parent ≠ id := by
              rintro parent edge rfl
              exact absent ((exactOther gone).2 ⟨parent, edge, wasStale⟩)
            rw [exactOther ancestor]
            constructor
            · rintro ⟨parent, edge, member⟩
              exact ⟨parent, (resigned.edge_iff _ _).2 edge,
                by rwa [ancestryNe parent (parentNe parent edge)]⟩
            · rintro ⟨parent, edge, member⟩
              rw [resigned.edge_iff] at edge
              exact ⟨parent, edge, by rwa [ancestryNe parent (parentNe parent edge)] at member⟩
        stale_parent := by
          intro other otherRelay mentions
          rw [resigned.isRelay_iff relay] at otherRelay
          have ne : other ≠ id := by
            rintro rfl
            rw [ancestrySelf] at mentions
            exact cleanNew mentions
          rw [ancestryNe other ne] at mentions
          rcases inv.stale_parent other otherRelay mentions with dirty | ⟨parent, edge, inherited⟩
          · exact .inl (Pending.mem_enqueueAll_dirty.2
              (.inr ((popped.dirty other).2 ⟨ne, dirty⟩)))
          · by_cases parentEq : parent = id
            · subst parentEq
              exact .inl (Pending.mem_enqueueAll_dirty.2 (.inl (dirtyWork other edge)))
            · exact .inr ⟨parent, (resigned.edge_iff _ _).2 edge,
                by rwa [ancestryNe parent parentEq]⟩
        degrees := by
          intro other otherRelay absent
          rw [resigned.isRelay_iff relay] at otherRelay
          rw [resigned.parents, resigned.children]
          exact inv.degrees other otherRelay (beforeIds other absent).2.1
        distinct := by
          intro left right leftRelay rightRelay ne leftAbsent rightAbsent
          rw [resigned.isRelay_iff relay] at leftRelay rightRelay
          obtain ⟨leftNe, leftAbsent, -⟩ := beforeIds left leftAbsent
          obtain ⟨rightNe, rightAbsent, -⟩ := beforeIds right rightAbsent
          rw [Equivalent, ancestryNe left leftNe, ancestryNe right rightNe,
            resigned.cancelled_iff relay, resigned.cancelled_iff relay]
          exact inv.distinct left right leftRelay rightRelay ne leftAbsent rightAbsent
        bounded := by
          intro other member
          rw [resigned.next_eq]
          rcases Finset.mem_insert.1 member with rfl | member
          · exact inv.wf.lt_next found
          · rcases Pending.mem_enqueueAll.1 member with inList | queued
            · obtain ⟨_, present⟩ := inv.wf.child_exists ((inWork other).1 inList)
              exact inv.wf.lt_next present
            · exact inv.bounded other ((popped.ids other).1 queued).2 }
    · refine ⟨Finset.mem_insert_self _ _, ?_, ?_, ?_, ?_, ?_⟩
      · intro other member
        rcases Finset.mem_insert.1 member with rfl | member
        · exact le_rfl
        · rcases Pending.mem_enqueueAll.1 member with inList | queued
          · exact (inv.wf.edge_lt _ _ ((inWork other).1 inList)).le
          · exact popped.least other ((popped.ids other).1 queued).2
      · intro other
        show other ∈ after'.ids ↔ other ≠ id ∧ other ∈ Insert.insert id after'.ids
        rw [Finset.mem_insert]
        constructor
        · intro member
          refine ⟨?_, .inr member⟩
          rintro rfl
          exact idNotAfter member
        · rintro ⟨ne, equal | member⟩
          · exact (ne equal).elim
          · exact member
      · intro other
        show other ∈ after'.dirty ↔ other ≠ id ∧ other ∈ after'.dirty
        constructor
        · intro member
          refine ⟨?_, member⟩
          rintro rfl
          exact idNotAfter (after'.dirty_subset member)
        · exact And.right
      · show SignatureState.known = .dirty ↔ id ∈ after'.dirty
        simp only [reduceCtorEq, false_iff]
        exact fun member => idNotAfter (after'.dirty_subset member)
      · exact (Finset.card_insert_of_notMem idNotAfter).symm

/-- A dirty relay is refreshed before it is compared, so the comparison sees an exact
signature. -/
theorem compared_spec {graph : Graph ω} {before after : Pending} {gone id : Nat}
    {state : SignatureState} (inv : graph.Normalizing before gone)
    (dead : ¬ graph.IsToken gone) (popped : Pending.Popped before after id state)
    (relay : graph.IsRelay id) :
    ∃ graph₁ after₁ before₁,
      (if state = .dirty then graph.refreshSignature id after else pure (graph, after)) =
        .ok (graph₁, after₁) ∧
      graph₁.Normalizing before₁ gone ∧ Pending.Popped before₁ after₁ id .known ∧
      SameTokens graph graph₁ ∧ graph₁.IsRelay id ∧
      graph₁.parentsOf id = graph.parentsOf id ∧
      graph₁.childrenOf id = graph.childrenOf id ∧
      (graph₁ = graph ∧ after₁ = after ∨ graph₁.weight gone < graph.weight gone) := by
  cases state with
  | dirty =>
      simp only [if_true]
      exact refreshSignature_spec inv dead popped relay
  | known =>
      exact ⟨graph, after, before, rfl, inv, popped, .refl graph, relay, rfl, rfl,
        .inl ⟨rfl, rfl⟩⟩

/-- Two relays whose signatures agree have the same live ancestry, whichever other
signatures still mention the removed token. -/
theorem Normalizing.sameSources {graph : Graph ω} {before : Pending} {gone left right : Nat}
    (inv : graph.Normalizing before gone) (leftRelay : graph.IsRelay left)
    (rightRelay : graph.IsRelay right) (clean : gone ∉ graph.ancestry left)
    (equivalent : graph.Equivalent left right) {source : Nat}
    (token : graph.IsToken source) :
    graph.Reach source left ↔ graph.Reach source right := by
  have cleanRight : gone ∉ graph.ancestry right := equivalent.1 ▸ clean
  rw [reach_iff_ancestry inv.wf inv.consistent token (.inr leftRelay) clean,
    reach_iff_ancestry inv.wf inv.consistent token (.inr rightRelay) cleanRight,
    equivalent.1]

/-! ## One iteration -/

/-- What one iteration achieves. -/
structure Progress (graph graph' : Graph ω) (after after' : Pending) (gone : Nat) :
    Prop where
  normalizing : graph'.Normalizing after' gone
  same : SameTokens graph graph'
  smaller : graph' = graph ∧ after' = after ∨ graph'.weight gone < graph.weight gone

theorem normalizeStep_spec {graph : Graph ω} {before after : Pending} {gone id : Nat}
    {state : SignatureState} (inv : graph.Normalizing before gone)
    (dead : ¬ graph.IsToken gone) (popped : Pending.Popped before after id state) :
    ∃ graph' after', graph.normalizeStep id state after = .ok (graph', after') ∧
      Progress graph graph' after after' gone := by
  by_cases relay : graph.IsRelay id
  swap
  · refine ⟨graph, after, ?_, inv.skip popped relay, .refl graph, .inl ⟨rfl, rfl⟩⟩
    cases found : graph.nodes id with
    | none =>
        rw [normalizeStep, found]
        rfl
    | some entry =>
        have notRelay : entry.kind ≠ .relay := by rwa [isRelay_iff found] at relay
        simp only [normalizeStep, found, notRelay, ne_eq, not_false_eq_true, if_true]
        rfl
  obtain ⟨entry, found, isRelay⟩ := relay
  have relay : graph.IsRelay id := ⟨entry, found, isRelay⟩
  by_cases narrow : entry.parents.len ≤ 1 ∨ entry.children.len ≤ 1
  · -- A narrow relay is spliced away.
    obtain ⟨graph', erasedOk, erased⟩ := erase_spec inv.wf found (decide (state = .dirty))
    refine ⟨graph', _, ?_, inv.erase popped found erased (decide (state = .dirty)) ?_ ?_,
      erased.sameTokens inv.wf relay, .inr (erased.toRemoved.weight_lt inv.wf relay gone)⟩
    · simp only [normalizeStep, found, isRelay, ne_eq, not_true_eq_false, if_false, narrow,
        if_true, erasedOk, ok_bind]
      rfl
    · intro mentions
      rw [decide_eq_true_eq]
      by_contra clean
      exact inv.not_mentions dead popped le_rfl (fun _ => clean) mentions
    · exact inv.consistent id relay
  obtain ⟨graph₁, after₁, before₁, refreshOk, inv₁, popped₁, same₁, relay₁, parents₁,
    children₁, smaller₁⟩ := compared_spec inv dead popped relay
  have dead₁ : ¬ graph₁.IsToken gone := by rwa [same₁.isToken]
  obtain ⟨result, searched, noneOf, someOf⟩ := equivalentRelay_spec inv₁.wf relay₁
  cases result with
  | none =>
      refine ⟨graph₁, after₁, ?_, inv₁.accept popped₁ ?_ (noneOf rfl), same₁, smaller₁⟩
      · simp only [normalizeStep, found, isRelay, ne_eq, not_true_eq_false, if_false, narrow,
          refreshOk, ok_bind, searched]
        rfl
      · rw [parents₁, children₁, parentsOf_eq found, childrenOf_eq found]
        omega
  | some other =>
      obtain ⟨otherRelay, otherNe, equivalent⟩ := someOf other rfl
      have cleanId : gone ∉ graph₁.ancestry id :=
        inv₁.not_mentions dead₁ popped₁ le_rfl fun _ isDirty => by cases isDirty
      have cleanOther : gone ∉ graph₁.ancestry other := equivalent.1 ▸ cleanId
      set keep := if id < other then id else other with keepDef
      set remove := if id < other then other else id with removeDef
      have pair : keep = id ∧ remove = other ∨ keep = other ∧ remove = id := by
        rw [keepDef, removeDef]
        split
        next => exact .inl ⟨rfl, rfl⟩
        next => exact .inr ⟨rfl, rfl⟩
      have lower : keep < remove := by
        rw [keepDef, removeDef]
        split
        next below => exact below
        next above => omega
      have facts : graph₁.IsRelay keep ∧ graph₁.IsRelay remove ∧
          gone ∉ graph₁.ancestry keep ∧ gone ∉ graph₁.ancestry remove ∧
          graph₁.Equivalent keep remove ∧ (id = keep ∨ id = remove) := by
        rcases pair with ⟨keepEq, removeEq⟩ | ⟨keepEq, removeEq⟩
        · rw [keepEq, removeEq]
          exact ⟨relay₁, otherRelay, cleanId, cleanOther, equivalent, .inl rfl⟩
        · rw [keepEq, removeEq]
          exact ⟨otherRelay, relay₁, cleanOther, cleanId,
            ⟨equivalent.1.symm, equivalent.2.symm⟩, .inr rfl⟩
      obtain ⟨keepRelay, removeRelay, cleanKeep, cleanRemove, equivalent, isPair⟩ := facts
      obtain ⟨retained, keepFound, keepIsRelay⟩ := keepRelay
      obtain ⟨discarded, removeFound, removeIsRelay⟩ := removeRelay
      obtain ⟨sameAncestry, sameFlag⟩ := (equivalent_iff keepFound removeFound).1 equivalent
      obtain ⟨graph', mergedOk, folded⟩ := mergeRelays_spec inv₁.wf keepFound removeFound
        keepIsRelay removeIsRelay lower.ne sameFlag sameAncestry
      have sameSources : ∀ source, graph₁.IsToken source →
          (graph₁.Reach source keep ↔ graph₁.Reach source remove) := fun source token =>
        inv₁.sameSources ⟨retained, keepFound, keepIsRelay⟩
          ⟨discarded, removeFound, removeIsRelay⟩ cleanKeep equivalent token
      have fewer := folded.toRemoved.weight_lt inv₁.wf
        ⟨discarded, removeFound, removeIsRelay⟩ gone
      refine ⟨graph', _, ?_,
        inv₁.merge popped₁ removeFound ⟨retained, keepFound, keepIsRelay⟩ cleanRemove
          equivalent lower isPair folded,
        same₁.trans (folded.sameTokens inv₁.wf lower
          ⟨discarded, removeFound, removeIsRelay⟩ sameSources), .inr ?_⟩
      · have ordered : (if id < other then (id, other) else (other, id)) = (keep, remove) := by
          rw [keepDef, removeDef]
          split <;> rfl
        simp only [normalizeStep, found, isRelay, ne_eq, not_true_eq_false, if_false, narrow,
          refreshOk, ok_bind, searched, ordered, mergedOk]
        rfl
      · rcases smaller₁ with ⟨rfl, -⟩ | smaller
        · exact fewer
        · exact fewer.trans smaller

/-! ## The whole loop -/

theorem Normalizing.card_le {graph : Graph ω} {pending : Pending} {gone : Nat}
    (inv : graph.Normalizing pending gone) : pending.ids.card ≤ graph.next := by
  have subset : pending.ids ⊆ Finset.range graph.next := by
    intro id member
    exact Finset.mem_range.2 (inv.bounded id member)
  simpa using Finset.card_le_card subset

/-- With enough fuel the loop ends in a settled graph that tokens cannot tell apart. -/
theorem normalizeLoop_spec (fuel : Nat) {graph : Graph ω} {pending : Pending} {gone : Nat}
    (inv : graph.Normalizing pending gone) (dead : ¬ graph.IsToken gone)
    (enough : graph.weight gone * (graph.next + 1) + pending.ids.card ≤ fuel) :
    ∃ graph', normalizeLoop fuel graph pending = .ok graph' ∧ graph'.Settled ∧
      SameTokens graph graph' := by
  induction fuel generalizing graph pending with
  | zero =>
      have drained : pending.ids = ∅ := by
        rw [← Finset.card_eq_zero]
        omega
      cases popped : pending.popFirst with
      | none =>
          exact ⟨graph, by rw [normalizeLoop, popped]; rfl, inv.settled dead drained,
            .refl graph⟩
      | some item =>
          obtain ⟨id, state, after⟩ := item
          have member := (Pending.popFirst_eq_some popped).member
          simp [drained] at member
  | succ fuel ih =>
      cases popped : pending.popFirst with
      | none =>
          exact ⟨graph, by rw [normalizeLoop, popped]; rfl,
            inv.settled dead (Pending.popFirst_eq_none popped), .refl graph⟩
      | some item =>
          obtain ⟨id, state, after⟩ := item
          have isPopped := Pending.popFirst_eq_some popped
          obtain ⟨graph', after', stepped, progress⟩ := normalizeStep_spec inv dead isPopped
          have nextEq := progress.same.next_eq
          have enough' : graph'.weight gone * (graph'.next + 1) + after'.ids.card ≤ fuel := by
            rcases progress.smaller with ⟨rfl, rfl⟩ | smaller
            · have card := isPopped.card
              omega
            · have card := progress.normalizing.card_le
              rw [nextEq] at card ⊢
              have product := Nat.mul_le_mul_right (graph.next + 1) (Nat.succ_le_of_lt smaller)
              rw [Nat.succ_mul] at product
              omega
          obtain ⟨final, looped, settled, same⟩ := ih progress.normalizing
            (by rwa [progress.same.isToken]) enough'
          refine ⟨final, ?_, settled, progress.same.trans same⟩
          rw [normalizeLoop, popped]
          simp only [stepped, ok_bind, looped]

/-- Normalization returns a settled graph that tokens cannot tell apart. -/
theorem normalize_spec {graph : Graph ω} {work : List RelayWork} {gone : Nat}
    (inv : graph.Normalizing (Pending.empty.enqueueAll work) gone)
    (dead : ¬ graph.IsToken gone) :
    ∃ graph', graph.normalize work = .ok graph' ∧ graph'.Settled ∧
      SameTokens graph graph' := by
  apply normalizeLoop_spec _ inv dead
  have card := inv.card_le
  have weight := Nat.mul_le_mul_right (graph.next + 1) (inv.wf.weight_le gone)
  have cube : (graph.next + 1) ^ 3 = graph.next * graph.next * graph.next +
      3 * (graph.next * graph.next) + 3 * graph.next + 1 := by ring
  have square : 2 * graph.next * (graph.next + 1) =
      2 * (graph.next * graph.next) + 2 * graph.next := by ring
  rw [normalizeFuel, cube]
  omega

end Graph

end VThread.Cancellation
