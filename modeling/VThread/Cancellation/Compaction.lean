import VThread.Cancellation.Rewrite

/-!
# Compaction keeps the invariants

Bypassing an entry and folding a relay keep the graph well formed, and tokens cannot
tell the difference.
-/

namespace VThread.Cancellation

open VThread.Lib

variable {ω : Type}

namespace Graph

section Removed

variable {graph graph' : Graph ω} {id : Nat}

theorem Removed.isToken_iff (removed : Removed graph graph' id) (other : Nat) :
    graph'.IsToken other ↔ other ≠ id ∧ graph.IsToken other := by
  by_cases equal : other = id
  · subst equal
    simp [IsToken, removed.gone]
  · simp [isToken_congr (removed.core other equal), equal]

theorem Removed.isRelay_iff (removed : Removed graph graph' id) (other : Nat) :
    graph'.IsRelay other ↔ other ≠ id ∧ graph.IsRelay other := by
  by_cases equal : other = id
  · subst equal
    simp [IsRelay, removed.gone]
  · simp [isRelay_congr (removed.core other equal), equal]

theorem Removed.ne_of_edge (removed : Removed graph graph' id) {source target : Nat}
    (edge : graph'.Edge source target) : source ≠ id ∧ target ≠ id := by
  constructor
  · rintro rfl
    obtain ⟨entry, found⟩ := WF.parent_exists edge
    rw [removed.gone] at found
    cases found
  · rintro rfl
    obtain ⟨entry, found⟩ := exists_of_mem_parentsOf ((removed.mirrored _ _).1 edge)
    rw [removed.gone] at found
    cases found

/-- A removal keeps the graph well formed when the new links ascend and keep the
flags of parents below those of their children. -/
theorem Removed.wf (removed : Removed graph graph' id) (wf : graph.WF)
    (edges : ∀ source target, graph'.Edge source target →
      source < target ∧ (graph.Cancelled source → graph.Cancelled target)) :
    graph'.WF where
  next_lt := by
    rw [removed.next_eq]
    exact wf.next_lt
  fresh other above := by
    by_cases equal : other = id
    · rw [equal]
      exact removed.gone
    · rw [removed.next_eq] at above
      rw [← coreOf_eq_none, removed.core other equal, coreOf_eq_none]
      exact wf.fresh other above
  edge_iff := removed.mirrored
  edge_lt source target edge := (edges source target edge).1
  cancelled_edge source target edge cancelled := by
    obtain ⟨sourceNe, targetNe⟩ := removed.ne_of_edge edge
    rw [cancelled_congr (removed.core _ sourceNe)] at cancelled
    rw [cancelled_congr (removed.core _ targetNe)]
    exact (edges source target edge).2 cancelled
  flag_iff other entry found := by
    have ne : other ≠ id := by
      rintro rfl
      rw [removed.gone] at found
      cases found
    have core := removed.core other ne
    rw [coreOf_eq_some.2 ⟨entry, found, rfl⟩] at core
    obtain ⟨entry', found', equal⟩ := coreOf_eq_some.1 core.symm
    have exact' := wf.flag_iff other entry' found'
    simp only [Prod.mk.injEq] at equal
    rwa [equal.1, equal.2.1] at exact'
  token_ancestry other token := by
    obtain ⟨ne, old⟩ := (removed.isToken_iff other).1 token
    rw [ancestry_congr (removed.core other ne)]
    exact wf.token_ancestry other old
  relays_eq := by
    rw [removed.relays_eq]
    congr 1
    ext other
    exact (removed.isRelay_iff other).symm
  index_iff candidate other := by
    rw [removed.index, wf.index_iff]
    by_cases equal : other = id
    · subst equal
      simp [removed.gone]
    · have core := removed.core other equal
      simp only [coreOf] at core
      cases found : graph.nodes other <;> cases found' : graph'.nodes other <;>
        simp_all

/-- A child set is unchanged where no link changed. -/
theorem Removed.children_unchanged {other : Nat}
    (same : ∀ child, graph'.Edge other child ↔ graph.Edge other child) :
    graph'.childrenOf other = graph.childrenOf other :=
  IdSet.ext same

theorem Removed.parents_unchanged (removed : Removed graph graph' id) (wf : graph.WF)
    {other : Nat} (same : ∀ parent, graph'.Edge parent other ↔ graph.Edge parent other) :
    graph'.parentsOf other = graph.parentsOf other :=
  IdSet.ext fun parent => by
    rw [← removed.mirrored, ← wf.edge_iff]
    exact same parent

end Removed

section Erased

variable {graph graph' : Graph ω} {id : Nat}

theorem Erased.wf' (erased : Erased graph graph' id) (wf : graph.WF) : graph'.WF := by
  apply erased.toRemoved.wf wf
  intro source target edge
  rcases ((erased.bypass _ _).1 edge).2.2 with direct | ⟨into, out⟩
  · exact ⟨wf.edge_lt _ _ direct, wf.cancelled_edge _ _ direct⟩
  · exact ⟨(wf.edge_lt _ _ into).trans (wf.edge_lt _ _ out),
      fun cancelled => wf.cancelled_edge _ _ out (wf.cancelled_edge _ _ into cancelled)⟩

theorem Erased.reach_iff (erased : Erased graph graph' id) (wf : graph.WF)
    {source target : Nat} (sourceNe : source ≠ id) (targetNe : target ≠ id) :
    graph'.Reach source target ↔ graph.Reach source target :=
  erased.bypass.reach_iff (wf.loopless id) sourceNe targetNe

/-- Tokens do not observe the erasure of a relay. -/
theorem Erased.sameTokens (erased : Erased graph graph' id) (wf : graph.WF)
    (relay : graph.IsRelay id) : SameTokens graph graph' := by
  have ne : ∀ other, graph.IsToken other → other ≠ id := by
    rintro other token rfl
    exact token.not_isRelay relay
  refine ⟨erased.next_eq, ?_, fun other token => erased.core other (ne other token), ?_⟩
  · intro other
    rw [erased.isToken_iff]
    exact ⟨And.right, fun token => ⟨ne other token, token⟩⟩
  · intro source target sourceToken targetToken
    exact erased.reach_iff wf (ne _ sourceToken) (ne _ targetToken)

/-- Signatures stay exact below an erased entry whose own signature was exact. -/
theorem Erased.consistent (erased : Erased graph graph' id) (loopless : ¬ graph.Edge id id)
    {other : Nat} (ne : other ≠ id)
    (exactOther : graph.Consistent other)
    (exactParent : graph.Edge id other → graph.Consistent id) :
    graph'.Consistent other := by
  intro ancestor
  rw [ancestry_congr (erased.core other ne), exactOther ancestor]
  constructor
  · rintro ⟨parent, edge, member⟩
    by_cases parentEq : parent = id
    · subst parentEq
      obtain ⟨upper, into, inherited⟩ := (exactParent edge ancestor).1 member
      have upperNe : upper ≠ parent := by
        rintro rfl
        exact loopless into
      exact ⟨upper, (erased.bypass _ _).2 ⟨upperNe, ne, .inr ⟨into, edge⟩⟩,
        by rwa [ancestry_congr (erased.core upper upperNe)]⟩
    · exact ⟨parent, (erased.bypass _ _).2 ⟨parentEq, ne, .inl edge⟩,
        by rwa [ancestry_congr (erased.core parent parentEq)]⟩
  · rintro ⟨parent, edge, member⟩
    obtain ⟨parentNe, -, direct | ⟨into, out⟩⟩ := (erased.bypass _ _).1 edge
    · exact ⟨parent, direct, by rwa [← ancestry_congr (erased.core parent parentNe)]⟩
    · rw [ancestry_congr (erased.core parent parentNe)] at member
      exact ⟨id, out, (exactParent out ancestor).2 ⟨parent, into, member⟩⟩

end Erased

section Folded

variable {graph graph' : Graph ω} {keep remove : Nat}

theorem Folded.wf' (folded : Folded graph graph' keep remove) (wf : graph.WF)
    (lower : keep < remove) (sameFlag : graph.Cancelled keep ↔ graph.Cancelled remove) :
    graph'.WF := by
  apply folded.toRemoved.wf wf
  intro source target edge
  obtain ⟨-, -, direct | ⟨rfl, handed⟩⟩ := (folded.fold _ _).1 edge
  · exact ⟨wf.edge_lt _ _ direct, wf.cancelled_edge _ _ direct⟩
  · exact ⟨lower.trans (wf.edge_lt _ _ handed),
      fun cancelled => wf.cancelled_edge _ _ handed (sameFlag.1 cancelled)⟩

/-- Tokens do not observe the merging of two relays below the same tokens. -/
theorem Folded.sameTokens (folded : Folded graph graph' keep remove) (wf : graph.WF)
    (lower : keep < remove) (relay : graph.IsRelay remove)
    (equivalent : ∀ source, graph.IsToken source →
      (graph.Reach source keep ↔ graph.Reach source remove)) : SameTokens graph graph' := by
  have ne : ∀ other, graph.IsToken other → other ≠ remove := by
    rintro other token rfl
    exact token.not_isRelay relay
  refine ⟨folded.next_eq, ?_, fun other token => folded.core other (ne other token), ?_⟩
  · intro other
    rw [folded.isToken_iff]
    exact ⟨And.right, fun token => ⟨ne other token, token⟩⟩
  · intro source target sourceToken targetToken
    exact folded.fold.reach_iff wf.edge_lt lower (equivalent source sourceToken)
      (ne _ sourceToken) (ne _ targetToken)

/-- Signatures stay exact when the merged relays store the same ancestry. -/
theorem Folded.consistent (folded : Folded graph graph' keep remove) {other : Nat}
    (differ : keep ≠ remove) (ne : other ≠ remove)
    (sameAncestry : graph.ancestry keep = graph.ancestry remove)
    (exactOther : graph.Consistent other) : graph'.Consistent other := by
  intro ancestor
  rw [ancestry_congr (folded.core other ne), exactOther ancestor]
  constructor
  · rintro ⟨parent, edge, member⟩
    by_cases parentEq : parent = remove
    · subst parentEq
      refine ⟨keep, (folded.fold _ _).2 ⟨differ, ne, .inr ⟨rfl, edge⟩⟩, ?_⟩
      rwa [ancestry_congr (folded.core keep differ), sameAncestry]
    · exact ⟨parent, (folded.fold _ _).2 ⟨parentEq, ne, .inl edge⟩,
        by rwa [ancestry_congr (folded.core parent parentEq)]⟩
  · rintro ⟨parent, edge, member⟩
    obtain ⟨parentNe, -, direct | ⟨rfl, handed⟩⟩ := (folded.fold _ _).1 edge
    · exact ⟨parent, direct, by rwa [← ancestry_congr (folded.core parent parentNe)]⟩
    · rw [ancestry_congr (folded.core parent parentNe), sameAncestry] at member
      exact ⟨remove, handed, member⟩

end Folded

end Graph

end VThread.Cancellation
