import VThread.Cancellation.Compaction

/-!
# The normalization loop

Every iteration keeps `Normalizing`, is invisible to tokens and decreases a measure,
so the loop ends in a settled graph.  Identities leave the queue in ascending order:
when a relay is examined, every entry above it has an exact signature.
-/

namespace VThread.Cancellation

open VThread.Lib

variable {ω : Type}

/-! ## The queue -/

namespace Pending

theorem mem_enqueue {pending : Pending} {work : RelayWork} {id : Nat} :
    id ∈ (pending.enqueue work).ids ↔ id = work.id ∨ id ∈ pending.ids := by
  simp [enqueue]

theorem mem_enqueue_dirty {pending : Pending} {work : RelayWork} {id : Nat} :
    id ∈ (pending.enqueue work).dirty ↔
      (id = work.id ∧ work.signature = .dirty) ∨ id ∈ pending.dirty := by
  simp only [enqueue]
  split
  next isDirty => simp [isDirty]
  next notDirty => simp [notDirty]

theorem mem_enqueueAll {pending : Pending} {work : List RelayWork} {id : Nat} :
    id ∈ (pending.enqueueAll work).ids ↔ (∃ item ∈ work, item.id = id) ∨ id ∈ pending.ids := by
  induction work generalizing pending with
  | nil => simp [enqueueAll]
  | cons item work ih =>
      have unfolded : pending.enqueueAll (item :: work) =
          (pending.enqueue item).enqueueAll work := rfl
      rw [unfolded, ih, mem_enqueue, List.exists_mem_cons_iff]
      constructor
      · rintro (later | rfl | queued)
        · exact .inl (.inr later)
        · exact .inl (.inl rfl)
        · exact .inr queued
      · rintro ((rfl | later) | queued)
        · exact .inr (.inl rfl)
        · exact .inl later
        · exact .inr (.inr queued)

theorem mem_enqueueAll_dirty {pending : Pending} {work : List RelayWork} {id : Nat} :
    id ∈ (pending.enqueueAll work).dirty ↔
      (∃ item ∈ work, item.id = id ∧ item.signature = .dirty) ∨ id ∈ pending.dirty := by
  induction work generalizing pending with
  | nil => simp [enqueueAll]
  | cons item work ih =>
      have unfolded : pending.enqueueAll (item :: work) =
          (pending.enqueue item).enqueueAll work := rfl
      rw [unfolded, ih, mem_enqueue_dirty, List.exists_mem_cons_iff]
      constructor
      · rintro (later | ⟨rfl, isDirty⟩ | queued)
        · exact .inl (.inr later)
        · exact .inl (.inl ⟨rfl, isDirty⟩)
        · exact .inr queued
      · rintro ((⟨rfl, isDirty⟩ | later) | queued)
        · exact .inr (.inl ⟨rfl, isDirty⟩)
        · exact .inl later
        · exact .inr (.inr queued)

/-- The queue after its smallest identity `id` left in `state`. -/
structure Popped (before after : Pending) (id : Nat) (state : SignatureState) : Prop where
  member : id ∈ before.ids
  least : ∀ other ∈ before.ids, id ≤ other
  ids : ∀ other, other ∈ after.ids ↔ other ≠ id ∧ other ∈ before.ids
  dirty : ∀ other, other ∈ after.dirty ↔ other ≠ id ∧ other ∈ before.dirty
  state_iff : state = .dirty ↔ id ∈ before.dirty
  card : after.ids.card + 1 = before.ids.card

theorem popFirst_eq_none {pending : Pending} (ended : pending.popFirst = none) :
    pending.ids = ∅ := by
  unfold popFirst at ended
  split at ended
  next => cases ended
  next empty => exact Finset.not_nonempty_iff_eq_empty.1 empty

theorem popFirst_eq_some {before after : Pending} {id : Nat} {state : SignatureState}
    (popped : before.popFirst = some (id, state, after)) : Popped before after id state := by
  unfold popFirst at popped
  split at popped
  next nonempty =>
    simp only [Option.some.injEq, Prod.mk.injEq] at popped
    obtain ⟨rfl, rfl, rfl⟩ := popped
    have member := before.ids.min'_mem nonempty
    refine ⟨member, fun other => before.ids.min'_le other, by simp, by simp, ?_, ?_⟩
    · split <;> simp_all
    · exact Finset.card_erase_add_one member
  next => cases popped

end Pending

theorem RelayWork.exists_known {ids : List Nat} {id : Nat} :
    (∃ item ∈ ids.map RelayWork.known, item.id = id) ↔ id ∈ ids := by
  constructor
  · rintro ⟨item, inWork, rfl⟩
    obtain ⟨other, member, rfl⟩ := List.mem_map.1 inWork
    exact member
  · exact fun member => ⟨RelayWork.known id, List.mem_map_of_mem member, rfl⟩

namespace Graph

/-! ## One iteration -/

section Step

variable {graph : Graph ω} {before after : Pending} {gone id : Nat} {state : SignatureState}

/-- An examined relay that was not queued as dirty has an exact signature, and so has
every entry above it. -/
theorem Normalizing.not_mentions (inv : graph.Normalizing before gone)
    (dead : ¬ graph.IsToken gone) (popped : Pending.Popped before after id state)
    {other : Nat} (le : other ≤ id) (clean : other = id → state ≠ .dirty) :
    gone ∉ graph.ancestry other := by
  intro mentions
  obtain ⟨source, dirty, sourceLe⟩ := inv.exists_dirty dead mentions
  have least := popped.least source (before.dirty_subset dirty)
  have sourceEq : source = id := by omega
  have otherEq : other = id := by omega
  exact clean otherEq (popped.state_iff.2 (sourceEq ▸ dirty))

/-- A queued identity that is no relay any more needs no work. -/
theorem Normalizing.skip (inv : graph.Normalizing before gone)
    (popped : Pending.Popped before after id state) (notRelay : ¬ graph.IsRelay id) :
    graph.Normalizing after gone := by
  have ne : ∀ other, graph.IsRelay other → other ≠ id := by
    rintro other relay rfl
    exact notRelay relay
  have queued : ∀ other, graph.IsRelay other → other ∉ after.ids → other ∉ before.ids := by
    intro other relay absent member
    exact absent ((popped.ids other).2 ⟨ne other relay, member⟩)
  exact {
    wf := inv.wf
    consistent := inv.consistent
    stale_parent := fun other relay mentions =>
      (inv.stale_parent other relay mentions).imp
        (fun dirty => (popped.dirty other).2 ⟨ne other relay, dirty⟩) fun above => above
    degrees := fun other relay absent => inv.degrees other relay (queued other relay absent)
    distinct := fun left right leftRelay rightRelay differ leftAbsent rightAbsent =>
      inv.distinct left right leftRelay rightRelay differ
        (queued left leftRelay leftAbsent) (queued right rightRelay rightAbsent)
    bounded := fun other member => inv.bounded other ((popped.ids other).1 member).2 }

/-- A settled relay with enough links, unlike every other relay, leaves the queue. -/
theorem Normalizing.accept (inv : graph.Normalizing before gone)
    (popped : Pending.Popped before after id .known)
    (enough : 2 ≤ (graph.parentsOf id).len ∧ 2 ≤ (graph.childrenOf id).len)
    (unlike : ∀ other, graph.IsRelay other → other ≠ id → ¬ graph.Equivalent id other) :
    graph.Normalizing after gone := by
  have queued : ∀ other, other ≠ id → other ∉ after.ids → other ∉ before.ids := by
    intro other ne absent member
    exact absent ((popped.ids other).2 ⟨ne, member⟩)
  have notDirty : id ∉ before.dirty := fun dirty => by
    have isDirty := popped.state_iff.2 dirty
    cases isDirty
  exact {
    wf := inv.wf
    consistent := inv.consistent
    stale_parent := by
      intro other relay mentions
      refine (inv.stale_parent other relay mentions).imp (fun dirty => ?_) fun above => above
      refine (popped.dirty other).2 ⟨?_, dirty⟩
      rintro rfl
      exact notDirty dirty
    degrees := by
      intro other relay absent
      by_cases equal : other = id
      · rw [equal]
        exact enough
      · exact inv.degrees other relay (queued other equal absent)
    distinct := by
      intro left right leftRelay rightRelay differ leftAbsent rightAbsent
      by_cases leftEq : left = id
      · subst leftEq
        exact unlike right rightRelay differ.symm
      · by_cases rightEq : right = id
        · subst rightEq
          rintro ⟨sameAncestry, sameFlag⟩
          exact unlike left leftRelay differ ⟨sameAncestry.symm, sameFlag.symm⟩
        · exact inv.distinct left right leftRelay rightRelay differ
            (queued left leftEq leftAbsent) (queued right rightEq rightAbsent)
    bounded := fun other member => inv.bounded other ((popped.ids other).1 member).2 }

/-- Erasing the examined entry, with its neighbours queued.  The children are queued
as dirty when the entry's own signature may mention the removed token. -/
theorem Normalizing.erase (inv : graph.Normalizing before gone)
    (popped : Pending.Popped before after id state) {entry : Entry ω}
    (found : graph.nodes id = some entry) {graph' : Graph ω}
    (erased : Erased graph graph' id) (descendantsDirty : Bool)
    (clean : gone ∈ graph.ancestry id → descendantsDirty = true)
    (exactSelf : gone ∉ graph.ancestry id → graph.Consistent id) :
    graph'.Normalizing (after.enqueueAll (entry.parents.toList.map RelayWork.known ++
      entry.children.toList.map fun id =>
        if descendantsDirty then RelayWork.dirty id else RelayWork.known id)) gone := by
  set work := entry.parents.toList.map RelayWork.known ++
    entry.children.toList.map fun id =>
      if descendantsDirty then RelayWork.dirty id else RelayWork.known id with workDef
  have parentQueued : ∀ parent, graph.Edge parent id → ∃ item ∈ work, item.id = parent := by
    intro parent edge
    refine ⟨RelayWork.known parent, ?_, rfl⟩
    rw [workDef, List.mem_append]
    exact .inl (List.mem_map.2
      ⟨parent, IdSet.mem_toList.2 ((inv.wf.parent_mem found).2 edge), rfl⟩)
  have childQueued : ∀ child, graph.Edge id child → ∃ item ∈ work, item.id = child ∧
      (descendantsDirty = true → item.signature = .dirty) := by
    intro child edge
    refine ⟨if descendantsDirty then RelayWork.dirty child else RelayWork.known child, ?_, ?_⟩
    · rw [workDef, List.mem_append, List.mem_map]
      exact .inr (List.mem_map.2 ⟨child, by
        rw [IdSet.mem_toList, WF.child_mem found]
        exact edge, rfl⟩)
    · cases descendantsDirty <;> simp [RelayWork.dirty, RelayWork.known]
  have workNeighbour : ∀ item ∈ work, graph.Edge item.id id ∨ graph.Edge id item.id := by
    intro item member
    rw [workDef, List.mem_append, List.mem_map, List.mem_map] at member
    rcases member with ⟨parent, member, rfl⟩ | ⟨child, member, rfl⟩
    · exact .inl ((inv.wf.parent_mem found).1 (IdSet.mem_toList.1 member))
    · refine .inr ?_
      have edge := (WF.child_mem found).1 (IdSet.mem_toList.1 member)
      cases descendantsDirty <;> simpa [RelayWork.dirty, RelayWork.known] using edge
  have unqueued : ∀ other, other ≠ id → other ∉ (after.enqueueAll work).ids →
      other ∉ before.ids ∧ ¬ graph.Edge other id ∧ ¬ graph.Edge id other := by
    intro other ne absent
    rw [Pending.mem_enqueueAll, not_or] at absent
    refine ⟨fun member => absent.2 ((popped.ids other).2 ⟨ne, member⟩), ?_, ?_⟩
    · exact fun edge => absent.1 (parentQueued other edge)
    · intro edge
      obtain ⟨item, member, equal, -⟩ := childQueued other edge
      exact absent.1 ⟨item, member, equal⟩
  have oldRelay : ∀ other, graph'.IsRelay other → other ≠ id ∧ graph.IsRelay other :=
    fun other => (erased.isRelay_iff other).1
  exact {
    wf := erased.wf' inv.wf
    consistent := by
      intro other relay absent
      obtain ⟨ne, relay⟩ := oldRelay other relay
      rw [ancestry_congr (erased.core other ne)] at absent
      have exactOther := inv.consistent other relay absent
      apply erased.consistent (inv.wf.loopless id) ne exactOther
      intro edge
      apply exactSelf
      intro mentions
      exact absent ((exactOther gone).2 ⟨id, edge, mentions⟩)
    stale_parent := by
      intro other relay mentions
      obtain ⟨ne, relay⟩ := oldRelay other relay
      rw [ancestry_congr (erased.core other ne)] at mentions
      rcases inv.stale_parent other relay mentions with dirty | ⟨parent, edge, inherited⟩
      · exact .inl (Pending.mem_enqueueAll_dirty.2
          (.inr ((popped.dirty other).2 ⟨ne, dirty⟩)))
      · by_cases parentEq : parent = id
        · subst parentEq
          obtain ⟨item, member, equal, isDirty⟩ := childQueued other edge
          exact .inl (Pending.mem_enqueueAll_dirty.2
            (.inl ⟨item, member, equal, isDirty (clean inherited)⟩))
        · exact .inr ⟨parent, (erased.bypass _ _).2 ⟨parentEq, ne, .inl edge⟩,
            by rwa [ancestry_congr (erased.core parent parentEq)]⟩
    degrees := by
      intro other relay absent
      obtain ⟨ne, relay⟩ := oldRelay other relay
      obtain ⟨notQueued, notParent, notChild⟩ := unqueued other ne absent
      have sameParents : graph'.parentsOf other = graph.parentsOf other := by
        apply erased.parents_unchanged inv.wf
        intro parent
        rw [erased.bypass]
        constructor
        · rintro ⟨-, -, edge | ⟨-, out⟩⟩
          · exact edge
          · exact (notChild out).elim
        · intro edge
          refine ⟨?_, ne, .inl edge⟩
          rintro rfl
          exact notChild edge
      have sameChildren : graph'.childrenOf other = graph.childrenOf other := by
        apply Removed.children_unchanged
        intro child
        rw [erased.bypass]
        constructor
        · rintro ⟨-, -, edge | ⟨into, -⟩⟩
          · exact edge
          · exact (notParent into).elim
        · intro edge
          refine ⟨ne, ?_, .inl edge⟩
          rintro rfl
          exact notParent edge
      rw [sameParents, sameChildren]
      exact inv.degrees other relay notQueued
    distinct := by
      intro left right leftRelay rightRelay differ leftAbsent rightAbsent
      obtain ⟨leftNe, leftRelay⟩ := oldRelay left leftRelay
      obtain ⟨rightNe, rightRelay⟩ := oldRelay right rightRelay
      rw [Equivalent, ancestry_congr (erased.core left leftNe),
        ancestry_congr (erased.core right rightNe), cancelled_congr (erased.core left leftNe),
        cancelled_congr (erased.core right rightNe)]
      exact inv.distinct left right leftRelay rightRelay differ
        (unqueued left leftNe leftAbsent).1 (unqueued right rightNe rightAbsent).1
    bounded := by
      intro other member
      rw [erased.next_eq]
      rcases Pending.mem_enqueueAll.1 member with ⟨item, inWork, rfl⟩ | queued
      · rcases workNeighbour item inWork with edge | edge
        · obtain ⟨found, present⟩ := WF.parent_exists edge
          exact inv.wf.lt_next present
        · obtain ⟨found, present⟩ := inv.wf.child_exists edge
          exact inv.wf.lt_next present
      · exact inv.bounded other ((popped.ids other).1 queued).2 }

/-- Merging the examined relay with an equivalent one, with their neighbours queued. -/
theorem Normalizing.merge (inv : graph.Normalizing before gone)
    (popped : Pending.Popped before after id .known)
    {keep remove : Nat} {discarded : Entry ω} (removeFound : graph.nodes remove = some discarded)
    (keepRelay : graph.IsRelay keep)
    (clean : gone ∉ graph.ancestry remove) (equivalent : graph.Equivalent keep remove)
    (lower : keep < remove) (isPair : id = keep ∨ id = remove) {graph' : Graph ω}
    (folded : Folded graph graph' keep remove) :
    graph'.Normalizing (after.enqueueAll
      ((discarded.parents.toList ++ discarded.children.toList ++ [keep]).map
        RelayWork.known)) gone := by
  set work := (discarded.parents.toList ++ discarded.children.toList ++ [keep]).map
    RelayWork.known with workDef
  have workIff : ∀ other, (∃ item ∈ work, item.id = other) ↔
      graph.Edge other remove ∨ graph.Edge remove other ∨ other = keep := by
    intro other
    have ids : (∃ item ∈ work, item.id = other) ↔
        other ∈ discarded.parents.toList ++ discarded.children.toList ++ [keep] := by
      rw [workDef]
      exact RelayWork.exists_known
    rw [ids, List.mem_append, List.mem_append, IdSet.mem_toList, IdSet.mem_toList,
      inv.wf.parent_mem removeFound, WF.child_mem removeFound, List.mem_singleton, or_assoc]
  have notDirty : id ∉ before.dirty := fun dirty => by
    have isDirty := popped.state_iff.2 dirty
    cases isDirty
  have unqueued : ∀ other, other ≠ remove → other ∉ (after.enqueueAll work).ids →
      other ∉ before.ids ∧ other ≠ keep ∧
        ¬ graph.Edge other remove ∧ ¬ graph.Edge remove other := by
    intro other ne absent
    rw [Pending.mem_enqueueAll, not_or, workIff, not_or, not_or] at absent
    obtain ⟨⟨notParent, notChild, notKeep⟩, notAfter⟩ := absent
    refine ⟨fun member => notAfter ((popped.ids other).2 ⟨?_, member⟩),
      notKeep, notParent, notChild⟩
    rcases isPair with rfl | rfl
    · exact notKeep
    · exact ne
  have oldRelay : ∀ other, graph'.IsRelay other → other ≠ remove ∧ graph.IsRelay other :=
    fun other => (folded.isRelay_iff other).1
  exact {
    wf := folded.wf' inv.wf lower equivalent.2
    consistent := by
      intro other relay absent
      obtain ⟨ne, relay⟩ := oldRelay other relay
      rw [ancestry_congr (folded.core other ne)] at absent
      exact folded.consistent lower.ne ne equivalent.1 (inv.consistent other relay absent)
    stale_parent := by
      intro other relay mentions
      obtain ⟨ne, relay⟩ := oldRelay other relay
      rw [ancestry_congr (folded.core other ne)] at mentions
      have otherNe : other ≠ id := by
        rintro rfl
        rcases isPair with rfl | rfl
        · exact clean (equivalent.1 ▸ mentions)
        · exact clean mentions
      rcases inv.stale_parent other relay mentions with dirty | ⟨parent, edge, inherited⟩
      · exact .inl (Pending.mem_enqueueAll_dirty.2
          (.inr ((popped.dirty other).2 ⟨otherNe, dirty⟩)))
      · have parentNe : parent ≠ remove := by
          rintro rfl
          exact clean inherited
        exact .inr ⟨parent, (folded.fold _ _).2 ⟨parentNe, ne, .inl edge⟩,
          by rwa [ancestry_congr (folded.core parent parentNe)]⟩
    degrees := by
      intro other relay absent
      obtain ⟨ne, relay⟩ := oldRelay other relay
      obtain ⟨notQueued, notKeep, notParent, notChild⟩ := unqueued other ne absent
      have sameParents : graph'.parentsOf other = graph.parentsOf other := by
        apply folded.parents_unchanged inv.wf
        intro parent
        rw [folded.fold]
        constructor
        · rintro ⟨-, -, edge | ⟨-, handed⟩⟩
          · exact edge
          · exact (notChild handed).elim
        · intro edge
          refine ⟨?_, ne, .inl edge⟩
          rintro rfl
          exact notChild edge
      have sameChildren : graph'.childrenOf other = graph.childrenOf other := by
        apply Removed.children_unchanged
        intro child
        rw [folded.fold]
        constructor
        · rintro ⟨-, -, edge | ⟨equal, -⟩⟩
          · exact edge
          · exact (notKeep equal).elim
        · intro edge
          refine ⟨ne, ?_, .inl edge⟩
          rintro rfl
          exact notParent edge
      rw [sameParents, sameChildren]
      exact inv.degrees other relay notQueued
    distinct := by
      intro left right leftRelay rightRelay differ leftAbsent rightAbsent
      obtain ⟨leftNe, leftRelay⟩ := oldRelay left leftRelay
      obtain ⟨rightNe, rightRelay⟩ := oldRelay right rightRelay
      rw [Equivalent, ancestry_congr (folded.core left leftNe),
        ancestry_congr (folded.core right rightNe), cancelled_congr (folded.core left leftNe),
        cancelled_congr (folded.core right rightNe)]
      exact inv.distinct left right leftRelay rightRelay differ
        (unqueued left leftNe leftAbsent).1 (unqueued right rightNe rightAbsent).1
    bounded := by
      intro other member
      rw [folded.next_eq]
      rcases Pending.mem_enqueueAll.1 member with inWork | queued
      · rcases (workIff other).1 inWork with edge | edge | rfl
        · obtain ⟨found, present⟩ := WF.parent_exists edge
          exact inv.wf.lt_next present
        · obtain ⟨found, present⟩ := inv.wf.child_exists edge
          exact inv.wf.lt_next present
        · obtain ⟨entry, present, -⟩ := keepRelay
          exact inv.wf.lt_next present
      · exact inv.bounded other ((popped.ids other).1 queued).2 }

end Step

end Graph

end VThread.Cancellation
